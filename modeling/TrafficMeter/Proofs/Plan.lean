import TrafficMeter.Proofs.Similar
import TrafficMeter.Tool.Session

/-!
# Commands as operations

A command looks up the names in its arguments, asks one thing of the pipeline and words the answer. What it
asks and how it words the answer is its plan, and carrying out the plan is all that a session does with its
pipeline (`Session.execute_eq_carryOut`). Plans mention stores and tables by name only, so similar pipelines
have the same plan for each command (`Similar.plan_eq`) and carry it out alike (`Similar.carryOut`).
-/

namespace TrafficMeter

namespace Pipeline

variable {description : Description} {pipeline : Pipeline} {name : String}

/-- Every `store` of an intact pipeline is found by its own name. -/
theorem Intact.store_name_eq (h : pipeline.Intact description) {store : Store}
    (hstore : pipeline.stores.find? name = some store) : store.name = name := by
  obtain ⟨described, hdescribed, hintact⟩ := h.exists_store hstore
  have hname : described.name = name := by simpa using List.find?_some hdescribed
  exact hintact.name_eq.trans hname

/-- Every `table` of an intact pipeline is found by its own name. -/
theorem Intact.table_name_eq (h : pipeline.Intact description) {table : Table}
    (htable : pipeline.tables.find? name = some table) : table.name = name := by
  obtain ⟨described, hdescribed, hintact⟩ := h.exists_table htable
  have hname : described.name = name := by simpa using List.find?_some hdescribed
  exact hintact.name_eq.trans hname

end Pipeline

namespace Tool

/-! ## Plans -/

/-- What a command comes to once its names are looked up. -/
structure Plan where
  /-- What is asked of the pipeline. -/
  operation : Pipeline.Operation
  /-- The text that shows the answer. -/
  shown : Answer → String
  /-- The failure that tells of an error. -/
  refusal : Error → Failure
  /-- All that the operation works on is named. -/
  isNamed : operation.isNamed
  /-- Only what is stored is shown. -/
  shown_stored : ∀ answer, shown answer.stored = shown answer

/-- Carries out a plan on `pipeline`, if there is one. -/
def Plan.carryOut (pipeline : Pipeline) : Except Failure Plan → Except Failure String × Pipeline
  | .error failure => (.error failure, pipeline)
  | .ok plan =>
    let (outcome, next) := pipeline.perform plan.operation
    ((outcome.map plan.shown).mapError plan.refusal, next)

namespace Plan

variable {description : Description} {pipeline : Pipeline} {plan : Plan} {name : String}

/-- A plan for a `store` that is there is an attempt on this store. -/
theorem carryOut_of_store {store : Store} {operation : Store.Operation}
    (hoperation : plan.operation = .store name operation) (hstore : pipeline.stores.find? name = some store) :
    carryOut pipeline (.ok plan) =
      match store.attempt operation with
      | .ok (answer, next) => (.ok (plan.shown answer), pipeline.putStore name next)
      | .error error => (.error (plan.refusal error), pipeline) := by
  rw [carryOut, hoperation, Pipeline.perform_store_eq_settle (Pipeline.store_eq_ok_iff.mpr hstore)]
  cases store.attempt operation <;> rfl

/-- A plan for a `table` that is there is an attempt on this table. -/
theorem carryOut_of_table {table : Table} {operation : Table.Operation}
    (hoperation : plan.operation = .table name operation) (htable : pipeline.tables.find? name = some table) :
    carryOut pipeline (.ok plan) =
      match table.attempt operation with
      | .ok (answer, next) => (.ok (plan.shown answer), pipeline.putTable name next)
      | .error error => (.error (plan.refusal error), pipeline) := by
  rw [carryOut, hoperation, Pipeline.perform_table_eq_settle (Pipeline.table_eq_ok_iff.mpr htable)]
  cases table.attempt operation <;> rfl

/-- Carrying out a `plan` keeps a pipeline intact. -/
theorem intact_carryOut (h : pipeline.Intact description) (plan : Except Failure Plan) :
    (carryOut pipeline plan).2.Intact description := by
  cases plan with
  | error failure => exact h
  | ok plan => exact h.perform plan.operation

end Plan

/-- A `table` is found by the `name` under which the pipeline has it. -/
theorem findTable_eq_ok_iff {pipeline : Pipeline} {name : String} {table : Table} :
    findTable pipeline name = .ok table ↔ pipeline.tables.find? name = some table := by
  rw [findTable, Pipeline.table]
  cases pipeline.tables.find? name <;> simp [Except.mapError]

namespace Target

/-- What a command can do with one meter. -/
inductive Task where
  /-- Give it a new profile. -/
  | configure (profile : Profile)
  /-- Read it. -/
  | read
  /-- Make it unconfigured. -/
  | reset
  /-- Meter a packet, with a colour or without. -/
  | execute (length : UInt32) (now : UInt64) (color : Option Color)

/-- The operation that does a task with the meter of a target. -/
def operation : Target → Task → Pipeline.Operation
  | .indirect store index, .configure profile => .store store.name (.configure index profile)
  | .indirect store index, .read => .store store.name (.read index)
  | .indirect store index, .reset => .store store.name (.reset index)
  | .indirect store index, .execute length now color =>
    .store store.name (.executeFrom index (color.getD .green) length now)
  | .direct table key slot, .configure profile => .table table.name (.configure key (slot.getD 0) profile)
  | .direct table key slot, .read => .table table.name (.read key (slot.getD 0))
  | .direct table key slot, .reset => .table table.name (.reset key (slot.getD 0))
  | .direct table key none, .execute length now none => .table table.name (.hit key length now)
  | .direct table key slot, .execute length now (some incoming) =>
    .table table.name (.executeFrom key (slot.getD 0) incoming length now)
  | .direct table key slot, .execute length now none =>
    .table table.name (.execute key (slot.getD 0) length now)

/-- The text that shows what the meter of `target` answered to a task. -/
def shown (target : Target) : Task → Answer → String
  | .read, .record record => Session.describe target record
  | .execute _ now _, .color color => Session.describeColors target now [color]
  | .execute _ now _, .hit hit => Session.describeColors target now hit.colors
  | _, _ => ""

/-- The failure that tells of an error of the meter of `target`. -/
def refusal (target : Target) : Task → Error → Failure
  | .configure _, error => Failure.of s!"Failed to update {target.label}" (.meter error)
  | .read, error => Failure.of s!"Failed to read {target.label}" (.meter error)
  | .reset, error => Failure.of s!"Failed to reset {target.label}" (.meter error)
  | .execute .., error => Failure.ofError error

/-- The plan that does `task` with the meter of `target`. -/
def plan (target : Target) (task : Task) : Plan where
  operation := target.operation task
  shown := target.shown task
  refusal := target.refusal task
  isNamed := by fun_cases operation target task <;> rfl
  shown_stored answer := by cases task <;> cases answer <;> rfl

/-- The meter is that of a store or table of `pipeline`. -/
def Found (pipeline : Pipeline) : Target → Prop
  | .indirect store _ => pipeline.stores.find? store.name = some store
  | .direct table _ _ => pipeline.tables.find? table.name = some table

/-- Two targets are addressed in the same way: they belong to the same store, or to tables of one name under the
same key. -/
inductive Alike : Target → Target → Prop
  /-- The meter of a store. -/
  | indirect (store : Store) (index : UInt32) : Alike (.indirect store index) (.indirect store index)
  /-- The meter of an entry. -/
  | direct {table table' : Table} (hname : table.name = table'.name) (key : Bytes) (slot : Option Nat) :
    Alike (.direct table key slot) (.direct table' key slot)

theorem Alike.label_eq {target target' : Target} (h : target.Alike target') :
    target.label = target'.label := by
  cases h with
  | indirect store index => rfl
  | direct hname key slot => cases slot <;> simp only [label, hname]

theorem Alike.operation_eq {target target' : Target} (h : target.Alike target') (task : Task) :
    target.operation task = target'.operation task := by
  cases h with
  | indirect store index => rfl
  | direct hname key slot =>
    cases task with
    | execute length now color => cases slot <;> cases color <;> simp only [operation, hname]
    | _ => simp only [operation, hname]

/-- Targets that are addressed in the same way have the same plan for each `task`. -/
theorem Alike.plan_eq {target target' : Target} (h : target.Alike target') (task : Task) :
    target.plan task = target'.plan task := by
  have hshown : target.shown task = target'.shown task := by
    funext answer
    cases task <;> cases answer <;>
      simp only [shown, Session.describe, Session.describeColors, h.label_eq]
  have hrefusal : target.refusal task = target'.refusal task := by
    funext error
    cases task <;> simp only [refusal, h.label_eq]
  simp only [plan, h.operation_eq task, hshown, hrefusal]

variable {description : Description} {pipeline : Pipeline} {target : Target}

/-- A `target` that was looked up belongs to a store or table of the pipeline. -/
theorem found_of_resolve (h : pipeline.Intact description) {address : MeterTarget}
    (hresolve : resolve pipeline address = .ok target) : target.Found pipeline := by
  -- A name is taken for that of a store if there is one, and for that of a table otherwise.
  rw [resolve] at hresolve
  split at hresolve
  next store hstore =>
    have hname := h.store_name_eq hstore
    split at hresolve
    next index _ =>
      cases hresolve
      rw [Found, hname, hstore]
    next => cases hresolve
  next =>
    obtain ⟨table, htable, hrest⟩ := bind_eq_ok_iff.mp hresolve
    rw [findTable_eq_ok_iff] at htable
    have hname := h.table_name_eq htable
    split at hrest
    next key _ =>
      obtain ⟨bytes, -, hbytes⟩ := bind_eq_ok_iff.mp hrest
      cases hbytes
      rw [Found, hname, htable]
    next => cases hrest

/-- Carrying out the plan of `configure` gives the meter of `target` its new `profile`. -/
theorem carryOut_configure (h : target.Found pipeline) (profile : Profile) :
    Plan.carryOut pipeline (.ok (target.plan (.configure profile))) =
      match target.configure pipeline profile with
      | .ok next => (.ok "", next)
      | .error error => (.error (target.refusal (.configure profile) error), pipeline) := by
  cases target with
  | indirect store index =>
    rw [Plan.carryOut_of_store rfl h, configure, Store.attempt]
    cases store.configure index profile <;> rfl
  | direct table key slot =>
    rw [Plan.carryOut_of_table rfl h, configure, Table.attempt]
    cases table.configure key (slot.getD 0) profile <;> rfl

/-- Carrying out the plan of `reset` makes the meter of `target` unconfigured. -/
theorem carryOut_reset (h : target.Found pipeline) :
    Plan.carryOut pipeline (.ok (target.plan .reset)) =
      match target.reset pipeline with
      | .ok next => (.ok "", next)
      | .error error => (.error (target.refusal .reset error), pipeline) := by
  cases target with
  | indirect store index =>
    rw [Plan.carryOut_of_store rfl h, reset, Store.attempt]
    cases store.reset index <;> rfl
  | direct table key slot =>
    rw [Plan.carryOut_of_table rfl h, reset, Table.attempt]
    cases table.reset key (slot.getD 0) <;> rfl

/-- Carrying out the plan of `read` shows the meter of `target`. -/
theorem carryOut_read (h : target.Found pipeline) :
    Plan.carryOut pipeline (.ok (target.plan .read)) =
      match target.read with
      | .ok record => (.ok (Session.describe target record), pipeline)
      | .error error => (.error (target.refusal .read error), pipeline) := by
  cases target with
  | indirect store index =>
    rw [Plan.carryOut_of_store rfl h, read, Store.attempt]
    cases store.read index with
    | ok record => exact congrArg (Prod.mk _) (Pipeline.putStore_eq_self h)
    | error error => rfl
  | direct table key slot =>
    rw [Plan.carryOut_of_table rfl h, read, Table.attempt]
    cases table.read key (slot.getD 0) with
    | ok record => exact congrArg (Prod.mk _) (Pipeline.putTable_eq_self h)
    | error error => rfl

/-- Carrying out the plan of `execute` meters a packet. It is answered by a colour or by a hit, and shown by its
colours in both cases. -/
theorem carryOut_execute (h : target.Found pipeline) (length : UInt32) (now : UInt64) (color : Option Color) :
    Plan.carryOut pipeline (.ok (target.plan (.execute length now color))) =
      match target.execute pipeline length now color with
      | .ok (colors, next) => (.ok (Session.describeColors target now colors), next)
      | .error error => (.error (Failure.ofError error), pipeline) := by
  cases target with
  | indirect store index =>
    rw [Plan.carryOut_of_store rfl h, execute, Store.attempt]
    cases store.executeFrom index (color.getD .green) length now <;> rfl
  | direct table key slot =>
    have hincoming (incoming : Color) :
        (plan (.direct table key slot) (.execute length now (some incoming))).operation =
          .table table.name (.executeFrom key (slot.getD 0) incoming length now) := by
      simp only [plan, operation]
    cases color with
    | some incoming =>
      rw [Plan.carryOut_of_table (hincoming incoming) h, execute, Table.attempt]
      cases table.executeFrom key (slot.getD 0) incoming length now <;> rfl
    | none =>
      -- With neither a colour nor a slot the packet is marked by all meters of the entry.
      cases slot with
      | none =>
        rw [Plan.carryOut_of_table rfl h, execute, Table.attempt]
        cases table.hit key length now <;> rfl
      | some slot =>
        rw [Plan.carryOut_of_table rfl h]
        simp only [execute, Table.attempt]
        cases table.execute key ((some slot).getD 0) length now <;> rfl

end Target

/-- What a command can do with a table entry. -/
inductive EntryTask where
  /-- Write it. -/
  | update (key value : Bytes)
  /-- Read its raw value. -/
  | read (key : Bytes)
  /-- Remove it. -/
  | delete (key : Bytes)

/-- The operation that does something with a table entry. -/
def EntryTask.operation : EntryTask → Table.Operation
  | .update key value => .update key value
  | .read key => .entryValue key
  | .delete key => .delete key

/-- The text that shows the answer of a table. Only raw values are shown. -/
def EntryTask.shown : Answer → String
  | .bytes value => Hex.format value
  | _ => ""

/-- The plan that does `task` with an entry of the table with this `name`. -/
def EntryTask.plan (name : String) (task : EntryTask) : Plan where
  operation := .table name task.operation
  shown := shown
  refusal := Failure.ofError
  isNamed := by cases task <;> rfl
  shown_stored answer := by cases answer <;> rfl

/-- The plan that shows a `text` about a snapshot. -/
def Plan.ofSnapshot (text : Snapshot → String) : Plan where
  operation := .snapshot
  shown
    | .snapshot snapshot => text snapshot
    | _ => ""
  refusal := Failure.ofError
  isNamed := rfl
  shown_stored answer := by cases answer <;> rfl

/-! ## Sessions carry out plans -/

/-- The plan of a command on `pipeline`, where `clock` is the time at which packets without a time of their own
arrive. -/
def Command.plan (pipeline : Pipeline) (clock : UInt64) : Command → Except Failure Plan
  | .init _ => .ok (.ofSnapshot fun snapshot =>
      s!"Initialized {snapshot.stores.size} indirect meter(s) and {snapshot.tables.size} table(s)")
  | .update address profile => do
    let target ← Target.resolve pipeline address
    return target.plan (.configure profile)
  | .get address => do
    let target ← Target.resolve pipeline address
    return target.plan .read
  | .reset address => do
    let target ← Target.resolve pipeline address
    return target.plan .reset
  | .execute address length time color => do
    let target ← Target.resolve pipeline address
    return target.plan (.execute length (time.getD clock) color)
  | .entryUpdate entry value => do
    let _ ← findTable pipeline entry.table
    let key ← parseHex "key" entry.key
    let value ← parseHex "value" value
    return EntryTask.plan entry.table (.update key value)
  | .entryGet entry => do
    let _ ← findTable pipeline entry.table
    let key ← parseHex "key" entry.key
    return EntryTask.plan entry.table (.read key)
  | .entryDelete entry => do
    let _ ← findTable pipeline entry.table
    let key ← parseHex "key" entry.key
    return EntryTask.plan entry.table (.delete key)
  | .stats => .ok (.ofSnapshot fun snapshot => (snapshot.tallies.toJson Tally.toJson).render .pretty)

/-- All that `session` does with its pipeline is to carry out the plan of `command`. -/
theorem Session.execute_eq_carryOut {description : Description} {session : Session}
    (h : session.pipeline.Intact description) (timer : Nat) (command : Command) :
    ((session.execute timer command).1, (session.execute timer command).2.pipeline) =
      Plan.carryOut session.pipeline (command.plan session.pipeline (session.clock.read timer)) := by
  -- One case for each command. What is looked up fails in both in the same way, and afterwards both do the same
  -- with the store or table that was found.
  cases command with
  | init force =>
    -- A snapshot has as many stores and tables as the pipeline.
    have hstores : session.pipeline.snapshot.stores.size = session.pipeline.stores.size := List.length_map _
    have htables : session.pipeline.snapshot.tables.size = session.pipeline.tables.size := List.length_map _
    exact congrArg₂ (fun stores tables : Nat =>
      (Except.ok s!"Initialized {stores} indirect meter(s) and {tables} table(s)", session.pipeline))
      hstores.symm htables.symm
  | update address profile =>
    simp only [execute, update, Command.plan]
    cases htarget : Target.resolve session.pipeline address with
    | error failure => rfl
    | ok target =>
      simp only [ok_bind, pure_eq_ok, Target.carryOut_configure (Target.found_of_resolve h htarget)]
      cases target.configure session.pipeline profile <;> rfl
  | get address =>
    simp only [execute, get, Command.plan]
    cases htarget : Target.resolve session.pipeline address with
    | error failure => rfl
    | ok target =>
      simp only [ok_bind, pure_eq_ok, Target.carryOut_read (Target.found_of_resolve h htarget)]
      cases target.read <;> rfl
  | reset address =>
    simp only [execute, reset, Command.plan]
    cases htarget : Target.resolve session.pipeline address with
    | error failure => rfl
    | ok target =>
      simp only [ok_bind, pure_eq_ok, Target.carryOut_reset (Target.found_of_resolve h htarget)]
      cases target.reset session.pipeline <;> rfl
  | execute address length time color =>
    simp only [execute, meterPacket, Command.plan]
    cases htarget : Target.resolve session.pipeline address with
    | error failure => rfl
    | ok target =>
      simp only [ok_bind, pure_eq_ok, Target.carryOut_execute (Target.found_of_resolve h htarget)]
      cases target.execute session.pipeline length (time.getD (session.clock.read timer)) color <;> rfl
  | entryUpdate entry value =>
    simp only [execute, entryUpdate, Command.plan]
    cases htable : findTable session.pipeline entry.table with
    | error failure => rfl
    | ok table =>
      rw [findTable_eq_ok_iff] at htable
      cases parseHex "key" entry.key with
      | error failure => rfl
      | ok key =>
        cases parseHex "value" value with
        | error failure => rfl
        | ok value =>
          simp only [ok_bind, pure_eq_ok, h.table_name_eq htable]
          rw [Plan.carryOut_of_table rfl htable, EntryTask.operation, Table.attempt]
          cases table.update key value <;> rfl
  | entryGet entry =>
    simp only [execute, entryGet, Command.plan]
    cases htable : findTable session.pipeline entry.table with
    | error failure => rfl
    | ok table =>
      rw [findTable_eq_ok_iff] at htable
      cases parseHex "key" entry.key with
      | error failure => rfl
      | ok key =>
        simp only [ok_bind, pure_eq_ok]
        rw [Plan.carryOut_of_table rfl htable, EntryTask.operation, Table.attempt]
        cases table.entryValue key with
        | ok value => exact congrArg (Prod.mk _) (Pipeline.putTable_eq_self htable).symm
        | error error => rfl
  | entryDelete entry =>
    simp only [execute, entryDelete, Command.plan]
    cases htable : findTable session.pipeline entry.table with
    | error failure => rfl
    | ok table =>
      rw [findTable_eq_ok_iff] at htable
      cases parseHex "key" entry.key with
      | error failure => rfl
      | ok key =>
        simp only [ok_bind, pure_eq_ok, h.table_name_eq htable]
        rw [Plan.carryOut_of_table rfl htable, EntryTask.operation, Table.attempt]
        cases table.delete key <;> rfl
  | stats => rfl

end Tool

/-! ## Similar pipelines -/

namespace Pipeline

open Tool

variable {description : Description} {left right : Pipeline}

/-- A `plan` cannot tell similar pipelines apart. -/
theorem Similar.carryOut (h : left.Similar right) (hleft : left.Intact description)
    (hright : right.Intact description) (plan : Except Failure Plan) :
    (Plan.carryOut left plan).1 = (Plan.carryOut right plan).1 ∧
      (Plan.carryOut left plan).2.Similar (Plan.carryOut right plan).2 := by
  cases plan with
  | error failure => exact ⟨rfl, h⟩
  | ok plan =>
    obtain ⟨hanswer, hnext⟩ := h.perform hleft hright plan.isNamed
    refine ⟨?_, hnext⟩
    -- The answers agree in what is stored, and nothing else is shown.
    have hshown (outcome : Except Error Answer) :
        outcome.map plan.shown = (outcome.map Answer.stored).map plan.shown := by
      cases outcome with
      | ok answer => exact congrArg Except.ok (plan.shown_stored answer).symm
      | error error => rfl
    simp only [Plan.carryOut]
    rw [hshown, hanswer, ← hshown]

/-- A table of a `name` is found in both of two similar pipelines or in neither. -/
theorem Similar.findTable_cases (h : left.Similar right) (name : String) :
    (∃ failure, findTable left name = .error failure ∧ findTable right name = .error failure) ∨
      ∃ table table', findTable left name = .ok table ∧ findTable right name = .ok table' ∧
        table.name = table'.name := by
  rcases h.find?_cases name with ⟨hnone, hnone'⟩ | ⟨table, table', htable, htable', hsimilar⟩
  · refine .inl ⟨Failure.ofError (.unknownObject name), ?_, ?_⟩
    · simp [findTable, Pipeline.table, hnone, Except.mapError]
    · simp [findTable, Pipeline.table, hnone', Except.mapError]
  · exact .inr ⟨table, table', findTable_eq_ok_iff.mpr htable, findTable_eq_ok_iff.mpr htable',
      hsimilar.name_eq⟩

/-- The meter of an `address` is found in both of two similar pipelines, and addressed in the same way, or in
neither. -/
theorem Similar.resolve_cases (h : left.Similar right) (address : MeterTarget) :
    (∃ failure, Target.resolve left address = .error failure ∧
      Target.resolve right address = .error failure) ∨
      ∃ target target', Target.resolve left address = .ok target ∧
        Target.resolve right address = .ok target' ∧ target.Alike target' := by
  -- The stores are even the same, so it is for tables only that both sides are looked at.
  simp only [Target.resolve, h.stores_eq]
  cases right.stores.find? address.meter with
  | some store =>
    cases address.index with
    | some index => exact .inr ⟨_, _, rfl, rfl, .indirect store index⟩
    | none => exact .inl ⟨_, rfl, rfl⟩
  | none =>
    rcases h.findTable_cases address.meter with
      ⟨failure, hfailure, hfailure'⟩ | ⟨table, table', htable, htable', hname⟩
    · rw [hfailure, hfailure']
      exact .inl ⟨failure, rfl, rfl⟩
    · rw [htable, htable']
      cases address.key with
      | none => exact .inl ⟨_, rfl, rfl⟩
      | some key =>
        simp only [ok_bind]
        cases parseHex "key" key with
        | error failure => exact .inl ⟨failure, rfl, rfl⟩
        | ok bytes => exact .inr ⟨_, _, rfl, rfl, .direct hname bytes address.slot⟩

/-- Similar pipelines have the same plan for a `task` on the meter of an `address`. -/
theorem Similar.resolve_plan_eq (h : left.Similar right) (address : MeterTarget) (task : Target.Task) :
    (do let target ← Target.resolve left address; return target.plan task : Except Failure Plan) =
      (do let target ← Target.resolve right address; return target.plan task) := by
  rcases h.resolve_cases address with
    ⟨failure, hfailure, hfailure'⟩ | ⟨target, target', htarget, htarget', halike⟩
  · rw [hfailure, hfailure']
  · rw [htarget, htarget', ok_bind, ok_bind, halike.plan_eq task]

/-- Similar pipelines go on alike after a table of a `name` was looked for. -/
theorem Similar.findTable_bind_eq (h : left.Similar right) (name : String) (next : Except Failure Plan) :
    (findTable left name >>= fun _ => next) = findTable right name >>= fun _ => next := by
  rcases h.findTable_cases name with ⟨failure, hfailure, hfailure'⟩ | ⟨table, table', htable, htable', -⟩
  · rw [hfailure, hfailure']
  · rw [htable, htable', ok_bind, ok_bind]

/-- Similar pipelines have the same plan for each `command`. -/
theorem Similar.plan_eq (h : left.Similar right) (clock : UInt64) (command : Command) :
    command.plan left clock = command.plan right clock := by
  cases command with
  | init force => rfl
  | update address profile => exact h.resolve_plan_eq address _
  | get address => exact h.resolve_plan_eq address _
  | reset address => exact h.resolve_plan_eq address _
  | execute address length time color => exact h.resolve_plan_eq address _
  | entryUpdate entry value => exact h.findTable_bind_eq entry.table _
  | entryGet entry => exact h.findTable_bind_eq entry.table _
  | entryDelete entry => exact h.findTable_bind_eq entry.table _
  | stats => rfl

end Pipeline

namespace Tool

/-- The command goes on from a session that exists and does not ask the clock: if it meters a packet, the time of
the packet is given. -/
def Command.isSelfContained : Command → Bool
  | .init _ => false
  | .execute _ _ time _ => time.isSome
  | _ => true

/-- The plan of a self-contained `command` does not depend on the clock. -/
theorem Command.plan_eq_of_isSelfContained {command : Command} (h : command.isSelfContained)
    (pipeline : Pipeline) (clock clock' : UInt64) :
    command.plan pipeline clock = command.plan pipeline clock' := by
  cases command with
  | execute address length time color =>
    obtain ⟨now, rfl⟩ := Option.isSome_iff_exists.mp h
    rfl
  | _ => rfl

namespace Session

variable {description : Description} {session other : Session} {command : Command}

/-- A `session` starts with the pipeline of its `description`. -/
theorem ofDescription_of_start {timer : Nat} (h : start description timer = .ok session) :
    Pipeline.ofDescription description = .ok session.pipeline := by
  obtain ⟨pipeline, hpipeline, hsession⟩ := bind_eq_ok_iff.mp h
  cases hsession
  cases hbuilt : Pipeline.ofDescription description with
  | error error => simp [hbuilt, Except.mapError] at hpipeline
  | ok built => simpa [hbuilt, Except.mapError] using hpipeline

/-- Every `command` keeps the pipeline of a `session` intact. -/
theorem intact_execute (h : session.pipeline.Intact description) (timer : Nat) (command : Command) :
    (session.execute timer command).2.pipeline.Intact description := by
  have hplan := Plan.intact_carryOut h (command.plan session.pipeline (session.clock.read timer))
  rwa [← execute_eq_carryOut h timer command] at hplan

/-- A self-contained `command` cannot tell sessions with similar pipelines apart. -/
theorem execute_similar (h : session.pipeline.Similar other.pipeline)
    (hsession : session.pipeline.Intact description) (hother : other.pipeline.Intact description)
    (hcommand : command.isSelfContained) (timer timer' : Nat) :
    (session.execute timer command).1 = (other.execute timer' command).1 ∧
      (session.execute timer command).2.pipeline.Similar (other.execute timer' command).2.pipeline := by
  have hplan := execute_eq_carryOut hsession timer command
  have hplan' := execute_eq_carryOut hother timer' command
  -- Neither the pipeline nor the clock tells the plans apart.
  rw [← h.plan_eq, Command.plan_eq_of_isSelfContained hcommand _ _ (session.clock.read timer)] at hplan'
  obtain ⟨hresult, hnext⟩ :=
    h.carryOut hsession hother (command.plan session.pipeline (session.clock.read timer))
  rw [← hplan, ← hplan'] at hresult hnext
  exact ⟨hresult, hnext⟩

/-- A `command` that fails, or that changes nothing by its kind, leaves the pipeline as it was. -/
theorem pipeline_execute_eq {timer : Nat}
    (h : command.isMutating = false ∨ ∃ failure, (session.execute timer command).1 = .error failure) :
    (session.execute timer command).2.pipeline = session.pipeline := by
  -- Most commands that change something do so by a pipeline that is committed only if there is one.
  have hcommit (outcome : Except Failure Pipeline)
      (herror : ∃ failure, (session.commit outcome).1 = .error failure) :
      (session.commit outcome).2.pipeline = session.pipeline := by
    cases outcome with
    | ok next => simp [commit] at herror
    | error failure => rfl
  cases command with
  | init force => rfl
  | update target profile => exact hcommit _ (h.resolve_left (by simp [Command.isMutating]))
  | get target => rfl
  | reset target => exact hcommit _ (h.resolve_left (by simp [Command.isMutating]))
  | execute target length time color =>
    obtain ⟨failure, herror⟩ := h.resolve_left (by simp [Command.isMutating])
    simp only [execute, meterPacket] at herror ⊢
    split at herror
    next => rfl
    next =>
      split at herror
      next => rfl
      next => cases herror
  | entryUpdate entry value => exact hcommit _ (h.resolve_left (by simp [Command.isMutating]))
  | entryGet entry => rfl
  | entryDelete entry => exact hcommit _ (h.resolve_left (by simp [Command.isMutating]))
  | stats => rfl

end Session

end Tool

end TrafficMeter
