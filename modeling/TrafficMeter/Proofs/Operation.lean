import TrafficMeter.Pipeline.Snapshot

/-!
# Operations and their runs

Everything that can be asked of a store, a table or a pipeline, as data. An operation stands for a routine
(`Store.Operation.routine`, `Table.Operation.routine`, `Pipeline.Operation.routine`), and to perform it is to run
this routine in place: the state that was reached is kept even if the operation fails. A run performs operations
one after the other, whether or not they succeed.

Entry objects can be held while their key is deleted, so the operations of a table include marks and counts on
any object that was ever inserted. All other operations name an index or a key.
-/

namespace TrafficMeter

/-- What an operation answers when it succeeds. -/
inductive Answer where
  /-- Nothing but that it was done. -/
  | done
  /-- There is no such entry or meter, which is no error where one is merely looked for. -/
  | absent
  /-- The colour of a packet. -/
  | color (color : Color)
  /-- What a packet that hits an entry is told. -/
  | hit (hit : Hit)
  /-- One meter. -/
  | record (record : Record)
  /-- All meters of a store. -/
  | records (records : List Record)
  /-- A raw record or a raw value. -/
  | bytes (bytes : Bytes)
  /-- An entry with the layout of its values. -/
  | entry (layout : Layout) (entry : Entry)
  /-- All keys of a table with the raw values of their entries. -/
  | entries (entries : List (Bytes × Bytes))
  /-- A tally. -/
  | tally (tally : Tally)
  /-- A snapshot. -/
  | snapshot (snapshot : Snapshot)
deriving DecidableEq

/-- Performs operations one after the other by `perform`, and collects what they answer. -/
def runWith {σ ο : Type} (perform : σ → ο → Except Error Answer × σ) :
    σ → List ο → List (Except Error Answer) × σ
  | state, [] => ([], state)
  | state, operation :: rest =>
    let (answer, next) := perform state operation
    let (answers, last) := runWith perform next rest
    (answer :: answers, last)

/-- What `perform` preserves at every operation is preserved by every run. -/
theorem runWith_preserves {σ ο : Type} {perform : σ → ο → Except Error Answer × σ} {P : σ → Prop}
    (hstep : ∀ state operation, P state → P (perform state operation).2) {state : σ} (h : P state)
    (operations : List ο) : P (runWith perform state operations).2 := by
  induction operations generalizing state with
  | nil => exact h
  | cons operation rest ih => exact ih (hstep state operation h)

namespace Store

/-- What can be asked of a store. -/
inductive Operation where
  /-- Meter a packet that arrives without a colour. -/
  | execute (index length : UInt32) (now : UInt64)
  /-- Meter a packet that arrives with a colour. -/
  | executeFrom (index : UInt32) (incoming : Color) (length : UInt32) (now : UInt64)
  /-- Mark a packet of a size in tokens on a meter itself. -/
  | markFrom (index : UInt32) (incoming : Color) (size now : UInt64)
  /-- Give a meter a new profile. -/
  | configure (index : UInt32) (profile : Profile)
  /-- Read a meter. -/
  | read (index : UInt32)
  /-- Make a meter unconfigured. -/
  | reset (index : UInt32)
  /-- Read a raw record. -/
  | readValue (key : Bytes)
  /-- Write a raw record. -/
  | writeValue (key value : Bytes)
  /-- Read all meters. -/
  | records
  /-- Replace all meters. -/
  | restore (records : List Record)
  /-- Read the tally. -/
  | tally
  /-- Set the tally. -/
  | loadTally (tally : Tally)
deriving DecidableEq

/-- What is done when `operation` is asked of a store. -/
def Operation.routine (operation : Operation) : Routine Store Answer :=
  match operation with
  | .execute index length now => .color <$> Routine.executeFrom index .green length now
  | .executeFrom index incoming length now => .color <$> Routine.executeFrom index incoming length now
  | .markFrom index incoming size now => .color <$> Routine.markFrom index incoming size now
  | .configure index profile => (fun _ => .done) <$> Routine.configure index profile
  | .read index => do return .record (← (← get).read index)
  | .reset index => (fun _ => .done) <$> Routine.reset index
  | .readValue key => do return .bytes (← (← get).readValue key)
  | .writeValue key value => (fun _ => .done) <$> Routine.writeValue key value
  | .records => do return .records (← get).records
  | .restore given => (fun _ => .done) <$> Routine.restore given
  | .tally => do return .tally (← get).tally
  | .loadTally given => (fun _ => .done) <$> modify (·.loadTally given)

/-- Performs `operation` on `store` in place. -/
def perform (store : Store) (operation : Operation) : Except Error Answer × Store :=
  operation.routine.perform store

/-- Performs `operations` on `store` one after the other. -/
def run (store : Store) (operations : List Operation) : List (Except Error Answer) × Store :=
  runWith perform store operations

end Store

namespace Table

/-- What can be asked of a table. -/
inductive Operation where
  /-- Write a value under a key. -/
  | update (key value : Bytes)
  /-- Remove a key. -/
  | delete (key : Bytes)
  /-- Look at the entry under a key. -/
  | lookup (key : Bytes)
  /-- Read the raw value under a key. -/
  | entryValue (key : Bytes)
  /-- Read all keys and raw values. -/
  | dump
  /-- Meter a packet that arrives without a colour on one meter of an entry. -/
  | execute (key : Bytes) (slot : Nat) (length : UInt32) (now : UInt64)
  /-- Meter a packet that arrives with a colour on one meter of an entry. -/
  | executeFrom (key : Bytes) (slot : Nat) (incoming : Color) (length : UInt32) (now : UInt64)
  /-- Let a packet hit an entry. -/
  | hit (key : Bytes) (length : UInt32) (now : UInt64)
  /-- Give a meter of an entry a new profile. -/
  | configure (key : Bytes) (slot : Nat) (profile : Profile)
  /-- Read a meter of an entry. -/
  | read (key : Bytes) (slot : Nat)
  /-- Make a meter of an entry unconfigured. -/
  | reset (key : Bytes) (slot : Nat)
  /-- Read the tally. -/
  | tally
  /-- Set the tally. -/
  | loadTally (tally : Tally)
  /-- Count a packet on an object that is held. -/
  | countHeld (id : EntryId) (length : UInt32)
  /-- Mark a packet of a size in tokens on a meter of an object that is held. -/
  | markHeld (id : EntryId) (slot : Nat) (incoming : Color) (size now : UInt64)
deriving DecidableEq

/-- What is done when `operation` is asked of a table. -/
def Operation.routine (operation : Operation) : Routine Table Answer :=
  match operation with
  | .update key value => (fun _ => .done) <$> Routine.update key value
  | .delete key => (fun _ => .done) <$> Routine.delete key
  | .lookup key => do
    let table ← get
    match table.find? key with
    | some (_, entry) => return .entry table.layout entry
    | none => return .absent
  | .entryValue key => do return .bytes (← (← get).entryValue key)
  | .dump => do return .entries (← get).dump
  | .execute key slot length now => .color <$> Routine.executeFrom key slot .green length now
  | .executeFrom key slot incoming length now => .color <$> Routine.executeFrom key slot incoming length now
  | .hit key length now => .hit <$> Routine.hit key length now
  | .configure key slot profile => (fun _ => .done) <$> Routine.configure key slot profile
  | .read key slot => do return .record (← (← get).read key slot)
  | .reset key slot => (fun _ => .done) <$> Routine.reset key slot
  | .tally => do return .tally (← get).tally
  | .loadTally given => (fun _ => .done) <$> modify (·.loadTally given)
  | .countHeld id length => (fun _ => .done) <$> modify (·.countObject id length)
  | .markHeld id slot incoming size now => do
    match (← get).markObjectFrom? id slot incoming size now with
    | some (color, marked) =>
      set marked
      return .color color
    | none => return .absent

/-- Performs `operation` on `table` in place. -/
def perform (table : Table) (operation : Operation) : Except Error Answer × Table :=
  operation.routine.perform table

/-- Performs `operations` on `table` one after the other. -/
def run (table : Table) (operations : List Operation) : List (Except Error Answer) × Table :=
  runWith perform table operations

/-- The operation names what it works on by its key, and not by an object that is held. -/
def Operation.isKeyed : Operation → Bool
  | .countHeld .. => false
  | .markHeld .. => false
  | _ => true

end Table

namespace Pipeline

/-- What can be asked of a pipeline. -/
inductive Operation where
  /-- Ask something of the store of a name. -/
  | store (name : String) (operation : Store.Operation)
  /-- Ask something of the table of a name. -/
  | table (name : String) (operation : Table.Operation)
  /-- Take a snapshot. -/
  | snapshot
  /-- Put a snapshot back. -/
  | restore (snapshot : Snapshot)
deriving DecidableEq

/-- What is done when `operation` is asked of a pipeline. -/
def Operation.routine (operation : Operation) : Routine Pipeline Answer :=
  match operation with
  | .store name operation => onStore name operation.routine
  | .table name operation => onTable name operation.routine
  | .snapshot => do return .snapshot (← get).snapshot
  | .restore given => (fun _ => .done) <$> Routine.restore given

/-- Performs `operation` on `pipeline` in place. -/
def perform (pipeline : Pipeline) (operation : Operation) : Except Error Answer × Pipeline :=
  operation.routine.perform pipeline

/-- Performs `operations` on `pipeline` one after the other. -/
def run (pipeline : Pipeline) (operations : List Operation) : List (Except Error Answer) × Pipeline :=
  runWith perform pipeline operations

/-- The operation names all that it works on, and none of it is an object that is held. -/
def Operation.isNamed : Operation → Bool
  | .table _ operation => operation.isKeyed
  | _ => true

end Pipeline

end TrafficMeter
