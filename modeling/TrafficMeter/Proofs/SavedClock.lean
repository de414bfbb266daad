import TrafficMeter.Proofs.Atomicity
import TrafficMeter.Proofs.Schedule
import TrafficMeter.Proofs.Stamps

/-!
# The saved clock is never behind

Every invocation reads the packet clock anew: it goes on from the saved reading, it adds what has passed on
two other clocks, and it is advanced past the time of the packet that is metered. Only the reading is saved,
so what links one invocation to the next is that the saved reading never decreases and is not before any stamp
in the saved snapshot.

`Turn` lists what an invocation can do to the saved state, `Saves.exists_turn` says that there is nothing
else, and what holds of whole runs follows from it by induction over the commands
(`saved_clock_reaches_stamps`).

## Main definitions

* `Saves path state machine`: the state file holds `state`;
* `Turn`: what one invocation can do to the saved state;
* `Throughout`: something holds at every invocation of a run.

## Main results

* `Saves.exists_turn`: every invocation is a `Turn`;
* `Turn.clock_le`, `Turn.time_le`, `Turn.stampedBy`: what a `Turn` does to the saved clock;
* `saved_clock_reaches_stamps`: the saved clock after any run.
-/

namespace TrafficMeter

/-! ### The clock -/

theorem le_saturatingAdd (time : UInt64) (passed : Nat) : time ≤ saturatingAdd time.toNat passed := by
  have hlt := time.toNat_lt
  rw [UInt64.le_iff_toNat_le, saturatingAdd, UInt64.toNat_ofNat']
  simp only [UInt64.size]
  omega

namespace Clock

variable (clock : Clock) (timer : Nat)

theorem base_le_read : clock.base ≤ clock.read timer := by
  have hbase := UInt64.le_iff_toNat_le.mp (le_saturatingAdd clock.base (timer - clock.origin))
  rw [UInt64.le_iff_toNat_le, read, toNat_max]
  exact hbase.trans (le_max_left _ _)

theorem floor_le_read : clock.floor ≤ clock.read timer := by
  rw [UInt64.le_iff_toNat_le, read, toNat_max]
  exact le_max_right _ _

theorem le_floor_advanceTo (time : UInt64) : time ≤ (clock.advanceTo time).floor := by
  rw [UInt64.le_iff_toNat_le, advanceTo, toNat_max]
  exact le_max_right _ _

end Clock

namespace Tool

variable {limit : UInt64} {description : Description} {pipeline : Pipeline}

/-! ### What a command brings -/

/-- A command brings no stamp after `limit` in the value that it writes. -/
def Command.StampedBy (description : Description) (limit : UInt64) : Command → Prop
  | .entryUpdate entry value => ∀ described bytes written, description.table? entry.table = some described →
      Hex.parse value = .ok bytes → Entry.ofBytes described.layout bytes = .ok written → written.StampedBy limit
  | _ => True

theorem Command.StampedBy.mono {command : Command} (h : command.StampedBy description limit) {later : UInt64}
    (hlater : limit ≤ later) : command.StampedBy description later := by
  cases command with
  | entryUpdate entry value =>
    intro described bytes written hdescribed hbytes hwritten record hrecord
    exact (h described bytes written hdescribed hbytes hwritten record hrecord).mono hlater
  | _ => trivial

theorem parseHex_eq_ok_iff {what text : String} {bytes : Bytes} :
    parseHex what text = .ok bytes ↔ Hex.parse text = .ok bytes := by
  rw [parseHex]
  cases Hex.parse text <;> simp [Except.mapError]

theorem Target.stampedBy_operation (target : Target) {task : Task}
    (htask : ∀ length now color, task = .execute length now color → now ≤ limit) :
    (target.operation task).StoresStampedBy limit ∧
      (target.operation task).TablesStampedBy description limit := by
  cases target with
  | indirect store index =>
    refine ⟨?_, by cases task <;> trivial⟩
    cases task with
    | execute length now color =>
      rintro _ _ ⟨⟩
      exact htask length now color rfl
    | _ =>
      rintro _ _ ⟨⟩
      trivial
  | direct table key slot =>
    cases task with
    | execute length now color =>
      have hnow := htask length now color rfl
      cases slot <;> cases color <;> refine ⟨trivial, fun described _ => ?_⟩
      · -- With neither a slot nor a colour the packet hits the entry.
        exact hnow
      all_goals
        rintro _ _ _ ⟨⟩
        exact hnow
    | _ =>
      refine ⟨trivial, fun described _ => ?_⟩
      rintro _ _ _ ⟨⟩
      trivial

/-- What `command` comes to brings no time after `limit`, if its packet and its value do not. -/
theorem Command.stampedBy_plan {command : Command} {clock : UInt64} {plan : Plan}
    (h : command.plan pipeline clock = .ok plan)
    (htime : ∀ address length time color, command = .execute address length time color →
      time.getD clock ≤ limit) :
    plan.operation.StoresStampedBy limit ∧
      (command.StampedBy description limit → plan.operation.TablesStampedBy description limit) := by
  -- What is done with one meter brings a time only along with a packet.
  have hmeter {target : Target} {task : Target.Task} (hplan : plan = target.plan task)
      (htask : ∀ length now color, task = .execute length now color → now ≤ limit) :
      plan.operation.StoresStampedBy limit ∧ plan.operation.TablesStampedBy description limit :=
    hplan ▸ target.stampedBy_operation htask
  cases command with
  | init | stats =>
    cases h
    exact ⟨trivial, fun _ => trivial⟩
  | update | get | reset =>
    obtain ⟨target, -, hplan⟩ := bind_eq_ok_iff.mp h
    cases hplan
    obtain ⟨hstores, htables⟩ := hmeter rfl (by rintro _ _ _ ⟨⟩)
    exact ⟨hstores, fun _ => htables⟩
  | execute address length time color =>
    obtain ⟨target, -, hplan⟩ := bind_eq_ok_iff.mp h
    cases hplan
    obtain ⟨hstores, htables⟩ := hmeter rfl (by
      rintro _ _ _ ⟨⟩
      exact htime address length time color rfl)
    exact ⟨hstores, fun _ => htables⟩
  | entryUpdate entry value =>
    -- The value that is written is the only one that a command brings along.
    obtain ⟨_, -, hrest⟩ := bind_eq_ok_iff.mp h
    obtain ⟨key, -, hrest⟩ := bind_eq_ok_iff.mp hrest
    obtain ⟨bytes, hbytes, hplan⟩ := bind_eq_ok_iff.mp hrest
    cases hplan
    refine ⟨trivial, fun hvalue described hdescribed written hwritten => ?_⟩
    exact hvalue described bytes written hdescribed (parseHex_eq_ok_iff.mp hbytes) hwritten
  | entryGet entry | entryDelete entry =>
    obtain ⟨_, -, hrest⟩ := bind_eq_ok_iff.mp h
    obtain ⟨key, -, hplan⟩ := bind_eq_ok_iff.mp hrest
    cases hplan
    refine ⟨trivial, fun _ described _ => ?_⟩
    rintro _ _ _ ⟨⟩

namespace Session

variable {session changed : Session} {timer : Nat} {command : Command} {shown : String}

theorem clock_commit (session : Session) (outcome : Except Failure Pipeline) :
    (session.commit outcome).2.clock = session.clock := by
  cases outcome <;> rfl

/-- A metered packet is shown with the time to which the clock of `session` was advanced. -/
theorem clock_of_meterPacket {address : MeterTarget} {length : UInt32} {time : Option UInt64}
    {color : Option Color} (h : session.meterPacket timer address length time color = (.ok shown, changed)) :
    ∃ target colors, shown = describeColors target (time.getD (session.clock.read timer)) colors ∧
      changed.clock = session.clock.advanceTo (time.getD (session.clock.read timer)) := by
  cases htarget : Target.resolve session.pipeline address with
  | error failure =>
    simp only [meterPacket, htarget] at h
    cases h
  | ok target =>
    simp only [meterPacket, htarget] at h
    cases hmarked : target.execute session.pipeline length (time.getD (session.clock.read timer)) color with
    | error error =>
      rw [hmarked] at h
      cases h
    | ok marked =>
      rw [hmarked] at h
      obtain ⟨hshown, hchanged⟩ := Prod.mk.inj h
      exact ⟨target, marked.1, (Except.ok.inj hshown).symm, hchanged ▸ rfl⟩

/-- A `command` that succeeded left the clock running on its base, and past the time of the packet that it
showed. -/
theorem clock_of_execute (h : session.execute timer command = (.ok shown, changed)) :
    changed.clock.base = session.clock.base ∧
      ∀ address length time color, command = .execute address length time color →
        ∃ target colors, shown = describeColors target (time.getD (session.clock.read timer)) colors ∧
          time.getD (session.clock.read timer) ≤ changed.clock.floor := by
  have hchanged : (session.execute timer command).2.clock = changed.clock := by rw [h]
  cases command with
  | execute address length time color =>
    obtain ⟨target, colors, hshown, hclock⟩ := clock_of_meterPacket h
    rw [hclock]
    refine ⟨rfl, ?_⟩
    rintro _ _ _ _ ⟨⟩
    exact ⟨target, colors, hshown, Clock.le_floor_advanceTo _ _⟩
  | update | reset | entryUpdate | entryDelete =>
    rw [← hchanged, execute, clock_commit]
    exact ⟨rfl, by rintro _ _ _ _ ⟨⟩⟩
  | init | get | entryGet | stats =>
    rw [← hchanged]
    exact ⟨rfl, by rintro _ _ _ _ ⟨⟩⟩

/-- A `session` that is not stamped later than `limit` is not so after a `command` that brings no later time. -/
theorem stampedBy_of_execute (h : session.execute timer command = (.ok shown, changed))
    (hintact : session.pipeline.Intact description) (hlimit : changed.clock.floor ≤ limit)
    (hstores : session.pipeline.StoresStampedBy limit) :
    changed.pipeline.StoresStampedBy limit ∧
      (session.pipeline.TablesStampedBy limit → command.StampedBy description limit →
        changed.pipeline.TablesStampedBy limit) := by
  -- A command is one operation on the pipeline, or none if it came to nothing.
  have hcarryOut := congrArg Prod.snd (execute_eq_carryOut hintact timer command)
  simp only [h] at hcarryOut
  rw [hcarryOut]
  cases hplan : command.plan session.pipeline (session.clock.read timer) with
  | error failure => exact ⟨hstores, fun htables _ => htables⟩
  | ok plan =>
    -- The packet was metered at a time that the clock was advanced past.
    have htime : ∀ address length time color, command = .execute address length time color →
        time.getD (session.clock.read timer) ≤ limit := by
      intro address length time color hcommand
      obtain ⟨_, _, -, hfloor⟩ := (clock_of_execute h).2 address length time color hcommand
      exact UInt64.le_trans hfloor hlimit
    obtain ⟨hplanStores, hplanTables⟩ := Command.stampedBy_plan hplan htime
    exact ⟨hstores.perform hplanStores,
      fun htables hcommand => htables.perform hintact (hplanTables hcommand)⟩

end Session

/-! ### One invocation -/

variable {base : Invocation} {machine : Machine} {state : StateFile} {path : String} {command : Command}

/-- The file at `path` of `machine` holds `state`. -/
def Saves (path : String) (state : StateFile) (machine : Machine) : Prop :=
  ∃ text, machine.files.readFile path = .ok text ∧ StateFile.parse? text = some state

theorem Saves.load (h : Saves path state machine) :
    (StateFile.load path : StateM Machine _) machine = (.ok state, machine) := by
  obtain ⟨text, hread, hparse⟩ := h
  exact StateFile.load_of_readFile hread hparse

theorem Saves.eq (h : Saves path state machine) {other : StateFile} (hother : Saves path other machine) :
    state = other := by
  have hload := h.load.symm.trans hother.load
  cases hload
  rfl

/-- The file at `path` of `machine` holds no other description than `description`. -/
def Describes (path : String) (description : Description) (machine : Machine) : Prop :=
  ∀ other, (loadDescription path : StateM Machine _) machine = (.ok other, machine) → other = description

/-- What an invocation of `command` on `machine` can do to the `state` in the state file, with which result. -/
inductive Turn (base : Invocation) (machine : Machine) (state : StateFile) (command : Command) :
    Except Failure String → StateFile → Prop
  /-- It keeps the state, since it fails or only shows something. -/
  | keep {result : Except Failure String} (h : (∃ failure, result = .error failure) ∨ command.Shows) :
      Turn base machine state command result state
  /-- It starts again with a new session. -/
  | restart {shown : String} {description : Description} {session : Session} (timer : Nat) (wallTime : UInt64)
      (hcommand : command = .init true)
      (hdescription : (loadDescription base.pipeline : StateM Machine _) machine = (.ok description, machine))
      (hpipeline : Pipeline.ofDescription description = .ok session.pipeline) :
      Turn base machine state command (.ok shown) (session.toState timer wallTime)
  /-- It saves the session in which it executed its command. -/
  | work {shown : String} {description : Description} {built : Pipeline} {session changed : Session}
      {timer : Nat} (saved : Nat) (wallTime : UInt64)
      (hdescription : (loadDescription base.pipeline : StateM Machine _) machine = (.ok description, machine))
      (hbuilt : Pipeline.ofDescription description = .ok built)
      (hpipeline : session.pipeline = (built.restore state.snapshot).1)
      (hclock : state.clock ≤ session.clock.base)
      (hexecute : session.execute timer command = (.ok shown, changed)) :
      Turn base machine state command (.ok shown) (changed.toState saved wallTime)

/-- A session goes on from the snapshot of the saved `state`, with a clock that is not behind the saved one. -/
theorem Saves.of_openSession (h : Saves path state machine) {pipeline : String} {session : Session}
    {opened : Machine}
    (hopen : (openSession pipeline path : StateM Machine _) machine = (.ok session, opened)) :
    ∃ description built,
      (loadDescription pipeline : StateM Machine _) machine = (.ok description, machine) ∧
        Pipeline.ofDescription description = .ok built ∧
        session.pipeline = (built.restore state.snapshot).1 ∧ state.clock ≤ session.clock.base := by
  rcases hload : (loadDescription pipeline : StateM Machine _) machine with ⟨failure | description, loaded⟩
  · simp only [openSession, bind_apply, hload] at hopen
    cases hopen
  · obtain ⟨-, rfl⟩ := loadDescription_eq_ok_iff.mp hload
    cases hbuilt : Pipeline.ofDescription description with
    | error error =>
      simp only [openSession, bind_apply, hload, hbuilt] at hopen
      cases hopen
    | ok built =>
      rw [openSession_eq hload hbuilt h.load] at hopen
      have hresume := congrArg Prod.fst hopen
      simp only [Session.resume] at hresume
      split at hresume
      next restored hrestored =>
        cases hresume
        refine ⟨description, built, rfl, hbuilt, ?_, le_saturatingAdd _ _⟩
        rw [hrestored]
      next => cases hresume

/-- If the `text` found at `path` stands for a `state`, then the machine saves this state there. -/
theorem saves_of_found {text : String} (h : Machine.fileSystem.found machine path = some (.file text))
    (hparse : StateFile.parse? text = some state) : Saves path state machine :=
  ⟨text, FileTree.found_eq_file_iff.mp h, hparse⟩

theorem Saves.exists_found (h : Saves path state machine) :
    ∃ text, Machine.fileSystem.found machine path = some (.file text) ∧
      StateFile.parse? text = some state := by
  obtain ⟨text, hread, hparse⟩ := h
  exact ⟨text, FileTree.found_eq_file_iff.mpr hread, hparse⟩

theorem Saves.of_found_eq (h : Saves path state machine) {after : Machine}
    (hfound : Machine.fileSystem.found after path = Machine.fileSystem.found machine path) :
    Saves path state after := by
  obtain ⟨text, hfile, hparse⟩ := h.exists_found
  exact saves_of_found (hfound.trans hfile) hparse

/-- Every invocation of a `command` where a `state` is saved has one of these effects on it. -/
theorem Saves.exists_turn (h : Saves base.state state machine) (command : Command) :
    ∃ next, Turn base machine state command ((run { base with command } : StateM Machine _) machine).1 next ∧
      Saves base.state next ((run { base with command } : StateM Machine _) machine).2 := by
  generalize hresult : (run { base with command } : StateM Machine _) machine = result
  rcases run_cases Machine.fileSystem hresult with ⟨hfound, hkeep⟩ | ⟨-, hfailed, hfound⟩ |
    ⟨-, session, opened, shown, changed, hsession, hexecute, hshown, hsaved, -⟩
  · exact ⟨state, .keep hkeep, h.of_found_eq (congrFun hfound _)⟩
  · -- The new state was prepared beside the state file and did not take its place.
    exact ⟨state, .keep (.inl hfailed), h.of_found_eq hfound⟩
  · have hsaves := saves_of_found hsaved (StateFile.parse?_format _)
    refine ⟨_, ?_, hsaves⟩
    rw [hshown]
    cases command with
    | init force =>
      cases force with
      | false =>
        -- The state file is there, so without force it would have been refused.
        obtain ⟨text, hfile, -⟩ := h.exists_found
        have hexists := Machine.fileSystem.exists?_of_file machine base.state text hfile
        have hrefused : ∃ failure, (run { base with command := .init false } : StateM Machine _) machine =
            (.error failure, machine) := exists_run_init_eq_error rfl hexists
        obtain ⟨failure, hrefused⟩ := hrefused
        rw [← hresult, hrefused] at hshown
        cases hshown
      | true =>
        obtain ⟨description, hdescription, hpipeline⟩ := exists_of_createSession hsession
        cases hexecute
        exact .restart _ _ rfl hdescription hpipeline
    | _ =>
      obtain ⟨description, built, hdescription, hbuilt, hpipeline, hclock⟩ := h.of_openSession hsession
      exact .work _ _ hdescription hbuilt hpipeline hclock hexecute

namespace Turn

variable {result : Except Failure String} {next : StateFile}

/-- The saved clock never decreases but when a new session is started. -/
theorem clock_le (h : Turn base machine state command result next) :
    state.clock ≤ next.clock ∨ command = .init true ∧ ∃ shown, result = .ok shown := by
  cases h with
  | keep => exact .inl (UInt64.le_refl _)
  | @restart shown _ _ _ _ hcommand => exact .inr ⟨hcommand, shown, rfl⟩
  | @work _ _ _ session changed _ saved _ _ _ _ hclock hexecute =>
    left
    have hbase : state.clock ≤ changed.clock.base := (Session.clock_of_execute hexecute).1 ▸ hclock
    exact UInt64.le_trans hbase (changed.clock.base_le_read saved)

/-- A packet that was metered is shown with a time that the saved clock has reached. -/
theorem time_le {address : MeterTarget} {length : UInt32} {time : Option UInt64} {color : Option Color}
    {shown : String} (h : Turn base machine state (.execute address length time color) (.ok shown) next) :
    ∃ target now colors, shown = Session.describeColors target now colors ∧
      (∀ given, time = some given → now = given) ∧ now ≤ next.clock := by
  cases h with
  | keep hkeep =>
    rcases hkeep with ⟨_, hfailed⟩ | hshows
    · cases hfailed
    · cases hshows
  | restart _ _ hcommand => cases hcommand
  | @work _ _ _ session changed timer saved _ _ _ _ _ hexecute =>
    obtain ⟨target, colors, hshown, hfloor⟩ := (Session.clock_of_execute hexecute).2 _ _ _ _ rfl
    refine ⟨target, _, colors, hshown, ?_, UInt64.le_trans hfloor (changed.clock.floor_le_read saved)⟩
    rintro given rfl
    rfl

/-- The saved clock has reached the stamps of all stores, and those of all tables if it had reached those of the
saved tables and of the value that `command` writes. -/
theorem stampedBy (h : Turn base machine state command result next)
    (hstores : state.snapshot.StoresStampedBy state.clock) :
    next.snapshot.StoresStampedBy next.clock ∧
      ∀ description, Describes base.pipeline description machine → command.StampedBy description state.clock →
        state.snapshot.TablesStampedBy description state.clock →
        next.snapshot.TablesStampedBy description next.clock := by
  cases h with
  | keep => exact ⟨hstores, fun _ _ _ htables => htables⟩
  | restart _ _ _ hloaded hpipeline =>
    refine ⟨(Pipeline.storesStampedBy_of_ofDescription hpipeline).snapshot, ?_⟩
    intro description hdescribes _ _
    cases hdescribes _ hloaded
    exact (Pipeline.tablesStampedBy_of_ofDescription hpipeline).snapshot
      (Pipeline.intact_of_ofDescription hpipeline)
  | @work _ described built session changed timer saved _ hloaded hbuilt hpipeline hclock hexecute =>
    -- The reading that is saved is past the saved one of before and past the time of the packet.
    set limit := changed.clock.read saved
    have hbase : state.clock ≤ changed.clock.base := (Session.clock_of_execute hexecute).1 ▸ hclock
    have hlater : state.clock ≤ limit := UInt64.le_trans hbase (changed.clock.base_le_read saved)
    have hfloor : changed.clock.floor ≤ limit := changed.clock.floor_le_read saved
    -- So it is a limit for what the snapshot brought back, and for what the command did with it.
    have hnew : built.Intact described := Pipeline.intact_of_ofDescription hbuilt
    have hintact : session.pipeline.Intact described := hpipeline ▸ hnew.restore _
    have hrestored : session.pipeline.StoresStampedBy limit :=
      hpipeline ▸ ((Pipeline.storesStampedBy_of_ofDescription hbuilt).restore hstores).mono hlater
    obtain ⟨hchanged, htables⟩ := Session.stampedBy_of_execute hexecute hintact hfloor hrestored
    refine ⟨hchanged.snapshot, fun description hdescribes hcommand hstate => ?_⟩
    cases hdescribes _ hloaded
    have hrestoredTables : session.pipeline.TablesStampedBy limit :=
      hpipeline ▸ ((Pipeline.tablesStampedBy_of_ofDescription hbuilt).restore hnew hstate).mono hlater
    have hexecuted := Session.intact_execute hintact timer command
    rw [hexecute] at hexecuted
    exact (htables hrestoredTables (hcommand.mono hlater)).snapshot hexecuted

end Turn

/-! ### Many invocations -/

/-- `machine` after one invocation for each of `commands`. -/
def runAll (base : Invocation) (machine : Machine) (commands : List Command) : Machine :=
  commands.foldl (fun machine command => ((run { base with command } : StateM Machine _) machine).2) machine

/-- `P` holds of every command and the machine on which its invocation is run. -/
def Throughout (base : Invocation) (P : Machine → Command → Prop) : Machine → List Command → Prop
  | _, [] => True
  | machine, command :: rest =>
    P machine command ∧ Throughout base P ((run { base with command } : StateM Machine _) machine).2 rest

/-- The invocation of `command` starts again with a new session. -/
def Restarts (base : Invocation) (machine : Machine) (command : Command) : Prop :=
  command = .init true ∧ ∃ shown, ((run { base with command } : StateM Machine _) machine).1 = .ok shown

theorem runAll_append (base : Invocation) (machine : Machine) (before after : List Command) :
    runAll base machine (before ++ after) = runAll base (runAll base machine before) after :=
  List.foldl_append ..

variable {last : StateFile} {commands : List Command}

theorem Saves.exists_runAll (h : Saves base.state state machine)
    (hstores : state.snapshot.StoresStampedBy state.clock) (commands : List Command) :
    ∃ last, Saves base.state last (runAll base machine commands) ∧
      last.snapshot.StoresStampedBy last.clock := by
  induction commands generalizing machine state with
  | nil => exact ⟨state, h, hstores⟩
  | cons command rest ih =>
    obtain ⟨next, hturn, hnext⟩ := h.exists_turn command
    exact ih hnext (hturn.stampedBy hstores).1

theorem Saves.clock_le_runAll (h : Saves base.state state machine)
    (hlast : Saves base.state last (runAll base machine commands))
    (hrestarts : Throughout base (fun machine command => ¬ Restarts base machine command) machine commands) :
    state.clock ≤ last.clock := by
  induction commands generalizing machine state with
  | nil => exact h.eq hlast ▸ UInt64.le_refl _
  | cons command rest ih =>
    obtain ⟨next, hturn, hnext⟩ := h.exists_turn command
    have hclock : state.clock ≤ next.clock := hturn.clock_le.resolve_right hrestarts.1
    exact UInt64.le_trans hclock (ih hnext hlast hrestarts.2)

theorem Saves.tablesStampedBy_runAll (h : Saves base.state state machine)
    (hstores : state.snapshot.StoresStampedBy state.clock)
    (htables : state.snapshot.TablesStampedBy description state.clock)
    (hdescribes : Throughout base (fun machine _ => Describes base.pipeline description machine) machine
      commands)
    (hvalues : Throughout base (fun machine command => ∀ saved, Saves base.state saved machine →
      command.StampedBy description saved.clock) machine commands)
    (hlast : Saves base.state last (runAll base machine commands)) :
    last.snapshot.TablesStampedBy description last.clock := by
  induction commands generalizing machine state with
  | nil => exact h.eq hlast ▸ htables
  | cons command rest ih =>
    obtain ⟨next, hturn, hnext⟩ := h.exists_turn command
    obtain ⟨hnextStores, hnextTables⟩ := hturn.stampedBy hstores
    have hstamped := hnextTables description hdescribes.1 (hvalues.1 state h) htables
    exact ih hnext hnextStores hstamped hdescribes.2 hvalues.2 hlast

/-- A successful `init` saves a state without stamps. -/
theorem exists_saves_of_init {force : Bool} {ready : Machine} {output : String}
    (h : (run { base with command := .init force } : StateM Machine _) machine = (.ok output, ready)) :
    ∃ state, Saves base.state state ready ∧ state.snapshot.StoresStampedBy state.clock ∧
      ∀ description, Describes base.pipeline description machine →
        state.snapshot.TablesStampedBy description state.clock := by
  rcases run_cases Machine.fileSystem h with ⟨-, ⟨failure, hfailed⟩ | hshows⟩ | ⟨-, ⟨failure, hfailed⟩, -⟩ |
    ⟨-, session, opened, shown, changed, hsession, hexecute, -, hsaved, -⟩
  · cases hfailed
  · cases hshows
  · cases hfailed
  · obtain ⟨described, hloaded, hpipeline⟩ := exists_of_createSession hsession
    cases hexecute
    refine ⟨_, saves_of_found hsaved (StateFile.parse?_format _),
      (Pipeline.storesStampedBy_of_ofDescription hpipeline).snapshot, ?_⟩
    intro description hdescribes
    cases hdescribes _ hloaded
    exact (Pipeline.tablesStampedBy_of_ofDescription hpipeline).snapshot
      (Pipeline.intact_of_ofDescription hpipeline)

theorem SetUp.describes {text : String} (h : SetUp base text machine)
    (hparse : parseDescription base.pipeline text = .ok description) :
    Describes base.pipeline description machine := by
  intro other hother
  exact Except.ok.inj (congrArg Prod.fst (hother.symm.trans (h.load hparse)))

/-- On a machine that is set up, the `description` is the same throughout. -/
theorem SetUp.throughout_describes {text : String} (h : SetUp base text machine)
    (hparse : parseDescription base.pipeline text = .ok description) (commands : List Command) :
    Throughout base (fun machine _ => Describes base.pipeline description machine) machine commands := by
  induction commands generalizing machine with
  | nil => trivial
  | cons command rest ih => exact ⟨h.describes hparse, ih (h.run command)⟩

/-- After a successful initialization and any commands, each run by an invocation of its own, with any
readings of the clocks and whether or not they succeed, there is a saved state of which the following holds:

- the next invocation does not take the saved clock back, unless it starts again with a new session;
- the saved clock has reached the time of every packet that was metered since the last start, and this time is
  the given one if one was given;
- the saved clock has reached the stamps of all meters of stores;
- it has reached the stamps of all meters of table entries, as they are read off the saved values, if the
  description file was not changed and no command wrote a value with stamps that the saved clock had not
  reached. -/
theorem saved_clock_reaches_stamps (base : Invocation) (force : Bool) (machine ready : Machine)
    (output : String)
    (hinit : (run { base with command := .init force } : StateM Machine _) machine = (.ok output, ready))
    (commands : List Command) :
    ∃ state, Saves base.state state (runAll base ready commands) ∧
      (∀ command, ∃ next, Saves base.state next (runAll base ready (commands ++ [command])) ∧
        (state.clock ≤ next.clock ∨ Restarts base (runAll base ready commands) command)) ∧
      (∀ before address length time color after shown,
        commands = before ++ .execute address length time color :: after →
        ((run { base with command := .execute address length time color } : StateM Machine _)
          (runAll base ready before)).1 = .ok shown →
        Throughout base (fun machine command => ¬ Restarts base machine command)
          (runAll base ready (before ++ [.execute address length time color])) after →
        ∃ target now colors, shown = Session.describeColors target now colors ∧
          (∀ given, time = some given → now = given) ∧ now ≤ state.clock) ∧
      state.snapshot.StoresStampedBy state.clock ∧
      ∀ description, Describes base.pipeline description machine →
        Throughout base (fun machine _ => Describes base.pipeline description machine) ready commands →
        Throughout base (fun machine command => ∀ saved, Saves base.state saved machine →
          command.StampedBy description saved.clock) ready commands →
        state.snapshot.TablesStampedBy description state.clock := by
  obtain ⟨first, hfirst, hfirstStores, hfirstTables⟩ := exists_saves_of_init hinit
  obtain ⟨state, hstate, hstores⟩ := hfirst.exists_runAll hfirstStores commands
  refine ⟨state, hstate, ?_, ?_, hstores, ?_⟩
  · intro command
    obtain ⟨next, hturn, hnext⟩ := hstate.exists_turn command
    refine ⟨next, ?_, hturn.clock_le⟩
    rw [runAll_append]
    exact hnext
  · intro before address length time color after shown hcommands hshown hrestarts
    -- The execution leaves a state whose clock is late enough, and from there on the clock does not go back.
    obtain ⟨earlier, hearlier, -⟩ := hfirst.exists_runAll hfirstStores before
    obtain ⟨next, hturn, hnext⟩ := hearlier.exists_turn (.execute address length time color)
    rw [hshown] at hturn
    obtain ⟨target, now, colors, htext, hgiven, hnow⟩ := hturn.time_le
    rw [runAll_append] at hrestarts
    rw [hcommands, runAll_append] at hstate
    exact ⟨target, now, colors, htext, hgiven, UInt64.le_trans hnow (hnext.clock_le_runAll hstate hrestarts)⟩
  · intro description hdescribed hdescribes hvalues
    have hstamped := hfirstTables description hdescribed
    exact hfirst.tablesStampedBy_runAll hfirstStores hstamped hdescribes hvalues hstate

/-- A packet is metered with a time in the far future, an entry is written, and another packet is metered with
an early time, all while the wall clock is set back. -/
theorem saved_clock_reaches_stamps_far_future :
    let text := "\x7b\"meters\": [\x7b\"name\": \"m\", \"capacity\": 2\x7d], \"tables\": [" ++
      "\x7b\"name\": \"t\", \"action_data_len\": 2, \"counter\": \"PACKETS\", \"meters\": 1\x7d]\x7d"
    let machine : Machine :=
      { files := { nodes := [(["pipeline.json"], .file text)] }, timerAt := id
        wallTimeAt := fun asked => UInt64.ofNat (100 - asked) }
    let base : Invocation := { pipeline := "pipeline.json", state := "meters.json", command := .stats }
    let future : Command := .execute { meter := "m", index := some 1 } 1500 (some 1000000000000000000) none
    let others : List Command :=
      [.entryUpdate { table := "t", key := "07" } (Hex.format (Bytes.zeros 104)),
        .execute { meter := "m", index := some 1 } 1500 (some 3) none, .stats]
    ∃ output ready state,
      (run { base with command := .init true } : StateM Machine _) machine = (.ok output, ready) ∧
      Saves base.state state (runAll base ready (future :: others)) ∧
      1000000000000000000 ≤ state.clock ∧ state.snapshot.StoresStampedBy state.clock ∧
      state.snapshot.TablesStampedBy .storeAndTable state.clock := by
  intro text machine base future others
  have hsetUp : SetUp base text machine :=
    setUp_of_isName rfl (by decide +kernel) (by decide +kernel) (by decide +kernel) (by decide)
      (by decide +kernel) rfl (by decide +kernel) (by decide +kernel)
  have hparse : parseDescription base.pipeline text = .ok .storeAndTable := by decide +kernel
  have hdescribes := hsetUp.describes hparse
  obtain ⟨output, ready, hinit, hready⟩ := hsetUp.exists_run_init hparse rfl
  have hkeeps := hready.throughout_describes hparse (future :: others)
  -- Only the entry update writes a raw value, and the meter in it has no stamps.
  have hvalues : Throughout base (fun machine command => ∀ saved, Saves base.state saved machine →
      command.StampedBy .storeAndTable saved.clock) ready (future :: others) := by
    refine ⟨fun _ _ => trivial, fun saved _ => ?_, fun _ _ => trivial, fun _ _ => trivial, trivial⟩
    rintro _ bytes written ⟨⟩ hbytes hwritten
    rw [Hex.parse_format] at hbytes
    cases hbytes
    have hzeros : Entry.ofBytes ⟨2, some .packets, 1⟩ (Bytes.zeros 104) =
        .ok { action := ⟨0, [0, 0]⟩, counter := some {}, meters := [{}] } := by decide +kernel
    intro record hrecord
    rw [← Except.ok.inj (hzeros.symm.trans hwritten)] at hrecord
    rw [List.mem_singleton.mp hrecord]
    exact Record.stampedBy_default
  obtain ⟨state, hsaves, -, hpackets, hstores, htables⟩ :=
    saved_clock_reaches_stamps base true machine ready output hinit (future :: others)
  -- The state that was initialized is that of the described pipeline, where the execution is evaluated.
  have hfuture : ∃ shown, ((run { base with command := future } : StateM Machine _) ready).1 = .ok shown := by
    obtain ⟨session, started, hcreate, hkept⟩ := keeps_of_init hinit
    obtain ⟨description, hloaded, hbuilt⟩ := exists_of_createSession hcreate
    cases hdescribes description hloaded
    have hrun : ((run { base with command := future } : StateM Machine _) ready).1 =
        (session.execute 0 future).1 :=
      (hkept.run (Pipeline.intact_of_ofDescription hbuilt) (hready.load hparse) hbuilt rfl 0).1
    have hpipeline : Pipeline.ofDescription .storeAndTable = .ok _ := rfl
    obtain ⟨pipeline, clock⟩ := session
    cases hpipeline.symm.trans hbuilt
    exact ⟨_, hrun⟩
  obtain ⟨shown, hshown⟩ := hfuture
  have hrestarts : Throughout base (fun machine command => ¬ Restarts base machine command)
      (runAll base ready [future]) others := by
    refine ⟨?_, ?_, ?_, trivial⟩ <;> exact fun hrestarts => by cases hrestarts.1
  obtain ⟨_, now, _, -, hgiven, hnow⟩ := hpackets [] _ _ _ _ others shown rfl hshown hrestarts
  rw [hgiven _ rfl] at hnow
  exact ⟨output, ready, state, hinit, hsaves, hnow, hstores, htables _ hdescribes hkeeps hvalues⟩

end Tool

end TrafficMeter
