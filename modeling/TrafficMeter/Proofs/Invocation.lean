import TrafficMeter.Proofs.Codec
import TrafficMeter.Proofs.FileSystem
import TrafficMeter.Proofs.Plan
import TrafficMeter.Proofs.Restore

/-!
# One invocation per command

Commands can be executed one after the other in one session, or each by an invocation of its own, which opens
a session from the files, executes the command and saves the session. Both give the same results, and the
state file always has the snapshot of the long session.

The invariant is `Keeps`: the state file has the snapshot of the session and can be replaced. An invocation
then opens a session whose pipeline is similar to that of the long session (`Keeps.exists_openSession`), so
the command gives the same in both and leaves similar pipelines, which have the same snapshot (`Keeps.run`).

## Main definitions

* `Session.executeAll`, `runEach`: commands in one session, and by one invocation each;
* `Keeps path snapshot machine`: the invariant;
* `SetUp base text machine`: what a machine needs for its invocations to succeed.

## Main results

* `Keeps.run`, `Keeps.runEach`: one invocation and many of them go in step with a session;
* `invocations_refine_session`: so they do from a successful initialization on.
-/

namespace TrafficMeter.Tool

variable {description : Description} {machine after : Machine} {path text : String} {state : StateFile}
  {snapshot : Snapshot}

/-! ## Programs on a machine -/

/-- `machine` after a clock was asked. -/
def Machine.tick (machine : Machine) : Machine :=
  { machine with asked := machine.asked + 1 }

theorem Machine.timer_apply (machine : Machine) :
    (Host.timer : StateM Machine _) machine = (machine.timerAt machine.asked, machine.tick) := rfl

/-- A `description` is loaded exactly if it is that of the text in the file at `path`. -/
theorem loadDescription_eq_ok_iff :
    (loadDescription path : StateM Machine _) machine = (.ok description, after) ↔
      (∃ text, machine.files.readFile path = .ok text ∧ parseDescription path text = .ok description) ∧
        after = machine := by
  have hread : (Host.readFile path : StateM Machine _) machine = (machine.files.readFile path, machine) := rfl
  rw [loadDescription, bind_apply, hread]
  cases machine.files.readFile path with
  | error error => exact iff_of_false (fun h => by cases h) (by simp)
  | ok text =>
    constructor
    · intro h
      exact ⟨⟨text, rfl, congrArg Prod.fst h⟩, (congrArg Prod.snd h).symm⟩
    · rintro ⟨⟨_, htext, hdescription⟩, rfl⟩
      cases htext
      exact congrArg (·, after) hdescription

/-- A `state` is loaded from the `text` of the file at `path`. -/
theorem StateFile.load_of_readFile (h : machine.files.readFile path = .ok text)
    (hparse : StateFile.parse? text = some state) :
    (StateFile.load path : StateM Machine _) machine = (.ok state, machine) := by
  have hread : (Host.readFile path : StateM Machine _) machine = (.ok text, machine) :=
    congrArg (·, machine) h
  rw [StateFile.load, bind_apply, hread]
  simp only [hparse]
  rfl

/-- A `state` is saved exactly if the file at `path` can be replaced. -/
theorem StateFile.save_eq_ok_iff :
    (StateFile.save path state : StateM Machine _) machine = (.ok (), after) ↔
      ∃ files, machine.files.replaceFile path state.format = .ok files ∧ after = { machine with files } := by
  have hwrite : (Host.writeFile (Path.temporary path) state.format : StateM Machine _) machine =
    machine.change (machine.files.writeFile (Path.temporary path) state.format) := rfl
  rw [StateFile.save, bind_apply, hwrite, FileTree.replaceFile]
  -- A state is prepared beside its file and then moved there. It is saved exactly if both succeed.
  cases machine.files.writeFile (Path.temporary path) state.format with
  | error error => exact iff_of_false (fun h => by cases h) (by simp)
  | ok prepared =>
    have hrename (machine : Machine) :
        (Host.renameFile (Path.temporary path) path : StateM Machine _) machine =
          machine.change (machine.files.renameFile (Path.temporary path) path) := rfl
    simp only [Machine.change, ok_bind, bind_apply, hrename]
    cases prepared.renameFile (Path.temporary path) path with
    | error error => exact iff_of_false (fun h => by cases h) (by simp)
    | ok files =>
      constructor
      · intro h
        exact ⟨files, rfl, (congrArg Prod.snd h).symm⟩
      · rintro ⟨_, hfiles, rfl⟩
        cases hfiles
        rfl

/-- A session is opened from a `description` and a `state` that can both be loaded. -/
theorem openSession_eq {pipeline : String} {built : Pipeline}
    (hdescription : (loadDescription pipeline : StateM Machine _) machine = (.ok description, machine))
    (hbuilt : Pipeline.ofDescription description = .ok built)
    (hstate : (StateFile.load path : StateM Machine _) machine = (.ok state, machine)) :
    (openSession pipeline path : StateM Machine _) machine =
      (Session.resume path built state (machine.wallTimeAt machine.asked)
        (machine.tick.timerAt machine.tick.asked), machine.tick.tick) := by
  simp only [openSession, bind_apply, hdescription, hbuilt, hstate]
  rfl

/-- A session is created with the pipeline of a description that can be loaded. -/
theorem exists_of_createSession {pipeline : String} {force : Bool} {session : Session}
    (h : (createSession pipeline path force : StateM Machine _) machine = (.ok session, after)) :
    ∃ description,
      (loadDescription pipeline : StateM Machine _) machine = (.ok description, machine) ∧
        Pipeline.ofDescription description = .ok session.pipeline := by
  rw [createSession, bind_apply] at h
  split at h
  next => cases h
  next =>
    -- Neither the look at the state file nor the loading changes the machine.
    have hexists : ((Host.exists? path : StateM Machine _) machine).2 = machine := rfl
    rw [bind_apply, hexists] at h
    rcases hload : (loadDescription pipeline : StateM Machine _) machine with ⟨failure | description, loaded⟩
    · rw [hload] at h
      cases h
    · obtain ⟨-, rfl⟩ := loadDescription_eq_ok_iff.mp hload
      rw [hload] at h
      exact ⟨description, rfl, Session.ofDescription_of_start (congrArg Prod.fst h)⟩

/-- A `session` can be saved if the file at `path` can be replaced. -/
theorem exists_saveSession {files : FileTree} (hfiles : machine.files.replaceFile path text = .ok files)
    (session : Session) :
    ∃ after, (saveSession path session : StateM Machine _) machine = (.ok (), after) := by
  obtain ⟨next, hnext⟩ := (FileTree.SameBut.refl (fun _ => False) _).exists_replaceFile hfiles
    (session.toState (machine.timerAt machine.asked) (machine.tick.wallTimeAt machine.tick.asked)).format
  exact ⟨_, (saveSession_eq path session machine).trans (StateFile.save_eq_ok_iff.mpr ⟨next, hnext, rfl⟩)⟩

/-! ## Two ways to execute commands -/

/-- Executes commands one after the other in one session, each at its reading of the timer. -/
def Session.executeAll : Session → List (Nat × Command) → List (Except Failure String × Session)
  | _, [] => []
  | session, (timer, command) :: rest =>
    let executed := session.execute timer command
    executed :: executed.2.executeAll rest

/-- Executes commands one after the other, each by an invocation of its own that is otherwise like `base`. -/
def runEach (base : Invocation) : Machine → List Command → List (Except Failure String × Machine)
  | _, [] => []
  | machine, command :: rest =>
    let invocation := (run { base with command } : StateM Machine _) machine
    invocation :: runEach base invocation.2 rest

/-- The `invocation` of a command gave the same result as the command `executed` in a session, and the state file
at `path` has the snapshot of the session afterwards. -/
structure InStep (path : String) (invocation : Except Failure String × Machine)
    (executed : Except Failure String × Session) : Prop where
  /-- The results are the same. -/
  result_eq : invocation.1 = executed.1
  /-- The snapshot in the state file is that of the session. -/
  saved : ∃ state, (StateFile.load path : StateM Machine _) invocation.2 = (.ok state, invocation.2) ∧
    state.snapshot = executed.2.pipeline.snapshot

/-! ## The invariant -/

/-- `machine` keeps `snapshot` in the state file at `path`, and this file can be replaced. -/
structure Keeps (path : String) (snapshot : Snapshot) (machine : Machine) : Prop where
  /-- The state file has the snapshot. -/
  saved : ∃ text state, machine.files.readFile path = .ok text ∧ StateFile.parse? text = some state ∧
    state.snapshot = snapshot
  /-- The state file can be replaced. -/
  replaceable : ∃ text files, machine.files.replaceFile path text = .ok files

/-- Only the files of a machine matter for what is kept. -/
theorem Keeps.of_files_eq (h : Keeps path snapshot machine) (hfiles : after.files = machine.files) :
    Keeps path snapshot after :=
  ⟨hfiles ▸ h.saved, hfiles ▸ h.replaceable⟩

/-- A state file in which `snapshot` is kept can be loaded. -/
theorem Keeps.exists_load (h : Keeps path snapshot machine) :
    ∃ state, (StateFile.load path : StateM Machine _) machine = (.ok state, machine) ∧
      state.snapshot = snapshot := by
  obtain ⟨text, state, hread, hparse, hsnapshot⟩ := h.saved
  exact ⟨state, StateFile.load_of_readFile hread hparse, hsnapshot⟩

/-- The snapshot of a `session` that was saved is kept. -/
theorem keeps_of_saveSession {session : Session}
    (h : (saveSession path session : StateM Machine _) machine = (.ok (), after)) :
    Keeps path session.pipeline.snapshot after := by
  rw [saveSession_eq, StateFile.save_eq_ok_iff] at h
  obtain ⟨files, hfiles, rfl⟩ := h
  refine ⟨⟨_, _, FileTree.readFile_replaceFile hfiles, StateFile.parse?_format _, rfl⟩, ?_⟩
  -- Replacing the file has left all folders in place, so it can be done again.
  obtain ⟨next, hnext⟩ := (FileTree.sameBut_replaceFile hfiles).exists_replaceFile hfiles ""
  exact ⟨"", next, hnext⟩

/-- After a successful `init` the snapshot of the session that it created is kept. -/
theorem keeps_of_init {base : Invocation} {force : Bool} {output : String}
    (h : (run { base with command := .init force } : StateM Machine _) machine = (.ok output, after)) :
    ∃ session started,
      (createSession base.pipeline base.state force : StateM Machine _) machine = (.ok session, started) ∧
        Keeps base.state session.pipeline.snapshot after := by
  have hsession : (sessionFor { base with command := .init force } : StateM Machine _) machine =
    (createSession base.pipeline base.state force : StateM Machine _) machine := rfl
  rcases hcreate : (createSession base.pipeline base.state force : StateM Machine _) machine with
    ⟨failure | session, started⟩
  · simp only [run, bind_apply, hsession, hcreate] at h
    cases h
  · refine ⟨session, started, rfl, ?_⟩
    simp only [run_eq (hsession.trans hcreate), Machine.timer_apply, Session.execute, Command.isMutating,
      if_true] at h
    rcases hsave : (saveSession base.state session : StateM Machine _) started.tick with
      ⟨failure | done, last⟩
    · rw [hsave] at h
      cases h
    · rw [hsave] at h
      cases h
      exact keeps_of_saveSession hsave

/-- Where the snapshot of an intact `pipeline` is kept, a session with a similar pipeline is opened. -/
theorem Keeps.exists_openSession {pipeline built : Pipeline} {described : String}
    (h : Keeps path pipeline.snapshot machine) (hintact : pipeline.Intact description)
    (hdescription : (loadDescription described : StateM Machine _) machine = (.ok description, machine))
    (hbuilt : Pipeline.ofDescription description = .ok built) :
    ∃ opened, (openSession described path : StateM Machine _) machine = (.ok opened, machine.tick.tick) ∧
      pipeline.Similar opened.pipeline ∧ opened.pipeline.Intact description := by
  obtain ⟨state, hstate, hsnapshot⟩ := h.exists_load
  obtain ⟨restored, hrestored, hsimilar, hopened⟩ := hintact.exists_restore hbuilt
  have hopen := openSession_eq hdescription hbuilt hstate
  simp only [Session.resume, hsnapshot, hrestored] at hopen
  exact ⟨_, hopen, hsimilar, hopened⟩

/-- Where the snapshot of a `session` is kept, the invocation of a `command` gives what the session gives, and
the snapshot of the session is kept afterwards. -/
theorem Keeps.run {base : Invocation} {session : Session} {command : Command} {built : Pipeline}
    (h : Keeps base.state session.pipeline.snapshot machine) (hintact : session.pipeline.Intact description)
    (hdescription : (loadDescription base.pipeline : StateM Machine _) machine = (.ok description, machine))
    (hbuilt : Pipeline.ofDescription description = .ok built) (hcommand : command.isSelfContained)
    (timer : Nat) :
    ((Tool.run { base with command } : StateM Machine _) machine).1 = (session.execute timer command).1 ∧
      Keeps base.state (session.execute timer command).2.pipeline.snapshot
        ((Tool.run { base with command } : StateM Machine _) machine).2 := by
  obtain ⟨opened, hopen, hsimilar, hopened⟩ := h.exists_openSession hintact hdescription hbuilt
  have hsession : (sessionFor { base with command } : StateM Machine _) machine =
      (.ok opened, machine.tick.tick) := by
    cases command with
    | init force => cases hcommand
    | _ => exact hopen
  have hkept : Keeps base.state session.pipeline.snapshot machine.tick.tick.tick := h.of_files_eq rfl
  rw [run_eq hsession, Machine.timer_apply]
  dsimp only
  generalize machine.tick.tick.timerAt machine.tick.tick.asked = reading
  obtain ⟨hresult, hnext⟩ := Session.execute_similar hsimilar hintact hopened hcommand timer reading
  have hsnapshot := hnext.snapshot_eq
  rcases hexecute : opened.execute reading command with ⟨failure | output, changed⟩
  · -- Nothing is saved after a failure, and the session has not changed its pipeline either.
    rw [hexecute] at hresult
    rw [hresult, Session.pipeline_execute_eq (.inr ⟨failure, hresult⟩)]
    exact ⟨rfl, hkept⟩
  · rw [hexecute] at hresult hsnapshot
    cases hmutating : command.isMutating with
    | false =>
      rw [hresult, Session.pipeline_execute_eq (.inl hmutating)]
      exact ⟨rfl, hkept⟩
    | true =>
      -- What is saved is another pipeline than that of the session, but with the same snapshot.
      obtain ⟨_, _, hfiles⟩ := hkept.replaceable
      obtain ⟨last, hlast⟩ := exists_saveSession hfiles changed
      simp only [hlast, if_true, hresult, hsnapshot]
      exact ⟨rfl, keeps_of_saveSession hlast⟩

/-- Invocations that start where the snapshot of a `session` is kept go in step with the session. -/
theorem Keeps.runEach {base : Invocation} {session : Session} {built : Pipeline}
    {script : List (Nat × Command)} (h : Keeps base.state session.pipeline.snapshot machine)
    (hintact : session.pipeline.Intact description)
    (hdescription : parseDescription base.pipeline text = .ok description)
    (hbuilt : Pipeline.ofDescription description = .ok built)
    (hscript : ∀ entry ∈ script, entry.2.isSelfContained)
    (hread : machine.files.readFile base.pipeline = .ok text)
    (hkept : ∀ invocation ∈ runEach base machine (script.map Prod.snd),
      invocation.2.files.readFile base.pipeline = .ok text) :
    List.Forall₂ (InStep base.state) (runEach base machine (script.map Prod.snd))
      (session.executeAll script) := by
  induction script generalizing machine session with
  | nil => exact .nil
  | cons entry rest ih =>
    obtain ⟨timer, command⟩ := entry
    rw [List.forall_mem_cons] at hscript
    simp only [List.map_cons, Tool.runEach, List.forall_mem_cons] at hkept ⊢
    have hload := loadDescription_eq_ok_iff.mpr ⟨⟨text, hread, hdescription⟩, rfl⟩
    obtain ⟨hresult, hnext⟩ := h.run hintact hload hbuilt hscript.1 timer
    exact .cons ⟨hresult, hnext.exists_load⟩
      (ih hnext (Session.intact_execute hintact timer command) hscript.2 hkept.1 hkept.2)

/-! ## Invocations and the long session -/

/-- Separate invocations refine one session. After a successful `init`, commands give the same results whether
each is executed by an invocation of its own or all of them in the session that the initialization created, and
after each of them the state file has the snapshot of this session. This holds for all readings of the clocks,
for commands that succeed and commands that fail, as long as the description file is as it was at the
initialization. That the state file can be written each time follows from the success of the initialization. -/
theorem invocations_refine_session (base : Invocation) (force : Bool) (machine ready : Machine)
    (output : String) (script : List (Nat × Command))
    (hinit : (run { base with command := .init force } : StateM Machine _) machine = (.ok output, ready))
    (hscript : ∀ entry ∈ script, entry.2.isSelfContained)
    (hkept : ∀ visited ∈ ready :: (runEach base ready (script.map Prod.snd)).map Prod.snd,
      visited.files.readFile base.pipeline = machine.files.readFile base.pipeline) :
    ∃ session started,
      (createSession base.pipeline base.state force : StateM Machine _) machine = (.ok session, started) ∧
        List.Forall₂ (InStep base.state) (runEach base ready (script.map Prod.snd))
          (session.executeAll script) := by
  obtain ⟨session, started, hcreate, hready⟩ := keeps_of_init hinit
  obtain ⟨description, hload, hbuilt⟩ := exists_of_createSession hcreate
  obtain ⟨⟨text, hread, hdescription⟩, -⟩ := loadDescription_eq_ok_iff.mp hload
  rw [hread, List.forall_mem_cons, List.forall_mem_map] at hkept
  exact ⟨session, started, hcreate, hready.runEach (Pipeline.intact_of_ofDescription hbuilt) hdescription
    hbuilt hscript hkept.1 hkept.2⟩

/-- An `init` with force succeeds if the description can be loaded and the state file replaced. -/
theorem exists_run_init {base : Invocation} {built : Pipeline} {files : FileTree}
    (hdescription : (loadDescription base.pipeline : StateM Machine _) machine = (.ok description, machine))
    (hbuilt : Pipeline.ofDescription description = .ok built)
    (hfiles : machine.files.replaceFile base.state text = .ok files) :
    ∃ output ready,
      (run { base with command := .init true } : StateM Machine _) machine = (.ok output, ready) := by
  let session : Session := { pipeline := built, clock := { origin := machine.timerAt machine.asked } }
  have hexists : (Host.exists? base.state : StateM Machine _) machine =
      (machine.files.contains base.state, machine) := rfl
  have hsession : (sessionFor { base with command := .init true } : StateM Machine _) machine =
      (.ok session, machine.tick) := by
    simp only [sessionFor, createSession, bind_apply, hexists, Bool.not_true, Bool.and_false, hdescription,
      Bool.false_eq_true, if_false, Session.start, hbuilt]
    rfl
  have hticked : machine.tick.tick.files.replaceFile base.state text = .ok files := hfiles
  obtain ⟨ready, hready⟩ := exists_saveSession hticked session
  rw [run_eq hsession, Machine.timer_apply]
  simp only [Session.execute, Command.isMutating, if_true, hready]
  exact ⟨_, _, rfl⟩

/-! ## Machines that are set up for the tool -/

/-- `machine` is set up for `base`: the description file has `text`, and the state file can be replaced without
touching the description file. -/
structure SetUp (base : Invocation) (text : String) (machine : Machine) : Prop where
  /-- The description file can be read. -/
  read : machine.files.readFile base.pipeline = .ok text
  /-- The state file can be replaced. -/
  replaceable : ∃ any files, machine.files.replaceFile base.state any = .ok files
  /-- The description file is neither the state file nor the one in which that is prepared. -/
  apart : ∀ place, machine.files.locate base.pipeline = .ok place → ¬ machine.files.Replaced base.state place

namespace SetUp

variable {base : Invocation}

theorem load (h : SetUp base text machine) (hparse : parseDescription base.pipeline text = .ok description) :
    (loadDescription base.pipeline : StateM Machine _) machine = (.ok description, machine) :=
  loadDescription_eq_ok_iff.mpr ⟨⟨text, h.read, hparse⟩, rfl⟩

/-- Every invocation of a `command` leaves a machine that is set up as it should be. -/
theorem run (h : SetUp base text machine) (command : Command) :
    SetUp base text ((Tool.run { base with command } : StateM Machine _) machine).2 := by
  have hsame := confined_run { base with command } machine
  obtain ⟨place, hplace, -⟩ := FileTree.readFile_eq_ok_iff.mp h.read
  obtain ⟨any, files, hfiles⟩ := h.replaceable
  refine ⟨?_, ⟨any, hsame.exists_replaceFile hfiles any⟩, ?_⟩
  · rw [hsame.readFile_eq hplace (h.apart place hplace), h.read]
  · intro found hfound
    rw [hsame.replaced_eq]
    exact h.apart found (hsame.locate_eq_ok_iff.mp hfound)

theorem runEach (h : SetUp base text machine) (commands : List Command) :
    ∀ invocation ∈ Tool.runEach base machine commands, SetUp base text invocation.2 := by
  induction commands generalizing machine with
  | nil => simp [Tool.runEach]
  | cons command rest ih =>
    rw [Tool.runEach, List.forall_mem_cons]
    exact ⟨h.run command, ih (h.run command)⟩

theorem exists_run_init (h : SetUp base text machine) {built : Pipeline}
    (hparse : parseDescription base.pipeline text = .ok description)
    (hbuilt : Pipeline.ofDescription description = .ok built) :
    ∃ output ready,
      (Tool.run { base with command := .init true } : StateM Machine _) machine = (.ok output, ready) ∧
        SetUp base text ready := by
  obtain ⟨any, files, hfiles⟩ := h.replaceable
  obtain ⟨output, ready, hinit⟩ := Tool.exists_run_init (h.load hparse) hbuilt hfiles
  have hready := h.run (.init true)
  rw [hinit] at hready
  exact ⟨output, ready, hinit, hready⟩

end SetUp

/-- `path` is the name of a file or folder, and not longer than a name can be. -/
def Path.isName (path : String) : Bool :=
  segments path == [path] && !isIdle path && path != ".." && !path.toList.contains '\x00' &&
    decide (path.utf8ByteSize ≤ maxNameLength)

theorem Path.isName_iff : Path.isName path = true ↔ Path.segments path = [path] ∧
    Path.isIdle path = false ∧ path ≠ ".." ∧ '\x00' ∉ path.toList ∧ path.utf8ByteSize ≤ Path.maxNameLength := by
  simp [isName, and_assoc]

namespace FileTree

variable {tree : FileTree}

/-- From the root, a `path` that is a name leads to what has this name there. -/
theorem locateFile_of_isName (hhere : tree.here = []) (h : Path.isName path = true) :
    tree.locateFile path = .ok [path] := by
  obtain ⟨hsegments, hidle, hup, hnul, hlong⟩ := Path.isName_iff.mp h
  -- A name is neither empty nor does it end in a slash.
  have hempty : path.isEmpty = false := by
    rw [← Bool.not_eq_true, String.isEmpty_iff]
    rintro rfl
    cases hidle
  have hslash : path.endsWith "/" = false := by
    rw [← Bool.not_eq_true, Path.endsWith_slash_iff]
    intro hsuffix
    have hmem : path ∈ Path.segments path := hsegments ▸ List.mem_singleton_self path
    exact Path.slash_notMem_of_mem_segments hmem (hsuffix.subset (List.mem_singleton_self _))
  have hroot : tree.node? [] = some .folder := if_pos List.nil_prefix
  refine locateFile_eq_ok_iff.mpr ⟨?_, ?_, hslash⟩
  · have hshort : ¬ Path.maxLength < path.utf8ByteSize := by
      simp only [Path.maxLength, Path.maxNameLength] at hlong ⊢
      omega
    rw [locate, walk_eq, hsegments, if_neg hnul, if_neg (by simpa using hempty), if_neg hshort, hhere, ite_self]
    simp [follow, hroot, hidle, hup, Nat.not_lt.mpr hlong]
  · rw [Path.endsInNoName, Path.trimEmpty_segments hempty hslash, hsegments]
    rw [Path.isIdle, Bool.or_eq_false_iff] at hidle
    simp [hidle.2, hup]

end FileTree

/-- A machine is set up if both files are named in the root, where the description file has `text` and no folder
stands in the way of the state file. -/
theorem setUp_of_isName {base : Invocation} (hhere : machine.files.here = [])
    (hpipeline : Path.isName base.pipeline = true) (hstate : Path.isName base.state = true)
    (hbeside : Path.isName (Path.temporary base.state) = true) (hne : base.pipeline ≠ base.state)
    (hneBeside : base.pipeline ≠ Path.temporary base.state)
    (hfile : machine.files.node? [base.pipeline] = some (.file text))
    (hfree : machine.files.node? [base.state] ≠ some .folder)
    (hfreeBeside : machine.files.node? [Path.temporary base.state] ≠ some .folder) :
    SetUp base text machine := by
  have hplace := (FileTree.locateFile_eq_ok_iff.mp (FileTree.locateFile_of_isName hhere hpipeline)).1
  have hstatePlace := FileTree.locateFile_of_isName hhere hstate
  have hbesidePlace := (FileTree.locateFile_eq_ok_iff.mp (FileTree.locateFile_of_isName hhere hbeside)).1
  have hreplaced : machine.files.replaceFile base.state "" = _ :=
    FileTree.replaceFile_eq_ok_iff.mpr ⟨_, _, hbesidePlace, hfreeBeside, hstatePlace, hfree, rfl⟩
  refine ⟨FileTree.readFile_eq_ok_iff.mpr ⟨_, hplace, hfile⟩, ⟨"", _, hreplaced⟩, ?_⟩
  intro place hfound
  cases hplace.symm.trans hfound
  rw [FileTree.Replaced, (FileTree.locateFile_eq_ok_iff.mp hstatePlace).1, hbesidePlace]
  rintro (heq | heq)
  · exact hne (List.singleton_inj.mp (Except.ok.inj heq)).symm
  · exact hneBeside (List.singleton_inj.mp (Except.ok.inj heq)).symm

/-- A meter that is configured and marks a packet, a packet for a meter that does not exist, and an entry that
is removed although it was never written. -/
theorem invocations_refine_session_refused_packet :
    let text := "\x7b\"meters\": [\x7b\"name\": \"m\", \"capacity\": 2\x7d], \"tables\": [" ++
      "\x7b\"name\": \"t\", \"action_data_len\": 2, \"counter\": \"PACKETS\", \"meters\": 1\x7d]\x7d"
    let machine : Machine :=
      { files := { nodes := [(["pipeline.json"], .file text)] }, timerAt := id, wallTimeAt := fun _ => 5 }
    let base : Invocation := { pipeline := "pipeline.json", state := "meters.json", command := .stats }
    let script : List (Nat × Command) :=
      [(3, .update { meter := "m", index := some 1 } { peak := ⟨250000, 2500⟩, committed := ⟨100000, 1500⟩ }),
        (4, .execute { meter := "m", index := some 1 } 1500 (some 10) none),
        (2, .execute { meter := "m", index := some 9 } 1500 (some 11) none),
        (8, .get { meter := "m", index := some 1 }), (9, .entryDelete { table := "t", key := "07" }),
        (9, .stats)]
    ∃ output ready,
      (run { base with command := .init true } : StateM Machine _) machine = (.ok output, ready) ∧
      (∀ entry ∈ script, entry.2.isSelfContained) ∧
      (∀ visited ∈ ready :: (runEach base ready (script.map Prod.snd)).map Prod.snd,
        visited.files.readFile base.pipeline = machine.files.readFile base.pipeline) ∧
      ∃ session started,
        (createSession base.pipeline base.state true : StateM Machine _) machine = (.ok session, started) ∧
          List.Forall₂ (InStep base.state) (runEach base ready (script.map Prod.snd))
            (session.executeAll script) := by
  intro text machine base script
  have hsetUp : SetUp base text machine :=
    setUp_of_isName rfl (by decide +kernel) (by decide +kernel) (by decide +kernel) (by decide)
      (by decide +kernel) rfl (by decide +kernel) (by decide +kernel)
  have hparse : parseDescription base.pipeline text = .ok .storeAndTable := by decide +kernel
  obtain ⟨output, ready, hinit, hready⟩ := hsetUp.exists_run_init hparse rfl
  have hkept : ∀ visited ∈ ready :: (runEach base ready (script.map Prod.snd)).map Prod.snd,
      visited.files.readFile base.pipeline = machine.files.readFile base.pipeline := by
    rw [List.forall_mem_cons, List.forall_mem_map, hsetUp.read]
    exact ⟨hready.read, fun invocation hmem => (hready.runEach _ invocation hmem).read⟩
  exact ⟨output, ready, hinit, by decide, hkept,
    invocations_refine_session base true machine ready output script hinit (by decide) hkept⟩

end TrafficMeter.Tool
