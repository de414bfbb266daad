import TrafficMeter.Proofs.Invocation

/-!
# The state file is replaced as a whole or not at all

An invocation that fails leaves the state file as it was, one that succeeds has replaced it by the whole new
state and left nothing beside it, and commands that only show something change no files at all. This holds on
every host of which `FileSystem` can be assumed.

The proof goes through all that an invocation can come to (`run_cases`). Until there is a session to be saved,
files are only looked at (`Observing.sessionFor`), and what saving it can do is said by
`FileSystem.found_of_save_error` and `FileSystem.found_of_save_ok`.

## Main definitions

* `Command.Shows`: the commands that only show something;
* `savedText opened changed`: the text that is saved for the session `changed`.

## Main results

* `run_replaces_state_or_keeps_it`: what each invocation does to the state file and to all other files.
-/

namespace TrafficMeter.Tool

/-- The commands that only show something: `get`, `entryGet` and `stats`. -/
inductive Command.Shows : Command → Prop
  | get (target : MeterTarget) : Shows (.get target)
  | entryGet (entry : EntryTarget) : Shows (.entryGet entry)
  | stats : Shows .stats

theorem Command.isMutating_eq_false_iff {command : Command} : command.isMutating = false ↔ command.Shows := by
  constructor
  · intro h
    cases command with
    | get target => exact .get target
    | entryGet entry => exact .entryGet entry
    | stats => exact .stats
    | _ => cases h
  · rintro (_ | _ | _) <;> rfl

variable {σ : Type} [Host (StateM σ)] {world : σ} {invocation : Invocation}

/-- The text that is saved for the session `changed`, where `opened` is the state of the host in which the command
was executed: that of the session at the readings of the two clocks that follow. -/
def savedText (opened : σ) (changed : Session) : String :=
  let executed := (Host.timer : StateM σ _) opened
  let timer := (Host.timer : StateM σ _) executed.2
  let wallTime := (Host.wallTime : StateM σ _) timer.2
  (changed.toState timer.1 wallTime.1).format

/-- All that an `invocation` can come to:

- it fails or only shows something, and all files are as they were;
- it fails to save a session, and the state file is as it was;
- it replaces the state file by the `savedText` of a session, after a command that succeeded. -/
theorem run_cases (files : FileSystem σ) {result : Except Failure String × σ}
    (h : (run invocation : StateM σ _) world = result) :
    (files.found result.2 = files.found world ∧
      ((∃ failure, result.1 = .error failure) ∨ invocation.command.Shows)) ∨
    (¬ invocation.command.Shows ∧ (∃ failure, result.1 = .error failure) ∧
      files.found result.2 invocation.state = files.found world invocation.state) ∨
    (¬ invocation.command.Shows ∧ ∃ session opened output changed,
      (sessionFor invocation : StateM σ _) world = (.ok session, opened) ∧
      session.execute ((Host.timer : StateM σ _) opened).1 invocation.command = (.ok output, changed) ∧
      result.1 = .ok output ∧
      files.found result.2 invocation.state = some (.file (files.ofText (savedText opened changed))) ∧
      files.found result.2 (Path.temporary invocation.state) = none) := by
  have hopened := files.observing.sessionFor invocation world
  rcases hsession : (sessionFor invocation : StateM σ _) world with ⟨failure | session, opened⟩
  · rw [hsession] at hopened
    simp only [run, bind_apply, hsession] at h
    subst h
    exact .inl ⟨hopened, .inl ⟨failure, rfl⟩⟩
  · rw [hsession] at hopened
    have hasked : files.found ((Host.timer : StateM σ _) opened).2 = files.found world :=
      (files.observing.timer opened).trans hopened
    rw [run_eq hsession] at h
    rcases hexecute : session.execute ((Host.timer : StateM σ _) opened).1 invocation.command with
      ⟨failure | output, changed⟩
    · rw [hexecute] at h
      subst h
      exact .inl ⟨hasked, .inl ⟨failure, rfl⟩⟩
    · rw [hexecute] at h
      cases hmutating : invocation.command.isMutating with
      | false =>
        simp only [hmutating, Bool.false_eq_true, if_false] at h
        subst h
        exact .inl ⟨hasked, .inr (Command.isMutating_eq_false_iff.mp hmutating)⟩
      | true =>
        have hshows : ¬ invocation.command.Shows := by
          rw [← Command.isMutating_eq_false_iff, hmutating]
          decide
        simp only [hmutating, if_true, saveSession_eq] at h
        -- The clocks that are asked before the state is saved leave the files as they were.
        have htimed := files.observing.timer ((Host.timer : StateM σ _) opened).2
        have hready := (files.observing.wallTime _).trans (htimed.trans hasked)
        subst h
        right
        generalize hsave : (StateFile.save invocation.state _ : StateM σ _) _ = saved
        obtain ⟨failure | done, last⟩ := saved
        · exact .inl ⟨hshows, ⟨failure, rfl⟩, (files.found_of_save_error hsave).trans (congrFun hready _)⟩
        · obtain ⟨hstate, hgone⟩ := files.found_of_save_ok hsave
          exact .inr ⟨hshows, session, opened, output, changed, rfl, hexecute, rfl, hstate, hgone⟩

/-- Without force, `init` is refused where `invocation.state` is seen to exist. -/
theorem exists_run_init_eq_error (hcommand : invocation.command = .init false)
    (hexists : ((Host.exists? invocation.state : StateM σ _) world).1 = true) :
    ∃ failure, (run invocation : StateM σ _) world =
      (.error failure, ((Host.exists? invocation.state : StateM σ _) world).2) := by
  simp only [run, sessionFor, hcommand, createSession, bind_apply, hexists, Bool.not_false, Bool.and_true,
    if_true]
  exact ⟨_, rfl⟩

/-- Whatever the host, the files on it and the `invocation`, of which `result` is the outcome, and as long as a
rename on the host replaces its target whole or fails and leaves it:

- if `result` is a failure, there is at `invocation.state` what was there before, be it a file with any contents
  or nothing;
- if the command only shows something, all files are as they were;
- if it does anything else and succeeds, the state file holds the text of the whole state of the session after the
  command, and the file in which this was prepared is gone;
- an initialization without force leaves all files as they were where the state file exists. -/
theorem run_replaces_state_or_keeps_it {σ : Type} [Host (StateM σ)] (files : FileSystem σ)
    (invocation : Invocation) (world : σ) :
    let result := (run invocation : StateM σ _) world
    (∀ failure, result.1 = .error failure →
      files.found result.2 invocation.state = files.found world invocation.state) ∧
    (invocation.command.Shows → files.found result.2 = files.found world) ∧
    (∀ output, result.1 = .ok output → ¬ invocation.command.Shows →
      ∃ session opened changed,
        (sessionFor invocation : StateM σ _) world = (.ok session, opened) ∧
        session.execute ((Host.timer : StateM σ _) opened).1 invocation.command = (.ok output, changed) ∧
        files.found result.2 invocation.state = some (.file (files.ofText (savedText opened changed))) ∧
        files.found result.2 (Path.temporary invocation.state) = none) ∧
    (∀ content, invocation.command = .init false →
      files.found world invocation.state = some (.file content) → files.found result.2 = files.found world) := by
  intro result
  have hcases := run_cases files (rfl : (run invocation : StateM σ _) world = result)
  -- Each part selects some of the possible ends of the run and contradicts the others.
  refine ⟨?_, ?_, ?_, ?_⟩
  · intro failure hfailure
    rcases hcases with ⟨hkept, -⟩ | ⟨-, -, hkept⟩ | ⟨-, _, _, _, _, -, -, hok, -⟩
    · exact congrFun hkept _
    · exact hkept
    · cases hfailure.symm.trans hok
  · intro hshows
    rcases hcases with ⟨hkept, -⟩ | ⟨hnot, -⟩ | ⟨hnot, -⟩
    · exact hkept
    · exact absurd hshows hnot
    · exact absurd hshows hnot
  · intro output houtput hshows
    rcases hcases with ⟨-, ⟨failure, hfailure⟩ | hshown⟩ | ⟨-, ⟨failure, hfailure⟩, -⟩ |
      ⟨-, session, opened, _, changed, hsession, hexecute, hok, hsaved⟩
    · cases houtput.symm.trans hfailure
    · exact absurd hshown hshows
    · cases houtput.symm.trans hfailure
    · cases houtput.symm.trans hok
      exact ⟨session, opened, changed, hsession, hexecute, hsaved⟩
  · intro content hcommand hfile
    -- The file is seen before anything else is done, and to look at it changes nothing.
    have hexists := files.exists?_of_file world invocation.state content hfile
    obtain ⟨failure, hrun⟩ := exists_run_init_eq_error hcommand hexists
    have hresult : result.2 = ((Host.exists? invocation.state : StateM σ _) world).2 := congrArg Prod.snd hrun
    rw [hresult]
    exact files.observing.exists? invocation.state world

/-- A state file that cannot be read as a state is kept by an initialization without force and by a command
that shows the tallies, and replaced by an initialization with force. -/
theorem run_replaces_state_or_keeps_it_corrupt :
    let files := Machine.fileSystem
    let machine : Machine :=
      { files := { nodes := [(["p.json"], .file "\x7b\x7d"), (["m.json"], .file "old")] }
        timerAt := id
        wallTimeAt := fun _ => 5 }
    let base : Invocation := { pipeline := "p.json", state := "m.json", command := .stats }
    let gentle := (run { base with command := .init false } : StateM Machine _) machine
    let forced := (run { base with command := .init true } : StateM Machine _) machine
    (∃ failure, gentle.1 = .error failure ∧
      files.found gentle.2 base.state = some (.file (files.ofText "old"))) ∧
    files.found ((run base : StateM Machine _) machine).2 = files.found machine ∧
    ∃ output session opened, forced.1 = .ok output ∧
      (createSession base.pipeline base.state true : StateM Machine _) machine = (.ok session, opened) ∧
      files.found forced.2 base.state = some (.file (files.ofText (savedText opened session))) ∧
      files.found forced.2 (Path.temporary base.state) = none := by
  intro files machine base gentle forced
  have hsetUp : SetUp base "\x7b\x7d" machine :=
    setUp_of_isName rfl (by decide +kernel) (by decide +kernel) (by decide +kernel) (by decide)
      (by decide +kernel) rfl (by decide +kernel) (by decide +kernel)
  have hparse : parseDescription base.pipeline "\x7b\x7d" = .ok {} := by decide +kernel
  have hplace : machine.files.locate base.state = .ok ["m.json"] :=
    (FileTree.locateFile_eq_ok_iff.mp (FileTree.locateFile_of_isName rfl (by decide +kernel))).1
  have hold : files.found machine base.state = some (.file (files.ofText "old")) :=
    FileTree.found_eq_file_iff.mpr (FileTree.readFile_eq_ok_iff.mpr ⟨_, hplace, rfl⟩)
  obtain ⟨failure, hgentle⟩ : ∃ failure, gentle = (.error failure, machine) :=
    exists_run_init_eq_error rfl (files.exists?_of_file _ _ _ hold)
  obtain ⟨output, ready, hforced, -⟩ := hsetUp.exists_run_init hparse rfl
  have hrefused : gentle.1 = .error failure := congrArg Prod.fst hgentle
  have hdone : forced.1 = .ok output := congrArg Prod.fst hforced
  have hkept :=
    (run_replaces_state_or_keeps_it files { base with command := .init false } machine).1 failure hrefused
  have hshown := (run_replaces_state_or_keeps_it files base machine).2.1 .stats
  obtain ⟨session, opened, changed, hsession, hexecute, hsaved, hgone⟩ :=
    (run_replaces_state_or_keeps_it files { base with command := .init true } machine).2.2.1 output hdone
      (by rintro ⟨⟩)
  cases hexecute
  exact ⟨⟨failure, hrefused, hkept.trans hold⟩, hshown, _, session, opened, hdone, hsession, hsaved, hgone⟩

end TrafficMeter.Tool
