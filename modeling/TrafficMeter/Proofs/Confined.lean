import TrafficMeter.Proofs.FileTree
import TrafficMeter.Tool.Run

/-!
# Files that are left alone

Whatever the tool is told to do, and whether or not it succeeds, it changes no files but the state file and the
file in which that is prepared. Programs with this property are closed under composition, because they leave all
folders in place, so that paths lead to the same locations all along.

## Main definitions

* `Leaves view program`: whatever happens, `program` leaves what `view` shows of its host as it was;
* `Observing view`: what `view` shows is left alone when files are read and clocks are asked;
* `Confined path program`: on a `Machine`, `program` changes at most what is at `path` and at
  `Path.temporary path`.

## Main results

* `Observing.sessionFor`: no files are changed until there is a session to be saved, on any host;
* `run_eq`: what an invocation does with its session, on any host;
* `confined_run`: `run invocation` is confined to `invocation.state`.
-/

namespace TrafficMeter.Tool

variable {σ ν α β : Type} {path : String}

theorem bind_apply (first : StateM σ α) (next : α → StateM σ β) (world : σ) :
    (first >>= next) world = next (first world).1 (first world).2 := rfl

/-! ## Programs that change no files -/

/-- Whatever happens, `program` leaves what `view` shows as it is. -/
def Leaves (view : σ → ν) (program : StateM σ α) : Prop :=
  ∀ world, view (program world).2 = view world

variable {view : σ → ν}

theorem Leaves.pure (result : α) : Leaves view (Pure.pure result) :=
  fun _ => rfl

theorem Leaves.bind {first : StateM σ α} {next : α → StateM σ β} (hfirst : Leaves view first)
    (hnext : ∀ result, Leaves view (next result)) : Leaves view (first >>= next) :=
  fun world => (hnext (first world).1 (first world).2).trans (hfirst world)

section Host

variable [Host (StateM σ)]

/-- What `view` shows of a host is left alone by all operations of the host that only look at something. -/
structure Observing (view : σ → ν) : Prop where
  /-- Reading the file at `path` leaves it alone. -/
  readFile : ∀ path, Leaves view (Host.readFile path : StateM σ _)
  /-- Looking whether there is something at `path` leaves it alone. -/
  exists? : ∀ path, Leaves view (Host.exists? path : StateM σ _)
  /-- Asking the timer leaves it alone. -/
  timer : Leaves view (Host.timer : StateM σ _)
  /-- Asking the wall clock leaves it alone. -/
  wallTime : Leaves view (Host.wallTime : StateM σ _)

namespace Observing

variable (h : Observing view)

include h

theorem loadDescription (path : String) : Leaves view (Tool.loadDescription path : StateM σ _) := by
  refine (h.readFile path).bind fun outcome => ?_
  cases outcome <;> exact .pure _

theorem load (path : String) : Leaves view (StateFile.load path : StateM σ _) := by
  refine (h.readFile path).bind fun outcome => ?_
  cases outcome with
  | error error => exact .pure _
  | ok text =>
    dsimp only
    split <;> exact .pure _

theorem createSession (pipeline state : String) (force : Bool) :
    Leaves view (Tool.createSession pipeline state force : StateM σ _) := by
  refine (h.exists? state).bind fun found => ?_
  cases found && !force with
  | true => exact .pure _
  | false =>
    refine (h.loadDescription pipeline).bind fun outcome => ?_
    cases outcome with
    | error failure => exact .pure _
    | ok description => exact h.timer.bind fun _ => .pure _

theorem openSession (pipeline state : String) :
    Leaves view (Tool.openSession pipeline state : StateM σ _) := by
  refine (h.loadDescription pipeline).bind fun outcome => ?_
  cases outcome with
  | error failure => exact .pure _
  | ok description =>
    dsimp only
    split
    next => exact .pure _
    next =>
      refine (h.load state).bind fun outcome => ?_
      cases outcome with
      | error failure => exact .pure _
      | ok saved => exact h.wallTime.bind fun _ => h.timer.bind fun _ => .pure _

/-- Opening or creating the session of `invocation` only looks at files and clocks. -/
theorem sessionFor (invocation : Invocation) : Leaves view (Tool.sessionFor invocation : StateM σ _) := by
  rw [Tool.sessionFor]
  split
  next => exact h.createSession _ _ _
  next => exact h.openSession _ _

end Observing

/-- What is saved is the state of `session` at the next readings of the two clocks. -/
theorem saveSession_eq (path : String) (session : Session) (world : σ) :
    (saveSession path session : StateM σ _) world =
      let timer := (Host.timer : StateM σ _) world
      let wallTime := (Host.wallTime : StateM σ _) timer.2
      (StateFile.save path (session.toState timer.1 wallTime.1) : StateM σ _) wallTime.2 := rfl

/-- `run invocation` with the `session` it has opened executes the command at a reading of the timer. It saves
the session that is then there if the command did not fail and `invocation.command.isMutating`. -/
theorem run_eq {invocation : Invocation} {session : Session} {world opened : σ}
    (hsession : (sessionFor invocation : StateM σ _) world = (.ok session, opened)) :
    (run invocation : StateM σ _) world =
      match session.execute ((Host.timer : StateM σ _) opened).1 invocation.command with
      | (.error failure, _) => (.error failure, ((Host.timer : StateM σ _) opened).2)
      | (.ok output, changed) =>
        if invocation.command.isMutating then
          let saved :=
            (saveSession invocation.state changed : StateM σ _) ((Host.timer : StateM σ _) opened).2
          (saved.1.map fun _ => output, saved.2)
        else (.ok output, ((Host.timer : StateM σ _) opened).2) := by
  simp only [run, bind_apply, hsession]
  generalize (Host.timer : StateM σ _) opened = asked
  rcases session.execute asked.1 invocation.command with ⟨failure | output, changed⟩
  · rfl
  · cases invocation.command.isMutating with
    | false => rfl
    | true =>
      simp only [if_true, bind_apply]
      rcases (saveSession invocation.state changed : StateM σ _) asked.2 with ⟨failure | done, last⟩
      · rfl
      · rfl

end Host

/-! ## Programs that change the state file only -/

theorem Machine.observing_files : Observing Machine.files :=
  ⟨fun _ _ => rfl, fun _ _ => rfl, fun _ => rfl, fun _ => rfl⟩

/-- Whatever happens, `program` changes no files but the one at `path` and the one in which that is prepared. -/
def Confined (path : String) (program : StateM Machine α) : Prop :=
  ∀ machine, FileTree.SameBut (machine.files.Replaced path) machine.files (program machine).2.files

theorem Leaves.confined {program : StateM Machine α} (h : Leaves Machine.files program) :
    Confined path program := by
  intro machine
  rw [h]
  exact .refl _ _

theorem Confined.pure (result : α) : Confined path (Pure.pure result) :=
  (Leaves.pure result).confined

/-- If `first` and everything that may come `next` are confined to `path`, then so is one after the other. -/
theorem Confined.bind {first : StateM Machine α} {next : α → StateM Machine β} (hfirst : Confined path first)
    (hnext : ∀ result, Confined path (next result)) : Confined path (first >>= next) := by
  intro machine
  have hsame := hfirst machine
  have hlast := hnext (first machine).1 (first machine).2
  -- The second program starts from other files, but there the same two locations may change.
  rw [hsame.replaced_eq] at hlast
  exact hsame.trans hlast

theorem confined_writeFile (text : String) : Confined path (Host.writeFile (Path.temporary path) text) := by
  intro machine
  show FileTree.SameBut _ machine.files
    (machine.change (machine.files.writeFile (Path.temporary path) text)).2.files
  cases hwrite : machine.files.writeFile (Path.temporary path) text with
  | error error => exact .refl _ _
  | ok prepared => exact FileTree.sameBut_writeFile hwrite fun _ => .inr

theorem confined_renameFile : Confined path (Host.renameFile (Path.temporary path) path) := by
  intro machine
  show FileTree.SameBut _ machine.files
    (machine.change (machine.files.renameFile (Path.temporary path) path)).2.files
  cases hrename : machine.files.renameFile (Path.temporary path) path with
  | error error => exact .refl _ _
  | ok files => exact FileTree.sameBut_renameFile hrename fun _ => Or.symm

theorem confined_save (state : StateFile) : Confined path (StateFile.save path state) := by
  refine (confined_writeFile state.format).bind fun outcome => ?_
  cases outcome with
  | error error => exact .pure _
  | ok =>
    refine confined_renameFile.bind fun outcome => ?_
    cases outcome <;> exact .pure _

theorem confined_saveSession (session : Session) : Confined path (saveSession path session) :=
  Machine.observing_files.timer.confined.bind fun _ =>
    Machine.observing_files.wallTime.confined.bind fun _ => confined_save _

/-- An invocation changes no files but `invocation.state` and the one in which that is prepared. -/
theorem confined_run (invocation : Invocation) : Confined invocation.state (run invocation) := by
  refine (Machine.observing_files.sessionFor invocation).confined.bind fun outcome => ?_
  cases outcome with
  | error failure => exact .pure _
  | ok session =>
    refine Machine.observing_files.timer.confined.bind fun timer => ?_
    rcases session.execute timer invocation.command with ⟨failure | output, after⟩
    · exact .pure _
    · cases invocation.command.isMutating with
      | false => exact .pure _
      | true =>
        refine (confined_saveSession after).bind fun outcome => ?_
        cases outcome <;> exact .pure _

end TrafficMeter.Tool
