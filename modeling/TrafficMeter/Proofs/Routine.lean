import TrafficMeter.Proofs.Outcome
import TrafficMeter.Routine

/-!
# What routines do

`Routine.perform` keeps the state that was reached at an error, and `Routine.attempt` forgets it. For most
routines nothing is lost by this: they are `Atomic`, that is, they leave their state alone if they fail. Then
`perform` is `attempt` with the old state put back (`Atomic.perform_eq_settle`), and what is shown of `attempt`
holds of routines that are run for good.

A routine is atomic if it makes its checks first and cannot fail once it has begun to write. This is how the
lemmas put it together: `ReadOnly` routines may come before an atomic one (`ReadOnly.bind`), and `Total` ones
after it (`Atomic.bind`).
-/

namespace TrafficMeter

/-- The answer of an attempt on `state` and the state after it, where `state` is put back if it was refused. -/
def settle {σ α : Type} (state : σ) : Except Error (α × σ) → Except Error α × σ
  | .ok (answer, next) => (.ok answer, next)
  | .error error => (.error error, state)

/-- What `P` says of `state` and of the state after a successful attempt, it says of the state after any
attempt. -/
theorem settle_preserves {σ α : Type} {P : σ → Prop} {state : σ} {outcome : Except Error (α × σ)}
    (h : P state) (hok : ∀ answer next, outcome = .ok (answer, next) → P next) :
    P (settle state outcome).2 := by
  cases outcome with
  | ok result => exact hok _ _ rfl
  | error error => exact h

/-- A refused attempt leaves `state` as it was. -/
theorem settle_eq_self {σ α : Type} {state : σ} {outcome : Except Error (α × σ)} {error : Error}
    (h : (settle state outcome).1 = .error error) : (settle state outcome).2 = state := by
  cases outcome with
  | ok result => cases h
  | error _ => rfl

namespace Routine

variable {σ τ α β : Type} {routine : Routine σ α} {next : α → Routine σ β} {state reached : σ} {answer : α}
  {error : Error}

/-! ### One step after the other -/

@[simp]
theorem perform_pure (answer : α) (state : σ) :
    (pure answer : Routine σ α).perform state = (.ok answer, state) := rfl

@[simp]
theorem perform_get (state : σ) : (get : Routine σ σ).perform state = (.ok state, state) := rfl

@[simp]
theorem perform_set (state reached : σ) :
    (set reached : Routine σ PUnit).perform state = (.ok (), reached) := rfl

@[simp]
theorem perform_modify (f : σ → σ) (state : σ) :
    (modify f : Routine σ PUnit).perform state = (.ok (), f state) := rfl

@[simp]
theorem perform_throw (error : Error) (state : σ) :
    (throw error : Routine σ α).perform state = (.error error, state) := rfl

@[simp]
theorem perform_lift (outcome : Except Error α) (state : σ) :
    (liftM outcome : Routine σ α).perform state = (outcome, state) := rfl

/-- After a success of `routine`, `next` goes on from the state that was reached. -/
theorem perform_bind_of_ok (h : routine.perform state = (.ok answer, reached)) :
    (routine >>= next).perform state = (next answer).perform reached := by
  have hrun : routine.run.run state = pure (.ok answer, reached) := h
  simp [perform, ExceptT.run_bind, StateT.run_bind, hrun]

/-- After a failure of `routine`, there is nothing more. -/
theorem perform_bind_of_error (h : routine.perform state = (.error error, reached)) :
    (routine >>= next).perform state = (.error error, reached) := by
  have hrun : routine.run.run state = pure (.error error, reached) := h
  simp [perform, ExceptT.run_bind, StateT.run_bind, hrun]

@[simp]
theorem perform_get_bind (next : σ → Routine σ β) (state : σ) :
    (get >>= next : Routine σ β).perform state = (next state).perform state := rfl

@[simp]
theorem perform_set_bind (reached : σ) (next : PUnit → Routine σ β) (state : σ) :
    (set reached >>= next : Routine σ β).perform state = (next ()).perform reached := rfl

/-- A routine with its answer changed by `f` reaches the same state. -/
theorem perform_map (f : α → β) (routine : Routine σ α) (state : σ) :
    (f <$> routine).perform state = ((routine.perform state).1.map f, (routine.perform state).2) := by
  rcases h : routine.perform state with ⟨error | answer, reached⟩
  · have hrun : routine.run.run state = pure (.error error, reached) := h
    simp [perform, hrun]
  · have hrun : routine.run.run state = pure (.ok answer, reached) := h
    simp [perform, hrun]

/-! ### Attempts -/

theorem attempt_of_ok (h : routine.perform state = (.ok answer, reached)) :
    routine.attempt state = .ok (answer, reached) := by
  rw [attempt, h]

theorem attempt_of_error (h : routine.perform state = (.error error, reached)) :
    routine.attempt state = .error error := by
  rw [attempt, h]

@[simp]
theorem attempt_pure (answer : α) (state : σ) :
    (pure answer : Routine σ α).attempt state = .ok (answer, state) := rfl

@[simp]
theorem attempt_get (state : σ) : (get : Routine σ σ).attempt state = .ok (state, state) := rfl

@[simp]
theorem attempt_set (state reached : σ) :
    (set reached : Routine σ PUnit).attempt state = .ok ((), reached) := rfl

@[simp]
theorem attempt_modify (f : σ → σ) (state : σ) :
    (modify f : Routine σ PUnit).attempt state = .ok ((), f state) := rfl

@[simp]
theorem attempt_throw (error : Error) (state : σ) :
    (throw error : Routine σ α).attempt state = .error error := rfl

@[simp]
theorem attempt_lift (outcome : Except Error α) (state : σ) :
    (liftM outcome : Routine σ α).attempt state = outcome.map fun answer => (answer, state) := by
  cases outcome <;> rfl

/-- Attempts follow each other as computations that hand on their state. -/
@[simp]
theorem attempt_bind (routine : Routine σ α) (next : α → Routine σ β) (state : σ) :
    (routine >>= next).attempt state =
      routine.attempt state >>= fun result => (next result.1).attempt result.2 := by
  rcases h : routine.perform state with ⟨error | answer, reached⟩
  · rw [attempt_of_error h, attempt_of_error (perform_bind_of_error h), error_bind]
  · rw [attempt_of_ok h, ok_bind, attempt, attempt, perform_bind_of_ok h]

@[simp]
theorem attempt_map (f : α → β) (routine : Routine σ α) (state : σ) :
    (f <$> routine).attempt state = (do
      let result ← routine.attempt state
      return (f result.1, result.2)) := by
  rw [attempt, attempt, perform_map]
  rcases routine.perform state with ⟨error | answer, reached⟩ <;> rfl

theorem attempt_map_unit (answer : β) (routine : Routine σ Unit) (state : σ) :
    ((fun _ => answer) <$> routine).attempt state = (do return (answer, ← routine.after state)) := by
  rw [attempt_map, after]
  cases routine.attempt state <;> rfl

/-! ### Routines that change nothing when they fail -/

/-- `routine` leaves every state alone, whether or not it fails. -/
def ReadOnly (routine : Routine σ α) : Prop :=
  ∀ state, (routine.perform state).2 = state

/-- `routine` never fails. -/
def Total (routine : Routine σ α) : Prop :=
  ∀ state, ∃ answer reached, routine.perform state = (.ok answer, reached)

/-- `routine` leaves every state alone on which it fails. -/
def Atomic (routine : Routine σ α) : Prop :=
  ∀ state error reached, routine.perform state = (.error error, reached) → reached = state

theorem readOnly_get : (get : Routine σ σ).ReadOnly :=
  fun _ => rfl

theorem readOnly_lift (outcome : Except Error α) : (liftM outcome : Routine σ α).ReadOnly :=
  fun _ => rfl

theorem total_pure (answer : α) : (pure answer : Routine σ α).Total :=
  fun state => ⟨answer, state, rfl⟩

theorem total_set (reached : σ) : (set reached : Routine σ PUnit).Total :=
  fun _ => ⟨(), reached, rfl⟩

theorem total_modify (f : σ → σ) : (modify f : Routine σ PUnit).Total :=
  fun state => ⟨(), f state, rfl⟩

theorem Total.bind (h : routine.Total) (hnext : ∀ answer, (next answer).Total) : (routine >>= next).Total := by
  intro state
  obtain ⟨answer, reached, hperform⟩ := h state
  obtain ⟨last, final, hlast⟩ := hnext answer reached
  exact ⟨last, final, (perform_bind_of_ok hperform).trans hlast⟩

/-- A loop cannot fail if its `body` cannot. -/
theorem total_forM {body : α → Routine σ PUnit} (h : ∀ a, (body a).Total) (list : List α) :
    (list.forM body).Total := by
  induction list with
  | nil => exact total_pure _
  | cons head rest ih => exact (h head).bind fun _ => ih

theorem Total.atomic (h : routine.Total) : routine.Atomic := by
  intro state error reached hperform
  obtain ⟨answer, final, hok⟩ := h state
  rw [hok] at hperform
  cases hperform

/-- A `routine` that only reads may come before an atomic one. -/
theorem ReadOnly.bind (h : routine.ReadOnly) (hnext : ∀ answer, (next answer).Atomic) :
    (routine >>= next).Atomic := by
  intro state error reached hperform
  have hstate := h state
  rcases hfirst : routine.perform state with ⟨failure | answer, middle⟩
  · rw [hfirst] at hstate
    rw [perform_bind_of_error hfirst] at hperform
    cases hperform
    exact hstate
  · rw [hfirst] at hstate
    cases hstate
    rw [perform_bind_of_ok hfirst] at hperform
    exact hnext answer _ _ _ hperform

/-- What comes `next` after an atomic `routine` must not fail. -/
theorem Atomic.bind (h : routine.Atomic) (hnext : ∀ answer, (next answer).Total) :
    (routine >>= next).Atomic := by
  intro state error reached hperform
  rcases hfirst : routine.perform state with ⟨failure | answer, middle⟩
  · rw [perform_bind_of_error hfirst] at hperform
    cases hperform
    exact h _ _ _ hfirst
  · obtain ⟨last, final, hlast⟩ := hnext answer middle
    rw [perform_bind_of_ok hfirst, hlast] at hperform
    cases hperform

theorem Atomic.map (h : routine.Atomic) (f : α → β) : (f <$> routine).Atomic := by
  intro state error reached hperform
  rw [perform_map] at hperform
  rcases hfirst : routine.perform state with ⟨failure | answer, middle⟩
  · rw [hfirst] at hperform
    cases hperform
    exact h _ _ _ hfirst
  · rw [hfirst] at hperform
    cases hperform

/-- To perform an atomic `routine` is to attempt it and to put `state` back if it was refused. -/
theorem Atomic.perform_eq_settle (h : routine.Atomic) (state : σ) :
    routine.perform state = settle state (routine.attempt state) := by
  rcases hperform : routine.perform state with ⟨error | answer, reached⟩
  · rw [attempt_of_error hperform, h _ _ _ hperform]
    rfl
  · rw [attempt_of_ok hperform]
    rfl

/-- Routines that do the same on every state are the same. -/
theorem ext {first second : Routine σ α} (h : ∀ state, first.perform state = second.perform state) :
    first = second :=
  funext h

/-! ### Parts of a state -/

variable (find : σ → Except Error τ) (put : σ → τ → σ) {part : τ}

/-- The part that `routine` reached is written back by `put`, whether or not it failed. -/
theorem perform_onPart_of_ok (h : find state = .ok part) (routine : Routine τ α) :
    (routine.onPart find put).perform state =
      ((routine.perform part).1, put state (routine.perform part).2) := by
  rw [onPart, perform_get_bind, h]
  rfl

/-- Where the part is missing, nothing is done. -/
theorem perform_onPart_of_error (h : find state = .error error) (routine : Routine τ α) :
    (routine.onPart find put).perform state = (.error error, state) := by
  rw [onPart, perform_get_bind, h]
  rfl

end Routine

end TrafficMeter
