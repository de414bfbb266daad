import Mathlib.Data.List.Forall2

/-!
# Outcomes that may be errors

How computations that may fail are taken apart: a success of the whole is a success of each part
(`bind_eq_ok_iff`, `forM_eq_ok_iff`, `mapM_eq_ok_iff`). At the end, the same for optional values that are related
to each other by `Option.Rel`.
-/

namespace TrafficMeter

variable {ε α β : Type}

@[simp]
theorem ok_bind (value : α) (next : α → Except ε β) : (Except.ok value >>= next) = next value := rfl

@[simp]
theorem error_bind (error : ε) (next : α → Except ε β) :
    ((Except.error error : Except ε α) >>= next) = .error error := rfl

@[simp]
theorem pure_eq_ok (value : α) : (pure value : Except ε α) = .ok value := rfl

@[simp]
theorem throw_eq_error (error : ε) : (throw error : Except ε α) = .error error := rfl

@[simp]
theorem map_ok (f : α → β) (value : α) : (Except.ok value : Except ε α).map f = .ok (f value) := rfl

@[simp]
theorem map_error (f : α → β) (error : ε) : (Except.error error : Except ε α).map f = .error error := rfl

/-- Two steps succeed exactly if `first` does and `next` does on its result. -/
theorem bind_eq_ok_iff {first : Except ε α} {next : α → Except ε β} {value : β} :
    first >>= next = .ok value ↔ ∃ a, first = .ok a ∧ next a = .ok value := by
  cases first with
  | ok a => simp
  | error error => simp

/-- A mapped `outcome` has a `value` exactly if `outcome` has one that `f` maps to it. -/
theorem map_eq_ok_iff {outcome : Except ε α} {f : α → β} {value : β} :
    outcome.map f = .ok value ↔ ∃ a, outcome = .ok a ∧ f a = value := by
  cases outcome with
  | ok a => simp
  | error error => simp

/-- Checks that are made one after the other on a `list` all pass exactly if each of them does. -/
theorem forM_eq_ok_iff {check : α → Except ε Unit} {list : List α} :
    list.forM check = .ok () ↔ ∀ a ∈ list, check a = .ok () := by
  induction list with
  | nil => simp [List.forM]
  | cons head rest ih =>
    rw [List.forall_mem_cons, ← ih, List.forM]
    cases check head <;> simp

/-- `results` that are computed one after the other from a `list` are all there exactly if each of them is. -/
theorem mapM_eq_ok_iff {f : α → Except ε β} {list : List α} {results : List β} :
    list.mapM f = .ok results ↔ List.Forall₂ (fun a b => f a = .ok b) list results := by
  induction list generalizing results with
  | nil => cases results <;> simp
  | cons head rest ih =>
    rw [List.mapM_cons, bind_eq_ok_iff]
    constructor
    · rintro ⟨first, hfirst, hrest⟩
      obtain ⟨others, hothers, hresults⟩ := bind_eq_ok_iff.mp hrest
      cases hresults
      exact .cons hfirst (ih.mp hothers)
    · rintro (_ | ⟨hfirst, hothers⟩)
      exact ⟨_, hfirst, by rw [ih.mpr hothers]; rfl⟩

/-- A relation `R` may be replaced by a wider one `S`. -/
theorem rel_imp {R S : α → β → Prop} {found : Option α} {found' : Option β} (h : Option.Rel R found found')
    (himp : ∀ a b, found = some a → R a b → S a b) : Option.Rel S found found' := by
  cases h with
  | some h => exact .some (himp _ _ rfl h)
  | none => exact .none

/-- A value `a` on the left is related to nothing but values. -/
theorem rel_some_left_iff {R : α → β → Prop} {a : α} {found : Option β} :
    Option.Rel R (some a) found ↔ ∃ b, found = some b ∧ R a b := by
  constructor
  · rintro (h | _)
    exact ⟨_, rfl, h⟩
  · rintro ⟨b, rfl, h⟩
    exact .some h

/-- A value `b` on the right is related to nothing but values. -/
theorem rel_some_right_iff {R : α → β → Prop} {b : β} {found : Option α} :
    Option.Rel R found (some b) ↔ ∃ a, found = some a ∧ R a b := by
  constructor
  · rintro (h | _)
    exact ⟨_, rfl, h⟩
  · rintro ⟨a, rfl, h⟩
    exact .some h

/-- A missing value is related to nothing but a missing value. -/
theorem rel_none_left_iff {R : α → β → Prop} {found : Option β} : Option.Rel R none found ↔ found = none := by
  constructor
  · rintro (_ | _)
    rfl
  · rintro rfl
    exact .none

/-- Of two related options both are there or none is. -/
theorem isSome_eq_of_rel {R : α → β → Prop} {found : Option α} {found' : Option β}
    (h : Option.Rel R found found') : found.isSome = found'.isSome := by
  cases h <;> rfl

end TrafficMeter
