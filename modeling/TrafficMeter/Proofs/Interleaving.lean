import Mathlib.Data.List.Basic
import TrafficMeter.Proofs.Operation

/-!
# Runs that differ in their interleaving

The state of a machine has parts, and every operation concerns some of them. This module relates runs whose
operations are the same for each part, but are interleaved in different ways.

- `answersTo_runWith`: a run, seen from one part, is the run of the operations that concern this part;
- `rearranged_of_filter_eq`: two sequences with the same operations for each part differ by swaps of
  neighbours that have no part in common;
- `Independent.runWith_eq`: such sequences give the same answers and reach the same state, if operations
  without a common part are independent.
-/

namespace TrafficMeter

variable {σ ο ι : Type}

theorem runWith_cons (perform : σ → ο → Except Error Answer × σ) (state : σ) (operation : ο) (rest : List ο) :
    runWith perform state (operation :: rest) =
      ((perform state operation).1 :: (runWith perform (perform state operation).2 rest).1,
        (runWith perform (perform state operation).2 rest).2) := rfl

/-- Those of `answers` that were given to one of the `operations` that `concerns` selects. -/
def answersTo (concerns : ο → Bool) (operations : List ο) (answers : List (Except Error Answer)) :
    List (Except Error Answer) :=
  ((operations.zip answers).filter fun answered => concerns answered.1).map Prod.snd

theorem answersTo_cons_of_pos {concerns : ο → Bool} {operation : ο} (h : concerns operation = true)
    (rest : List ο) (answer : Except Error Answer) (answers : List (Except Error Answer)) :
    answersTo concerns (operation :: rest) (answer :: answers) =
      answer :: answersTo concerns rest answers := by
  simp [answersTo, h]

theorem answersTo_cons_of_neg {concerns : ο → Bool} {operation : ο} (h : concerns operation = false)
    (rest : List ο) (answer : Except Error Answer) (answers : List (Except Error Answer)) :
    answersTo concerns (operation :: rest) (answer :: answers) = answersTo concerns rest answers := by
  simp [answersTo, h]

theorem answersTo_cons_congr {concerns : ο → Bool} {rest rest' : List ο}
    {answers answers' : List (Except Error Answer)}
    (h : answersTo concerns rest answers = answersTo concerns rest' answers') (operation : ο)
    (answer : Except Error Answer) :
    answersTo concerns (operation :: rest) (answer :: answers) =
      answersTo concerns (operation :: rest') (answer :: answers') := by
  cases hconcerns : concerns operation with
  | true => rw [answersTo_cons_of_pos hconcerns, answersTo_cons_of_pos hconcerns, h]
  | false => rw [answersTo_cons_of_neg hconcerns, answersTo_cons_of_neg hconcerns, h]

/-- Neighbours `first` and `second` can be swapped, with their answers, if `concerns` selects at most one of
them. -/
theorem answersTo_swap {concerns : ο → Bool} {first second : ο}
    (h : ¬ (concerns first = true ∧ concerns second = true)) (rest : List ο)
    (answer answer' : Except Error Answer) (answers : List (Except Error Answer)) :
    answersTo concerns (first :: second :: rest) (answer :: answer' :: answers) =
      answersTo concerns (second :: first :: rest) (answer' :: answer :: answers) := by
  cases hfirst : concerns first with
  | true =>
    have hsecond : concerns second = false := by simpa [hfirst] using h
    rw [answersTo_cons_of_pos hfirst, answersTo_cons_of_neg hsecond, answersTo_cons_of_neg hsecond,
      answersTo_cons_of_pos hfirst]
  | false =>
    rw [answersTo_cons_of_neg hfirst]
    refine answersTo_cons_congr ?_ second answer'
    rw [answersTo_cons_of_neg hfirst]

/-- A run and the run of those of its operations that `concerns` selects go in step, as far as a relation `R`
between their states and a `view` of the answers can tell, if the selected operations keep `R` on both sides and
all others keep it on one side. -/
theorem answersTo_runWith {perform : σ → ο → Except Error Answer × σ} {concerns allowed : ο → Bool}
    {R : σ → σ → Prop} {β : Type} (view : Except Error Answer → β)
    (hown : ∀ state other operation, R state other → allowed operation → concerns operation = true →
      view (perform state operation).1 = view (perform other operation).1 ∧
        R (perform state operation).2 (perform other operation).2)
    (hothers : ∀ state other operation, R state other → allowed operation → concerns operation = false →
      R (perform state operation).2 other)
    {state other : σ} (h : R state other) {operations : List ο}
    (hallowed : ∀ operation ∈ operations, allowed operation) :
    (answersTo concerns operations (runWith perform state operations).1).map view =
        (runWith perform other (operations.filter concerns)).1.map view ∧
      R (runWith perform state operations).2 (runWith perform other (operations.filter concerns)).2 := by
  -- By induction on the operations, from any related states.
  induction operations generalizing state other with
  | nil => exact ⟨rfl, h⟩
  | cons operation rest ih =>
    rw [List.forall_mem_cons] at hallowed
    cases hconcerns : concerns operation with
    | true =>
      obtain ⟨hanswer, hnext⟩ := hown state other operation h hallowed.1 hconcerns
      obtain ⟨hrest, hlast⟩ := ih hnext hallowed.2
      rw [List.filter_cons_of_pos hconcerns, runWith_cons, runWith_cons, answersTo_cons_of_pos hconcerns,
        List.map_cons, List.map_cons, hanswer, hrest]
      exact ⟨rfl, hlast⟩
    | false =>
      obtain ⟨hrest, hlast⟩ := ih (hothers state other operation h hallowed.1 hconcerns) hallowed.2
      rw [List.filter_cons_of_neg (by simp [hconcerns]), runWith_cons, answersTo_cons_of_neg hconcerns]
      exact ⟨hrest, hlast⟩

/-- Operations that are not `active` change nothing, so they can be left out of a run. -/
theorem runWith_filter {perform : σ → ο → Except Error Answer × σ} {valid : σ → Prop} {active : ο → Bool}
    {operations : List ο} (hvalid : ∀ state, ∀ operation ∈ operations, valid state →
      valid (perform state operation).2)
    (hidle : ∀ state, ∀ operation ∈ operations, valid state → active operation = false →
      (perform state operation).2 = state)
    {state : σ} (h : valid state) :
    (∀ concerns : ο → Bool, (∀ operation, concerns operation = true → active operation = true) →
        answersTo concerns operations (runWith perform state operations).1 =
          answersTo concerns (operations.filter active)
            (runWith perform state (operations.filter active)).1) ∧
      (runWith perform state operations).2 = (runWith perform state (operations.filter active)).2 := by
  -- By induction on the operations, from any valid state.
  induction operations generalizing state with
  | nil => exact ⟨fun _ _ => rfl, rfl⟩
  | cons operation rest ih =>
    have ih {state : σ} := @ih (fun state other hother => hvalid state other (List.mem_cons_of_mem _ hother))
      (fun state other hother => hidle state other (List.mem_cons_of_mem _ hother)) state
    cases hactive : active operation with
    | true =>
      obtain ⟨hrest, hlast⟩ := ih (hvalid state operation List.mem_cons_self h)
      rw [List.filter_cons_of_pos hactive]
      refine ⟨fun concerns himp => ?_, hlast⟩
      rw [runWith_cons, runWith_cons]
      exact answersTo_cons_congr (hrest concerns himp) operation _
    | false =>
      -- The operation leaves the state alone, and nothing that is asked about concerns it.
      obtain ⟨hrest, hlast⟩ := ih h
      rw [List.filter_cons_of_neg (by simp [hactive]), runWith_cons,
        hidle state operation List.mem_cons_self h hactive]
      refine ⟨fun concerns himp => ?_, hlast⟩
      have hconcerns : concerns operation = false := by
        rw [← Bool.not_eq_true]
        intro hconcerns
        cases hactive.symm.trans (himp operation hconcerns)
      rw [answersTo_cons_of_neg hconcerns, hrest concerns himp]

section Rearrangement

variable (concerns : ι → ο → Bool)

/-- There is no part that `operation` and `other` both concern. -/
def Apart (operation other : ο) : Prop :=
  ∀ part, ¬ (concerns part operation = true ∧ concerns part other = true)

/-- One sequence comes from another by swaps of neighbours that have no part in common. -/
inductive Rearranged : List ο → List ο → Prop
  | refl (operations : List ο) : Rearranged operations operations
  | swap (first second : ο) (rest : List ο) (h : Apart concerns first second) :
      Rearranged (first :: second :: rest) (second :: first :: rest)
  | cons (first : ο) {rest rest' : List ο} (h : Rearranged rest rest') :
      Rearranged (first :: rest) (first :: rest')
  | trans {operations middle operations' : List ο} (h : Rearranged operations middle)
      (h' : Rearranged middle operations') : Rearranged operations operations'

variable {concerns}

theorem Apart.symm {operation other : ο} (h : Apart concerns operation other) :
    Apart concerns other operation :=
  fun part hboth => h part hboth.symm

theorem Rearranged.perm {operations operations' : List ο} (h : Rearranged concerns operations operations') :
    operations.Perm operations' := by
  induction h with
  | refl operations => exact .refl _
  | swap first second rest _ => exact .swap second first rest
  | cons first _ ih => exact ih.cons first
  | trans _ _ ih ih' => exact ih.trans ih'

/-- An `operation` can be moved behind those `before` it with which it has no part in common. -/
theorem rearranged_move {operation : ο} {before after : List ο}
    (h : ∀ other ∈ before, Apart concerns operation other) :
    Rearranged concerns (operation :: (before ++ after)) (before ++ operation :: after) := by
  induction before with
  | nil => exact .refl _
  | cons first rest ih =>
    rw [List.forall_mem_cons] at h
    exact .trans (.swap operation first _ h.1) (.cons first (ih h.2))

/-- Of two sequences with the same operations for each part, the second also has the first `operation` of the
first. Nothing before it shares a part with it, and the sequences without it have the same operations for each
part. -/
theorem exists_split_of_filter_eq {operation : ο} {rest operations' : List ο}
    (hpart : ∃ part, concerns part operation = true)
    (h : ∀ part, (operation :: rest).filter (concerns part) = operations'.filter (concerns part)) :
    ∃ before after, operations' = before ++ operation :: after ∧
      (∀ other ∈ before, Apart concerns operation other) ∧
      ∀ part, rest.filter (concerns part) = (before ++ after).filter (concerns part) := by
  obtain ⟨part, hpart⟩ := hpart
  have hmem : operation ∈ operations' := by
    have hself : operation ∈ operation :: rest := List.mem_cons_self
    have hfilter := List.mem_filter.mpr ⟨hself, hpart⟩
    rw [h part] at hfilter
    exact (List.mem_filter.mp hfilter).1
  obtain ⟨before, after, rfl, hfirst⟩ := List.eq_append_cons_of_mem hmem
  -- It comes first for each of its parts, and it is taken where it occurs first.
  have hbefore {part : ι} (hpart : concerns part operation = true) :
      before.filter (concerns part) = [] := by
    have heq := h part
    rw [List.filter_cons_of_pos hpart, List.filter_append, List.filter_cons_of_pos hpart] at heq
    cases hfilter : before.filter (concerns part) with
    | nil => rfl
    | cons other others =>
      rw [hfilter, List.cons_append, List.cons.injEq] at heq
      have hother : other ∈ before.filter (concerns part) := hfilter ▸ List.mem_cons_self
      exact absurd (List.mem_filter.mp hother).1 (heq.1 ▸ hfirst)
  refine ⟨before, after, rfl, ?_, fun part => ?_⟩
  · rintro other hother part ⟨hoperation, hconcerns⟩
    have hfilter := List.mem_filter.mpr ⟨hother, hconcerns⟩
    rw [hbefore hoperation] at hfilter
    cases hfilter
  · have heq := h part
    cases hpart : concerns part operation with
    | true =>
      rw [List.filter_cons_of_pos hpart, List.filter_append, hbefore hpart,
        List.filter_cons_of_pos hpart] at heq
      rw [List.filter_append, hbefore hpart]
      exact List.tail_eq_of_cons_eq heq
    | false =>
      rw [List.filter_cons_of_neg (by simp [hpart]), List.filter_append,
        List.filter_cons_of_neg (by simp [hpart])] at heq
      rw [heq, List.filter_append]

/-- If `operations` and `operations'` are the same for each part, then they are rearrangements of each other,
provided that no operation is without a part. -/
theorem rearranged_of_filter_eq {operations operations' : List ο}
    (hparts : ∀ operation ∈ operations, ∃ part, concerns part operation = true)
    (hparts' : ∀ operation ∈ operations', ∃ part, concerns part operation = true)
    (h : ∀ part, operations.filter (concerns part) = operations'.filter (concerns part)) :
    Rearranged concerns operations operations' := by
  -- The first operation is moved in the second sequence to its front, and the rest follows by induction.
  induction operations generalizing operations' with
  | nil =>
    have hnil : operations' = [] := by
      refine List.eq_nil_iff_forall_not_mem.mpr fun operation hmem => ?_
      obtain ⟨part, hpart⟩ := hparts' operation hmem
      have hfilter := List.mem_filter.mpr ⟨hmem, hpart⟩
      rw [← h part] at hfilter
      cases hfilter
    rw [hnil]
    exact .refl _
  | cons operation rest ih =>
    rw [List.forall_mem_cons] at hparts
    obtain ⟨before, after, rfl, hapart, hrest⟩ := exists_split_of_filter_eq hparts.1 h
    have hothers : ∀ other ∈ before ++ after, ∃ part, concerns part other = true := by
      intro other hother
      rw [List.mem_append] at hother
      exact hparts' other (List.mem_append.mpr (hother.imp_right (List.mem_cons_of_mem _)))
    exact .trans (.cons operation (ih hparts.2 hothers hrest)) (rearranged_move hapart)

/-- Operations without a common part do not get in each other's way, as long as they are `allowed` and start from
a `valid` state. -/
structure Independent (perform : σ → ο → Except Error Answer × σ) (concerns : ι → ο → Bool) (valid : σ → Prop)
    (allowed : ο → Prop) : Prop where
  /-- Valid states stay valid. -/
  valid_perform {state : σ} {operation : ο} :
    valid state → allowed operation → valid (perform state operation).2
  /-- An operation without any part changes nothing. -/
  idle {state : σ} {operation : ο} :
    valid state → allowed operation → (∀ part, concerns part operation = false) →
      (perform state operation).2 = state
  /-- What an operation answers does not depend on another one before it. -/
  answer_eq {state : σ} {first second : ο} {part part' : ι} :
    valid state → allowed first → allowed second → Apart concerns first second → concerns part first = true →
      concerns part' second = true → (perform (perform state first).2 second).1 = (perform state second).1
  /-- Operations commute. -/
  commute {state : σ} {first second : ο} {part part' : ι} :
    valid state → allowed first → allowed second → Apart concerns first second → concerns part first = true →
      concerns part' second = true →
        (perform (perform state first).2 second).2 = (perform (perform state second).2 first).2

/-- If `operations'` are rearranged `operations`, then they give the same answers for each part and reach the
same state. -/
theorem Rearranged.runWith {perform : σ → ο → Except Error Answer × σ} {valid : σ → Prop} {allowed : ο → Prop}
    (hind : Independent perform concerns valid allowed) {operations operations' : List ο}
    (h : Rearranged concerns operations operations') (hallowed : ∀ operation ∈ operations, allowed operation)
    (hparts : ∀ operation ∈ operations, ∃ part, concerns part operation = true) {state : σ}
    (hstate : valid state) :
    (∀ part, answersTo (concerns part) operations (TrafficMeter.runWith perform state operations).1 =
        answersTo (concerns part) operations' (TrafficMeter.runWith perform state operations').1) ∧
      (TrafficMeter.runWith perform state operations).2 =
        (TrafficMeter.runWith perform state operations').2 := by
  induction h generalizing state with
  | refl operations => exact ⟨fun _ => rfl, rfl⟩
  | swap first second rest hapart =>
    simp only [List.forall_mem_cons] at hallowed hparts
    obtain ⟨hfirst, hsecond, -⟩ := hallowed
    obtain ⟨⟨part, hpart⟩, ⟨part', hpart'⟩, -⟩ := hparts
    -- Neither answer depends on the order of the two, nor does the state behind them.
    have hone := hind.answer_eq hstate hfirst hsecond hapart hpart hpart'
    have hother := hind.answer_eq hstate hsecond hfirst hapart.symm hpart' hpart
    have hmiddle := hind.commute hstate hfirst hsecond hapart hpart hpart'
    constructor
    · intro part
      simp only [runWith_cons, hone, hother, hmiddle]
      exact answersTo_swap (hapart part) _ _ _ _
    · simp only [runWith_cons, hmiddle]
  | cons first _ ih =>
    rw [List.forall_mem_cons] at hallowed hparts
    obtain ⟨hrest, hlast⟩ := ih hallowed.2 hparts.2 (hind.valid_perform hstate hallowed.1)
    rw [runWith_cons, runWith_cons]
    exact ⟨fun part => answersTo_cons_congr (hrest part) first _, hlast⟩
  | trans hfirst _ ih ih' =>
    obtain ⟨hanswers, hlast⟩ := ih hallowed hparts hstate
    -- The middle sequence has the same operations, so they are allowed and have parts as well.
    have hmem {operation : ο} := (hfirst.perm.mem_iff (a := operation)).mpr
    obtain ⟨hanswers', hlast'⟩ := ih' (fun operation h => hallowed operation (hmem h))
      (fun operation h => hparts operation (hmem h)) hstate
    exact ⟨fun part => (hanswers part).trans (hanswers' part), hlast.trans hlast'⟩

/-- If `operations` and `operations'` are the same for each part, then they give the same answers for each part
and reach the same state. -/
theorem Independent.runWith_eq {perform : σ → ο → Except Error Answer × σ} {valid : σ → Prop}
    {allowed : ο → Prop} (hind : Independent perform concerns valid allowed) {operations operations' : List ο}
    (hallowed : ∀ operation ∈ operations, allowed operation)
    (hallowed' : ∀ operation ∈ operations', allowed operation)
    (h : ∀ part, operations.filter (concerns part) = operations'.filter (concerns part)) {state : σ}
    (hstate : valid state) :
    (∀ part, answersTo (concerns part) operations (runWith perform state operations).1 =
        answersTo (concerns part) operations' (runWith perform state operations').1) ∧
      (runWith perform state operations).2 = (runWith perform state operations').2 := by
  classical
  -- Operations without any part are left out first.
  let active (operation : ο) : Bool := decide (∃ part, concerns part operation = true)
  have hactive {operation : ο} : active operation = true ↔ ∃ part, concerns part operation = true :=
    decide_eq_true_iff
  have hparts (operations : List ο) : ∀ operation ∈ operations.filter active,
      ∃ part, concerns part operation = true :=
    fun operation hmem => hactive.mp (List.mem_filter.mp hmem).2
  have hfilter (operations : List ο) (part : ι) :
      (operations.filter active).filter (concerns part) = operations.filter (concerns part) := by
    rw [List.filter_filter]
    refine List.filter_congr fun operation _ => ?_
    cases hpart : concerns part operation with
    | true => rw [hactive.mpr ⟨part, hpart⟩, Bool.and_self]
    | false => rw [Bool.false_and]
  have hidle {state : σ} {operation : ο} (hoperation : allowed operation) (hstate : valid state)
      (hnone : active operation = false) : (perform state operation).2 = state := by
    refine hind.idle hstate hoperation fun part => Bool.eq_false_iff.mpr fun hpart => ?_
    rw [hactive.mpr ⟨part, hpart⟩] at hnone
    cases hnone
  obtain ⟨hanswers, hlast⟩ :=
    runWith_filter (fun _ operation hmem hstate => hind.valid_perform hstate (hallowed operation hmem))
      (fun _ operation hmem => hidle (hallowed operation hmem)) hstate
  obtain ⟨hanswers', hlast'⟩ :=
    runWith_filter (fun _ operation hmem hstate => hind.valid_perform hstate (hallowed' operation hmem))
      (fun _ operation hmem => hidle (hallowed' operation hmem)) hstate
  have hrearranged := rearranged_of_filter_eq (hparts operations) (hparts operations') fun part => by
    rw [hfilter, hfilter, h part]
  obtain ⟨hsame, hstates⟩ := hrearranged.runWith hind
    (fun operation hmem => hallowed operation (List.mem_of_mem_filter hmem)) (hparts operations) hstate
  refine ⟨fun part => ?_, hlast.trans (hstates.trans hlast'.symm)⟩
  have himp (operation : ο) (hpart : concerns part operation = true) := hactive.mpr ⟨part, hpart⟩
  rw [hanswers _ himp, hsame, hanswers' _ himp]

end Rearrangement

/-- If `first` and `second` do not change each other's answers, then they commute if they do so where both
succeed, since a refused operation changes nothing in either order. -/
theorem commute_of_fst_eq {perform : σ → ο → Except Error Answer × σ} {state : σ} {first second : ο}
    (hrefused : ∀ state operation error, (perform state operation).1 = .error error →
      (perform state operation).2 = state)
    (hsecond : (perform (perform state first).2 second).1 = (perform state second).1)
    (hfirst : (perform (perform state second).2 first).1 = (perform state first).1)
    (hok : ∀ answer answer', (perform state first).1 = .ok answer → (perform state second).1 = .ok answer' →
      (perform (perform state first).2 second).2 = (perform (perform state second).2 first).2) :
    (perform (perform state first).2 second).2 = (perform (perform state second).2 first).2 := by
  cases hanswer : (perform state first).1 with
  | error error =>
    rw [hrefused _ _ _ hanswer, hrefused _ _ _ (hfirst.trans hanswer)]
  | ok answer =>
    cases hanswer' : (perform state second).1 with
    | error error =>
      rw [hrefused _ _ _ hanswer', hrefused _ _ _ (hsecond.trans hanswer')]
    | ok answer' => exact hok answer answer' hanswer hanswer'

end TrafficMeter
