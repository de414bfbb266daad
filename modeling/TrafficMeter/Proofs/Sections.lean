import Mathlib.Data.Set.Lattice
import Mathlib.Order.Bounds.Basic
import Mathlib.Order.Interval.Set.Basic
import TrafficMeter.Proofs.Canonical

/-!
# The sections of a value

A value consists of an action reference, a counter if the layout has one, and meters. `Adjoin` says of a list of
ranges that each one starts where the one before it ends. Ranges like this do not overlap
(`Adjoin.pairwise_inter_eq_empty`) and leave nothing out (`Adjoin.iUnion_eq`), so all that is shown of the sections
themselves is that they adjoin (`Layout.adjoin_ranges`) and that their ends are multiples of eight
(`Layout.dvd_of_mem_ranges`).
-/

namespace TrafficMeter

/-- The ranges follow each other without a gap, from a start to an end. -/
def Adjoin : Nat → List (Nat × Nat) → Nat → Prop
  | start, [], stop => start = stop
  | start, range :: rest, stop => range.1 = start ∧ range.1 ≤ range.2 ∧ Adjoin range.2 rest stop

namespace Adjoin

variable {start middle stop : Nat} {ranges others : List (Nat × Nat)}

theorem append (h : Adjoin start ranges middle) (h' : Adjoin middle others stop) :
    Adjoin start (ranges ++ others) stop := by
  induction ranges generalizing start with
  | nil => exact h ▸ h'
  | cons range rest ih => exact ⟨h.1, h.2.1, ih h.2.2⟩

theorem le (h : Adjoin start ranges stop) : start ≤ stop := by
  induction ranges generalizing start with
  | nil => exact Nat.le_of_eq h
  | cons range rest ih =>
    obtain ⟨rfl, hle, hrest⟩ := h
    exact hle.trans (ih hrest)

/-- All `ranges` lie between `start` and `stop`. -/
theorem bounds (h : Adjoin start ranges stop) {range : Nat × Nat} (hrange : range ∈ ranges) :
    start ≤ range.1 ∧ range.1 ≤ range.2 ∧ range.2 ≤ stop := by
  induction ranges generalizing start with
  | nil => cases hrange
  | cons first rest ih =>
    obtain ⟨rfl, hle, hrest⟩ := h
    rcases List.mem_cons.mp hrange with rfl | hmem
    · exact ⟨Nat.le_refl _, hle, hrest.le⟩
    · obtain ⟨hstart, hend⟩ := ih hrest hmem
      exact ⟨hle.trans hstart, hend⟩

/-- No two of the `ranges` overlap. -/
theorem pairwise_inter_eq_empty (h : Adjoin start ranges stop) :
    ranges.Pairwise fun range other => Set.Ico range.1 range.2 ∩ Set.Ico other.1 other.2 = ∅ := by
  induction ranges generalizing start with
  | nil => exact .nil
  | cons range rest ih =>
    obtain ⟨rfl, hle, hrest⟩ := h
    refine .cons (fun other hother => ?_) (ih hrest)
    have hlater : range.2 ≤ other.1 := (hrest.bounds hother).1
    refine Set.eq_empty_of_forall_notMem fun position hposition => ?_
    have hend : position < range.2 := hposition.1.2
    have hstart : other.1 ≤ position := hposition.2.1
    omega

/-- The `ranges` cover all that lies between `start` and `stop`. -/
theorem iUnion_eq (h : Adjoin start ranges stop) :
    ⋃ range ∈ ranges, Set.Ico range.1 range.2 = Set.Ico start stop := by
  induction ranges generalizing start with
  | nil => simp [show start = stop from h]
  | cons range rest ih =>
    obtain ⟨rfl, hle, hrest⟩ := h
    simp only [List.mem_cons, Set.iUnion_iUnion_eq_or_left, ih hrest]
    exact Set.Ico_union_Ico_eq_Ico hle hrest.le

end Adjoin

namespace Layout

variable (layout : Layout)

/-- Where the sections of a value start and end: the action reference, the counter if there is one, and the
meters by slot. -/
def ranges : List (Nat × Nat) :=
  (0, layout.actionLength) :: layout.counterRange.toList ++
    (List.range layout.meters.toNat).map layout.meterRange

/-- The action reference takes as few bytes as it can. -/
theorem isLeast_actionLength :
    IsLeast {length | 8 ∣ length ∧ actionIdLength + layout.actionDataLength.toNat ≤ length}
      layout.actionLength := by
  refine ⟨⟨Nat.dvd_mul_left 8 _, layout.le_actionLength⟩, ?_⟩
  rintro length ⟨hdvd, hle⟩
  rw [actionLength, alignEight]
  omega

theorem adjoin_counterRange :
    Adjoin layout.actionLength layout.counterRange.toList (layout.actionLength + layout.counterLength) := by
  cases hkind : layout.counter with
  | none => simp [counterRange, counterLength, hkind, Adjoin]
  | some kind => simp [counterRange, counterLength, hkind, Adjoin]

/-- The meter of `slot` is followed by that of `slot + 1`. -/
theorem meterOffset_succ (slot : Nat) :
    layout.meterOffset (slot + 1) = layout.meterOffset slot + Record.byteLength := by
  rw [meterOffset, meterOffset, Nat.succ_mul, ← Nat.add_assoc]

/-- The meters of the first `count` slots follow each other. -/
theorem adjoin_meterRanges (count : Nat) :
    Adjoin (layout.meterOffset 0) ((List.range count).map layout.meterRange) (layout.meterOffset count) := by
  induction count with
  | zero => rfl
  | succ count ih =>
    rw [List.range_succ, List.map_append]
    exact ih.append ⟨rfl, Nat.le_add_right _ _, (layout.meterOffset_succ count).symm⟩

/-- The sections follow each other from the start of a value to its end. -/
theorem adjoin_ranges : Adjoin 0 layout.ranges layout.valueLength := by
  have hmeters := layout.adjoin_meterRanges layout.meters.toNat
  rw [show layout.meterOffset 0 = layout.actionLength + layout.counterLength by simp [meterOffset]] at hmeters
  exact ⟨rfl, Nat.zero_le _, layout.adjoin_counterRange.append hmeters⟩

theorem dvd_actionLength : 8 ∣ layout.actionLength :=
  layout.isLeast_actionLength.1.1

theorem dvd_counterLength : 8 ∣ layout.counterLength := by
  cases hkind : layout.counter with
  | none => simp [counterLength, hkind]
  | some kind => cases kind <;> simp [counterLength, hkind, CounterKind.byteLength]

theorem dvd_meterOffset (slot : Nat) : 8 ∣ layout.meterOffset slot := by
  have haction := layout.dvd_actionLength
  have hcounter := layout.dvd_counterLength
  rw [meterOffset, Record.byteLength]
  omega

/-- Every section starts and ends at a multiple of eight. -/
theorem dvd_of_mem_ranges {range : Nat × Nat} (h : range ∈ layout.ranges) : 8 ∣ range.1 ∧ 8 ∣ range.2 := by
  have haction := layout.dvd_actionLength
  simp only [ranges, List.cons_append, List.mem_cons, List.mem_append, Option.mem_toList, List.mem_map] at h
  rcases h with rfl | hcounter | ⟨slot, -, rfl⟩
  · exact ⟨Nat.dvd_zero 8, haction⟩
  · obtain ⟨kind, hkind, rfl⟩ := Option.map_eq_some_iff.mp hcounter
    have hlength := layout.dvd_counterLength
    rw [counterLength_eq hkind] at hlength
    exact ⟨haction, Nat.dvd_add haction hlength⟩
  · exact ⟨layout.dvd_meterOffset slot, Nat.dvd_add (layout.dvd_meterOffset slot) (by decide)⟩

end Layout

end TrafficMeter
