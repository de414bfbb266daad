import Mathlib.Order.Lattice
import TrafficMeter.Proofs.Marking

/-!
# The order of colours

Red is worse than yellow, and yellow is worse than green. A packet gets the best colour that is no better than
the one it arrives with and that the buckets of all tiers that pay for it can pay (`Record.le_color_iff`). So
whether it gets at least some colour is a matter of a few conditions of the form "the refilled bucket covers
the packet", and each of them is easier to meet for a smaller packet, at a later time, and with buckets that
hold more or have more room (`Bucket.AtMost.covers_refill`).

## Main definitions

* `Bucket.AtMost`, `Record.AtMost`: a bucket or record holds no more than another one and has no more room.

## Main results

* `Record.color_markFrom_eq_min`: a packet gets the worse of two colours;
* `Record.AtMost.color_le`: in what the colour of a packet is monotone;
* `Record.marks_respect_order`: both together.
-/

namespace TrafficMeter

namespace Color

/-- How good a colour is: `red` is the worst and `green` the best. -/
def rank : Color → Nat
  | red => 0
  | yellow => 1
  | green => 2

theorem rank_injective : Function.Injective rank := by
  intro color other h
  cases color <;> cases other <;> simp [rank] at h ⊢

/-- Colours are ordered by their `rank`. -/
instance : LinearOrder Color :=
  LinearOrder.lift' rank rank_injective

theorem red_le (color : Color) : red ≤ color := by
  cases color <;> decide

theorem le_green (color : Color) : color ≤ green := by
  cases color <;> decide

theorem yellow_le_iff {color : Color} : yellow ≤ color ↔ color ≠ red := by
  cases color <;> decide

theorem green_le_iff {color : Color} : green ≤ color ↔ color = green := by
  cases color <;> decide

end Color

theorem Tier.forall_iff {P : Tier → Prop} : (∀ tier, P tier) ↔ P .peak ∧ P .committed :=
  ⟨fun h => ⟨h _, h _⟩, fun h tier => by cases tier <;> simp [h]⟩

namespace Bucket

/-- `bucket` has the same pace and the same last tick as `other`, holds at most as many tokens and has room for
at most as many. -/
structure AtMost (bucket other : Bucket) : Prop where
  /-- They gain tokens equally often. -/
  period_eq : bucket.period = other.period
  /-- They gain equally many tokens. -/
  quantum_eq : bucket.quantum = other.quantum
  /-- They have been refilled up to the same time. -/
  stamp_eq : bucket.stamp = other.stamp
  /-- The other bucket has no less room. -/
  capacity_le : bucket.capacity ≤ other.capacity
  /-- The other bucket holds no less. -/
  level_le : bucket.level ≤ other.level

theorem AtMost.refl (bucket : Bucket) : bucket.AtMost bucket :=
  ⟨rfl, rfl, rfl, UInt64.le_refl _, UInt64.le_refl _⟩

variable {bucket other : Bucket} {now now' size size' : UInt64}

/-- No more ticks are due at the earlier time `now` than at `now'`. -/
theorem AtMost.ticks_le (h : bucket.AtMost other) (hnow : now ≤ now') :
    bucket.ticks now ≤ other.ticks now' := by
  have hsame : bucket.ticks now' = other.ticks now' := by
    rw [ticks, ticks, h.stamp_eq, h.period_eq]
  rw [← hsame, ticks_eq_ticksAt, ticks_eq_ticksAt]
  exact bucket.ticksAt_mono (UInt64.le_iff_toNat_le.mp hnow)

/-- A refill at the later time `now'` leaves a bucket no emptier, and neither does a higher level or more room
before it. -/
theorem AtMost.level_refill_le (h : bucket.AtMost other) (hnow : now ≤ now') :
    (bucket.refill now).level ≤ (other.refill now').level := by
  have hcapacity := UInt64.le_iff_toNat_le.mp h.capacity_le
  have hlevel := UInt64.le_iff_toNat_le.mp h.level_le
  have hgain : bucket.ticks now * bucket.quantum.toNat ≤ other.ticks now' * other.quantum.toNat := by
    rw [h.quantum_eq]
    exact Nat.mul_le_mul_right _ (h.ticks_le hnow)
  rw [UInt64.le_iff_toNat_le, toNat_level_refill, toNat_level_refill]
  -- Cutting both sums at the capacities keeps their order, since the capacities have the same order.
  exact min_le_min hcapacity (Nat.add_le_add hlevel hgain)

/-- What `bucket` covers after a refill is covered by `other` too, which is fuller or has more room, also if it
is smaller or comes later. -/
theorem AtMost.covers_refill (h : bucket.AtMost other) (hsize : size' ≤ size) (hnow : now ≤ now')
    (hcovers : (bucket.refill now).covers size) : (other.refill now').covers size' := by
  have hlevel : size ≤ (bucket.refill now).level := by simpa [covers] using hcovers
  have hother : size' ≤ (other.refill now').level :=
    UInt64.le_trans hsize (UInt64.le_trans hlevel (h.level_refill_le hnow))
  simpa [covers] using hother

end Bucket

namespace Record

/-- `record` is at most `other` if the buckets of both tiers are. -/
def AtMost (record other : Record) : Prop :=
  ∀ tier, (record.bucket tier).AtMost (other.bucket tier)

theorem AtMost.refl (record : Record) : record.AtMost record :=
  fun _ => .refl _

variable {record other : Record} {incoming incoming' color : Color} {size size' now now' : UInt64}

/-- A packet gets at least `color` exactly if it arrives with a colour that is no worse, and every bucket that
pays for `color` covers it. -/
theorem le_color_iff :
    color ≤ (record.markFrom incoming size now).1 ↔
      color ≤ incoming ∧ ∀ tier : Tier, tier.pays color → ((record.bucket tier).refill now).covers size := by
  have hmark : record.markFrom incoming size now = record.receive ⟨incoming, size, now⟩ := rfl
  have hred := record.color_receive_eq_red_iff ⟨incoming, size, now⟩
  rw [← Bucket.not_covers_iff] at hred
  rw [hmark, Tier.forall_iff]
  cases color with
  | red => simp [Color.red_le, Tier.pays]
  | yellow => simp [Color.yellow_le_iff, Tier.pays, hred, bucket]
  | green =>
    -- A packet that is not red becomes green if the committed bucket pays too.
    by_cases hcolor : (record.receive ⟨incoming, size, now⟩).1 = .red
    · rw [hcolor]
      refine iff_of_false (by decide) ?_
      rintro ⟨hin, hpeak, -⟩
      rcases hred.mp hcolor with hin' | hpeak'
      · rw [Color.green_le_iff] at hin
        cases hin.symm.trans hin'
      · exact hpeak' (hpeak rfl)
    · have hgreen := record.color_receive_eq_green_iff ⟨incoming, size, now⟩ hcolor
      rw [← Bucket.not_covers_iff, not_not] at hgreen
      have hpeak := (not_or.mp (mt hred.mpr hcolor)).2
      rw [not_not] at hpeak
      simp [Color.green_le_iff, Tier.pays, hgreen, bucket, hpeak]

/-- A packet that arrives with the colour `incoming` gets the worse of `incoming` and the colour that it would
get without one. -/
theorem color_markFrom_eq_min (record : Record) (incoming : Color) (size now : UInt64) :
    (record.markFrom incoming size now).1 = min incoming (record.mark size now).1 := by
  refine eq_of_forall_le_iff fun color => ?_
  rw [le_min_iff, mark, le_color_iff, le_color_iff]
  simp [Color.le_green]

/-- The colour of a packet gets no worse if it arrives with a better colour, if it is smaller, if it comes later
and if the buckets were fuller or have more room. -/
theorem AtMost.color_le (h : record.AtMost other) (hincoming : incoming ≤ incoming') (hsize : size' ≤ size)
    (hnow : now ≤ now') :
    (record.markFrom incoming size now).1 ≤ (other.markFrom incoming' size' now').1 := by
  obtain ⟨hcolor, hcovers⟩ := le_color_iff.mp (le_refl (record.markFrom incoming size now).1)
  refine le_color_iff.mpr ⟨hcolor.trans hincoming, fun tier hpays => ?_⟩
  exact (h tier).covers_refill hsize hnow (hcovers tier hpays)

/-- Marks respect the order of colours, in which red is worse than yellow and yellow is worse than green:

- a packet gets the worse of the colour that it arrives with and the one that it would get without a colour;
- its colour gets no better if the packet is larger, and no worse if it comes later;
- its colour gets no worse if the levels or the capacities of the buckets are raised. -/
theorem marks_respect_order :
    (Color.red < Color.yellow ∧ Color.yellow < Color.green) ∧
    (∀ (record : Record) (incoming : Color) (size now : UInt64),
      (record.markFrom incoming size now).1 = min incoming (record.mark size now).1) ∧
    (∀ (record : Record) (incoming : Color) (size larger now : UInt64), size ≤ larger →
      (record.markFrom incoming larger now).1 ≤ (record.markFrom incoming size now).1) ∧
    (∀ (record : Record) (incoming : Color) (size now later : UInt64), now ≤ later →
      (record.markFrom incoming size now).1 ≤ (record.markFrom incoming size later).1) ∧
    ∀ (record raised : Record) (incoming : Color) (size now : UInt64), record.AtMost raised →
      (record.markFrom incoming size now).1 ≤ (raised.markFrom incoming size now).1 := by
  refine ⟨by decide, color_markFrom_eq_min, ?_, ?_, ?_⟩
  · intro record incoming size larger now hsize
    exact (AtMost.refl record).color_le le_rfl hsize (UInt64.le_refl now)
  · intro record incoming size now later hnow
    exact (AtMost.refl record).color_le le_rfl (UInt64.le_refl size) hnow
  · intro record raised incoming size now hraised
    exact hraised.color_le le_rfl (UInt64.le_refl size) (UInt64.le_refl now)

/-- The committed bucket of `record` is overfull. A packet that is red for its size becomes yellow when the peak
bucket has been refilled, and green in `raised`, whose committed bucket has room for two more tokens. -/
theorem marks_respect_order_overfull :
    let record : Record := ⟨⟨10, 5, 20, 12, 0⟩, ⟨10, 2, 12, 30, 0⟩⟩
    let raised : Record := ⟨record.peak, ⟨10, 2, 14, 30, 0⟩⟩
    (record.markFrom .yellow 12 5).1 = min .yellow (record.mark 12 5).1 ∧
      (record.mark 12 5).1 = .green ∧ (record.markFrom .green 13 5).1 = .red ∧
      (record.markFrom .green 13 10).1 = .yellow ∧ (raised.markFrom .green 13 10).1 = .green ∧
      (record.markFrom .green 13 5).1 ≤ (record.markFrom .green 12 5).1 ∧
      (record.markFrom .green 13 5).1 ≤ (record.markFrom .green 13 10).1 ∧
      record.AtMost raised ∧ (record.markFrom .green 13 10).1 ≤ (raised.markFrom .green 13 10).1 := by
  intro record raised
  obtain ⟨-, hmin, hsize, hnow, hraise⟩ := marks_respect_order
  have hraised : record.AtMost raised := by
    rw [AtMost, Tier.forall_iff]
    exact ⟨.refl _, rfl, rfl, rfl, by decide, by decide⟩
  exact ⟨hmin record .yellow 12 5, by decide, by decide, by decide, by decide,
    hsize record .green 12 13 5 (by decide), hnow record .green 13 5 10 (by decide), hraised,
    hraise record raised .green 13 10 hraised⟩

end Record

end TrafficMeter
