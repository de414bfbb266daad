import TrafficMeter.Proofs.Marking

/-!
# The admission envelope of a meter

How many tokens a bucket holds in the middle of a run can be said without following the run. It is the least
of several bounds: what it held at first with all gains since, less all payments, and for every earlier packet
a full bucket at that packet with the gains since then, less the payments since then. Times may go backwards,
so gains are counted between the latest times so far.

- `level_lt_iff_exceeds`: the level of a bucket is below a demand exactly if one of the bounds is;
- `level_lt_iff_overdrawn`: the same at a position of a run, from which the colour of its packet follows.
-/

namespace TrafficMeter

namespace Bucket

/-- A `demand` at `time` is too large for `bucket`, which has made the payments of `marks` since: it exceeds the
first level with all gains, or the capacity, or a full bucket at one of the marks with the gains since that mark.
-/
def Exceeds (bucket : Bucket) (tier : Tier) (marks : List Mark) (time : Nat) (demand : Int) : Prop :=
  bucket.level.toNat + bucket.ticksAt time * bucket.quantum.toNat < demand + volume tier marks ∨
    bucket.capacity.toNat < demand ∨
    ∃ j < marks.length,
      bucket.capacity.toNat +
          ((bucket.ticksAt time : Int) - bucket.ticksAt (latest (marks.take (j + 1)))) *
            bucket.quantum.toNat <
        demand + volume tier (marks.drop j)

/-- One more payment, that of `mark`, raises the demand by what was paid, and the gains since then lower it. A
demand above the capacity is too large whatever was paid. -/
theorem exceeds_concat (bucket : Bucket) (tier : Tier) (marks : List Mark) (mark : Mark) (time : Nat)
    (demand : Int) :
    bucket.Exceeds tier (marks ++ [mark]) time demand ↔
      bucket.capacity.toNat < demand ∨
        bucket.Exceeds tier marks (latest (marks ++ [mark]))
          (demand + (mark.charge tier).toNat -
            ((bucket.ticksAt time : Int) - bucket.ticksAt (latest (marks ++ [mark]))) *
              bucket.quantum.toNat) := by
  -- A window of the longer list starts at an old mark or consists of the new one alone.
  have hold : ∀ j < marks.length, (marks ++ [mark]).take (j + 1) = marks.take (j + 1) ∧
      volume tier ((marks ++ [mark]).drop j) = volume tier (marks.drop j) + (mark.charge tier).toNat := by
    intro j hj
    rw [List.take_append_of_le_length hj, List.drop_append_of_le_length hj.le]
    simp
  have hnew : (marks ++ [mark]).take (marks.length + 1) = marks ++ [mark] ∧
      volume tier ((marks ++ [mark]).drop marks.length) = (mark.charge tier).toNat := by
    rw [List.take_of_length_le (by simp), List.drop_left]
    simp
  constructor
  · rintro (hlevel | hcapacity | ⟨j, hj, hwindow⟩)
    · rw [volume_append, volume_cons, volume_nil] at hlevel
      refine .inr (.inl ?_)
      push_cast at hlevel
      linarith
    · exact .inl hcapacity
    · rw [List.length_append, List.length_singleton] at hj
      rcases Nat.lt_succ_iff_lt_or_eq.mp hj with hj | rfl
      · rw [(hold j hj).1, (hold j hj).2] at hwindow
        refine .inr (.inr (.inr ⟨j, hj, ?_⟩))
        push_cast at hwindow
        linarith
      · rw [hnew.1, hnew.2] at hwindow
        exact .inr (.inr (.inl (by linarith)))
  · rintro (hcapacity | hlevel | hcapacity | ⟨j, hj, hwindow⟩)
    · exact .inr (.inl hcapacity)
    · refine .inl ?_
      rw [volume_append, volume_cons, volume_nil]
      push_cast
      linarith
    · refine .inr (.inr ⟨marks.length, by simp, ?_⟩)
      rw [hnew.1, hnew.2]
      linarith
    · refine .inr (.inr ⟨j, by rw [List.length_append]; omega, ?_⟩)
      rw [(hold j hj).1, (hold j hj).2]
      push_cast
      linarith

end Bucket

namespace Record

/-- The ticks that the bucket of a `tier` has left after a run are those beyond the latest time of the run. -/
theorem ticksAt_after (record : Record) (packets : List Packet) (tier : Tier) (time : Nat) :
    ((record.after packets).bucket tier).ticksAt time =
      (record.bucket tier).ticksAt time - (record.bucket tier).ticksAt (latest (record.marks packets)) := by
  induction packets using List.reverseRecOn generalizing time with
  | nil => simp [after, marks, latest, Bucket.ticksAt]
  | append_singleton packets packet ih =>
    -- A packet from the past finds no ticks left and uses up none.
    have hnow : ((record.after packets).markOf packet).now = packet.now := rfl
    simp only [after_append, marks_append, after, marks]
    rw [bucket_receive, Bucket.ticksAt_spend, Bucket.ticksAt_refill, ih, ih, latest_concat,
      Bucket.ticksAt_max, hnow]
    omega

/-- A run changes neither the capacity nor the quantum of the bucket of a `tier`. -/
theorem capacity_quantum_after (record : Record) (packets : List Packet) (tier : Tier) :
    ((record.after packets).bucket tier).capacity = (record.bucket tier).capacity ∧
      ((record.after packets).bucket tier).quantum = (record.bucket tier).quantum := by
  induction packets using List.reverseRecOn with
  | nil => exact ⟨rfl, rfl⟩
  | append_singleton packets packet ih =>
    simp only [after_append, after, bucket_receive]
    exact ih

/-- A refill at `now` after a run gains the ticks from the latest time of the run on. -/
theorem toNat_level_refill_after (record : Record) (packets : List Packet) (tier : Tier) (now : UInt64) :
    (((record.after packets).bucket tier).refill now).level.toNat =
      min (record.bucket tier).capacity.toNat
        (((record.after packets).bucket tier).level.toNat +
          ((record.bucket tier).ticksAt (max (latest (record.marks packets)) now.toNat) -
            (record.bucket tier).ticksAt (latest (record.marks packets))) *
            (record.bucket tier).quantum.toNat) := by
  obtain ⟨hcapacity, hquantum⟩ := record.capacity_quantum_after packets tier
  rw [Bucket.toNat_level_refill, Bucket.ticks_eq_ticksAt, ticksAt_after, hcapacity, hquantum,
    Bucket.ticksAt_max]
  congr 3
  omega

/-- The `packet` at the end of a run lowers the level of a `tier` by its charge. -/
theorem toNat_level_after_concat (record : Record) (packets : List Packet) (packet : Packet) (tier : Tier) :
    (((record.after (packets ++ [packet])).bucket tier).level.toNat : Int) =
      (((record.after packets).bucket tier).refill packet.now).level.toNat -
        (((record.after packets).markOf packet).charge tier).toNat := by
  have hcovers := (record.after packets).covers_charge packet tier
  have hle := Nat.le_of_not_lt (mt (Bucket.not_covers_iff _ _).mpr (not_not.mpr hcovers))
  simp only [after_append, after]
  rw [bucket_receive, Bucket.toNat_level_spend _ _ hcovers]
  omega

/-- After a run and a refill at `now`, the level of the bucket of a `tier` is below a `demand` exactly if
`demand` exceeds one of the bounds. -/
theorem level_lt_iff_exceeds (record : Record) (packets : List Packet) (tier : Tier) (now : UInt64)
    (demand : Int) :
    ((((record.after packets).bucket tier).refill now).level.toNat : Int) < demand ↔
      (record.bucket tier).Exceeds tier (record.marks packets)
        (max (latest (record.marks packets)) now.toNat) demand := by
  induction packets using List.reverseRecOn generalizing now demand with
  | nil =>
    have hzero : (record.bucket tier).ticksAt (latest []) = 0 := by
      simp [latest, Bucket.ticksAt]
    rw [toNat_level_refill_after, Nat.cast_min, min_lt_iff]
    simp [Bucket.Exceeds, marks, after, hzero, or_comm]
  | append_singleton packets packet ih =>
    have hmarks : record.marks (packets ++ [packet]) =
        record.marks packets ++ [(record.after packets).markOf packet] := by
      simp [marks_append, marks]
    have hlatest : latest (record.marks packets ++ [(record.after packets).markOf packet]) =
        max (latest (record.marks packets)) packet.now.toNat := latest_concat _ _
    -- The level is a minimum, and a minimum is below the demand if the capacity or the old level is.
    rw [toNat_level_refill_after, Nat.cast_min, min_lt_iff, hmarks, Bucket.exceeds_concat, hlatest,
      ← ih packet.now]
    refine or_congr Iff.rfl ?_
    -- Both sides compare the demand with the refilled level of the shorter run, less the charge.
    have hmono := (record.bucket tier).ticksAt_mono
      (le_max_left (max (latest (record.marks packets)) packet.now.toNat) now.toNat)
    push_cast [Nat.cast_sub hmono]
    rw [toNat_level_after_concat]
    constructor <;> intro h <;> linarith

end Record

namespace Bucket

/-- The packet of size `size` at position `k` of a run asks more of the bucket that its tier had at first than
the envelope admits. -/
def Overdrawn (bucket : Bucket) (tier : Tier) (marks : List Mark) (k size : Nat) : Prop :=
  (bucket.level.toNat + bucket.ticksAt (latest (marks.take (k + 1))) * bucket.quantum.toNat : Int) <
      size + volume tier (marks.take k) ∨
    ∃ j ≤ k,
      (bucket.capacity.toNat +
          ((bucket.ticksAt (latest (marks.take (k + 1))) : Int) -
            bucket.ticksAt (latest (marks.take (j + 1)))) * bucket.quantum.toNat : Int) <
        size + volume tier (marks.extract j k)

/-- The envelope at position `k` of a run is that of the marks before it. -/
theorem overdrawn_iff_exceeds (bucket : Bucket) (tier : Tier) (marks : List Mark) {k : Nat}
    (hk : k < marks.length) (size : Nat) :
    bucket.Overdrawn tier marks k size ↔
      bucket.Exceeds tier (marks.take k) (latest (marks.take (k + 1))) size := by
  -- A window that ends before position `k` is the same in the whole list and in its part up to `k`.
  have hwindow : ∀ j < k, (marks.take k).take (j + 1) = marks.take (j + 1) ∧
      (marks.take k).drop j = marks.extract j k := by
    intro j hj
    rw [List.take_take, Nat.min_eq_left hj, List.drop_take]
    exact ⟨rfl, rfl⟩
  have hlength : (marks.take k).length = k := by
    simp [hk.le]
  refine or_congr Iff.rfl ?_
  constructor
  · rintro ⟨j, hj, h⟩
    rcases Nat.lt_or_eq_of_le hj with hj | rfl
    · rw [← (hwindow j hj).1, ← (hwindow j hj).2] at h
      exact .inr ⟨j, hlength.symm ▸ hj, h⟩
    · exact .inl (by simpa using h)
  · rintro (h | ⟨j, hj, h⟩)
    · exact ⟨k, le_rfl, by simpa using h⟩
    · rw [hlength] at hj
      rw [(hwindow j hj).1, (hwindow j hj).2] at h
      exact ⟨j, hj.le, h⟩

end Bucket

namespace Record

/-- When the `packet` at position `k` is received, the refilled bucket of a `tier` is below a `demand` exactly if
`demand` overdraws it. -/
theorem level_lt_iff_overdrawn (record : Record) (packets : List Packet) (tier : Tier) {k : Nat}
    {packet : Packet} (h : packets[k]? = some packet) (demand : Nat) :
    (((record.after (packets.take k)).bucket tier).refill packet.now).level.toNat < demand ↔
      (record.bucket tier).Overdrawn tier (record.marks packets) k demand := by
  have hk : k < (record.marks packets).length := by
    rw [length_marks]
    exact (List.getElem?_eq_some_iff.mp h).1
  have hlatest : latest ((record.marks packets).take (k + 1)) =
      max (latest (record.marks (packets.take k))) packet.now.toNat := by
    rw [take_marks, List.take_add_one, h, Option.toList_some, marks_append]
    exact latest_concat _ _
  rw [Bucket.overdrawn_iff_exceeds _ _ _ hk, hlatest, take_marks, ← level_lt_iff_exceeds, Nat.cast_lt]

/-- The exact envelope of a meter. At every position `k` of every run, the packet is red exactly if it arrives
red or overdraws the peak bucket, and one that is not red is green exactly if it arrives green and does not
overdraw the committed bucket. -/
theorem color_iff_overdrawn (record : Record) (packets : List Packet) (k : Fin packets.length) :
    ∃ mark, (record.marks packets)[k.val]? = some mark ∧ mark.toPacket = packets[k] ∧
      (mark.color = .red ↔
        mark.incoming = .red ∨
          record.peak.Overdrawn .peak (record.marks packets) k mark.size.toNat) ∧
      (mark.color ≠ .red →
        (mark.color = .green ↔
          mark.incoming = .green ∧
            ¬ record.committed.Overdrawn .committed (record.marks packets) k mark.size.toNat)) := by
  have hpacket : packets[k.val]? = some packets[k] := List.getElem?_eq_getElem k.isLt
  refine ⟨(record.after (packets.take k)).markOf packets[k], ?_, rfl, ?_, ?_⟩
  · rw [getElem?_marks, hpacket, Option.map_some]
  · refine ((record.after (packets.take k)).color_receive_eq_red_iff packets[k]).trans ?_
    exact or_congr Iff.rfl (record.level_lt_iff_overdrawn packets .peak hpacket _)
  · intro hred
    refine ((record.after (packets.take k)).color_receive_eq_green_iff packets[k] hred).trans ?_
    exact and_congr Iff.rfl (not_congr (record.level_lt_iff_overdrawn packets .committed hpacket _))

-- One token in ten nanoseconds on both tiers. The third packet finds a refill, the fourth comes with an
-- earlier time and finds none.
example :
    let record : Record :=
      { peak := { period := 10, quantum := 1, capacity := 5, level := 5 }
        committed := { period := 10, quantum := 1, capacity := 3, level := 3 } }
    (record.marks [⟨.green, 3, 0⟩, ⟨.green, 2, 0⟩, ⟨.green, 1, 10⟩, ⟨.green, 1, 5⟩]).map Mark.color =
      [.green, .yellow, .green, .red] := by
  decide

end Record

end TrafficMeter
