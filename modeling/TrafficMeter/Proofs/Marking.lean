import TrafficMeter.Record.Basic
import Mathlib.Data.List.Induction
import Mathlib.Tactic.Linarith

/-!
# Runs of a meter

A run hands packets to one record, one after the other. The times of the packets may come in any order. This
module fixes what a run is and says once, for both tiers, what a single packet does to a bucket:

- `bucket_receive`: the bucket is refilled and then pays for the packet, if its tier pays for the colour;
- `color_receive_eq_red_iff` and `color_receive_eq_green_iff`: which levels decide the colour;
- `ticksAt_refill`: after a refill only the ticks beyond it are left.
-/

namespace TrafficMeter

/-- A packet as it reaches a meter. -/
structure Packet where
  /-- The colour it arrives with, green if it has none. -/
  incoming : Color
  /-- Its size in tokens. -/
  size : UInt64
  /-- The time at which it is metered. -/
  now : UInt64
deriving DecidableEq, Repr

/-- A packet with the colour that a meter gave it. -/
structure Mark extends Packet where
  /-- The colour it leaves with. -/
  color : Color
deriving DecidableEq, Repr

/-- The bucket of a tier pays for the packets that leave with this colour. -/
def Tier.pays : Tier → Color → Bool
  | peak, color => color != .red
  | committed, color => color == .green

/-- What the bucket of `tier` paid for the packet of `mark`. -/
def Mark.charge (mark : Mark) (tier : Tier) : UInt64 :=
  if tier.pays mark.color then mark.size else 0

/-- What the bucket of `tier` paid for all packets of `marks`. -/
def volume (tier : Tier) (marks : List Mark) : Nat :=
  (marks.map fun mark => (mark.charge tier).toNat).sum

/-- The latest time among the packets of `marks`, or zero if there are none. -/
def latest (marks : List Mark) : Nat :=
  (marks.map fun mark => mark.now.toNat).foldl max 0

@[simp]
theorem volume_nil (tier : Tier) : volume tier [] = 0 := rfl

@[simp]
theorem volume_cons (tier : Tier) (mark : Mark) (marks : List Mark) :
    volume tier (mark :: marks) = (mark.charge tier).toNat + volume tier marks := by
  simp [volume]

/-- What a `tier` pays for `early` and `late` marks adds up. -/
@[simp]
theorem volume_append (tier : Tier) (early late : List Mark) :
    volume tier (early ++ late) = volume tier early + volume tier late := by
  simp [volume]

/-- One more `mark` moves the latest time to its own, unless that was passed before. -/
@[simp]
theorem latest_concat (marks : List Mark) (mark : Mark) :
    latest (marks ++ [mark]) = max (latest marks) mark.now.toNat := by
  simp [latest]

namespace Bucket

/-- The whole periods from the stamp of `bucket` to `time`, of which there are none if `time` is not after the
stamp or if the period is zero. -/
def ticksAt (bucket : Bucket) (time : Nat) : Nat :=
  (time - bucket.stamp.toNat) / bucket.period.toNat

/-- The ticks that a refill at `now` counts are those at `now`. -/
theorem ticks_eq_ticksAt (bucket : Bucket) (now : UInt64) :
    bucket.ticks now = bucket.ticksAt now.toNat := rfl

/-- Ticks accumulate with time. -/
theorem ticksAt_mono (bucket : Bucket) : Monotone bucket.ticksAt := fun _ _ h =>
  Nat.div_le_div_right (Nat.sub_le_sub_right h _)

/-- The ticks up to the later of `s` and `t` are the larger of their two numbers. -/
theorem ticksAt_max (bucket : Bucket) (s t : Nat) :
    bucket.ticksAt (max s t) = max (bucket.ticksAt s) (bucket.ticksAt t) :=
  bucket.ticksAt_mono.map_max

/-- A refill at `now` uses up the ticks until `now`. Those that are left until `time` lie beyond it. -/
theorem ticksAt_refill (bucket : Bucket) (now : UInt64) (time : Nat) :
    (bucket.refill now).ticksAt time = bucket.ticksAt time - bucket.ticksAt now.toNat := by
  have hperiod : (bucket.refill now).period = bucket.period := rfl
  -- The stamp moves by whole periods, so the rest of a period is not lost in the division.
  rw [ticksAt, hperiod, toNat_stamp_refill, ← Nat.sub_sub, Nat.mul_comm, Nat.sub_mul_div]
  rfl

/-- Spending leaves the ticks until any `time` alone. -/
@[simp]
theorem ticksAt_spend (bucket : Bucket) (size : UInt64) (time : Nat) :
    (bucket.spend size).ticksAt time = bucket.ticksAt time := rfl

/-- A `bucket` that covers a packet of `size` loses as many tokens when it pays. -/
theorem toNat_level_spend (bucket : Bucket) (size : UInt64) (h : bucket.covers size) :
    (bucket.spend size).level.toNat = bucket.level.toNat - size.toNat := by
  have hle : size ≤ bucket.level := by simpa [covers] using h
  exact UInt64.toNat_sub_of_le _ _ hle

/-- Spending nothing leaves `bucket` as it is. -/
@[simp]
theorem spend_zero (bucket : Bucket) : bucket.spend 0 = bucket := by
  simp [spend]

/-- Every `bucket` can pay nothing. -/
@[simp]
theorem covers_zero (bucket : Bucket) : bucket.covers 0 := by
  simp [covers]

/-- `bucket` does not cover a packet when it holds less than its `size`. -/
theorem not_covers_iff (bucket : Bucket) (size : UInt64) :
    ¬ bucket.covers size ↔ bucket.level.toNat < size.toNat := by
  simp [covers, UInt64.le_iff_toNat_le]

end Bucket

namespace Record

/-- The bucket of a tier. -/
def bucket (record : Record) : Tier → Bucket
  | .peak => record.peak
  | .committed => record.committed

/-- Marks `packet`, and gives its colour and the record afterwards. -/
def receive (record : Record) (packet : Packet) : Color × Record :=
  record.markFrom packet.incoming packet.size packet.now

/-- The mark that `packet` gets. -/
def markOf (record : Record) (packet : Packet) : Mark :=
  { packet with color := (record.receive packet).1 }

/-- The packets of a run with the colours that they get. -/
def marks : Record → List Packet → List Mark
  | _, [] => []
  | record, packet :: rest => record.markOf packet :: marks (record.receive packet).2 rest

/-- The record at the end of a run. -/
def after : Record → List Packet → Record
  | record, [] => record
  | record, packet :: rest => after (record.receive packet).2 rest

/-- The three ways in which a `packet` can be marked, with the levels that lead to each. -/
theorem receive_cases (record : Record) (packet : Packet) :
    (record.receive packet = (.red, record.refill packet.now) ∧
      (packet.incoming = .red ∨ ¬ (record.peak.refill packet.now).covers packet.size)) ∨
    (record.receive packet =
        (.yellow, ⟨(record.peak.refill packet.now).spend packet.size, record.committed.refill packet.now⟩) ∧
      packet.incoming ≠ .red ∧ (record.peak.refill packet.now).covers packet.size ∧
        (packet.incoming = .yellow ∨ ¬ (record.committed.refill packet.now).covers packet.size)) ∨
    (record.receive packet =
        (.green, ⟨(record.peak.refill packet.now).spend packet.size,
          (record.committed.refill packet.now).spend packet.size⟩) ∧
      packet.incoming = .green ∧ (record.peak.refill packet.now).covers packet.size ∧
        (record.committed.refill packet.now).covers packet.size) := by
  -- The peak bucket is asked first, and the committed one only about packets that are not red.
  by_cases hred : packet.incoming = .red ∨ ¬ (record.peak.refill packet.now).covers packet.size
  · exact .inl ⟨if_pos hred, hred⟩
  · have hnot := not_or.mp hred
    by_cases hyellow : packet.incoming = .yellow ∨ ¬ (record.committed.refill packet.now).covers packet.size
    · exact .inr (.inl ⟨(if_neg hred).trans (if_pos hyellow), hnot.1, not_not.mp hnot.2, hyellow⟩)
    · have hgreen := not_or.mp hyellow
      have hin : packet.incoming = .green := by
        cases h : packet.incoming <;> simp_all
      exact .inr (.inr ⟨(if_neg hred).trans (if_neg hyellow), hin, not_not.mp hnot.2, not_not.mp hgreen.2⟩)

/-- A `packet` is red exactly if it arrives red or is larger than the level of the refilled peak bucket. -/
theorem color_receive_eq_red_iff (record : Record) (packet : Packet) :
    (record.receive packet).1 = .red ↔
      packet.incoming = .red ∨ (record.peak.refill packet.now).level.toNat < packet.size.toNat := by
  rw [← Bucket.not_covers_iff]
  rcases record.receive_cases packet with ⟨h, hred⟩ | ⟨h, hin, hpeak, -⟩ | ⟨h, hin, hpeak, -⟩
  · simpa [h] using hred
  · simp [h, hin, hpeak]
  · simp [h, hin, hpeak]

/-- A `packet` that is not red is green exactly if it arrives green and is no larger than the level of the
refilled committed bucket. -/
theorem color_receive_eq_green_iff (record : Record) (packet : Packet)
    (hcolor : (record.receive packet).1 ≠ .red) :
    (record.receive packet).1 = .green ↔
      packet.incoming = .green ∧
        ¬ (record.committed.refill packet.now).level.toNat < packet.size.toNat := by
  rw [← Bucket.not_covers_iff]
  rcases record.receive_cases packet with ⟨h, -⟩ | ⟨h, hin, -, hyellow⟩ | ⟨h, hin, -, hcommitted⟩
  · simp [h] at hcolor
  · rcases hyellow with hyellow | hyellow
    · simp [h, hyellow]
    · simp [h, hyellow]
  · simp [h, hin, hcommitted]

/-- When `packet` is received, the bucket of a `tier` is refilled and then pays what `tier` is charged. -/
theorem bucket_receive (record : Record) (packet : Packet) (tier : Tier) :
    (record.receive packet).2.bucket tier =
      ((record.bucket tier).refill packet.now).spend ((record.markOf packet).charge tier) := by
  rcases record.receive_cases packet with ⟨h, -⟩ | ⟨h, -⟩ | ⟨h, -⟩ <;> cases tier <;>
    simp [bucket, markOf, Mark.charge, Tier.pays, h, refill]

/-- What a `tier` is charged for `packet` is covered by its refilled bucket. -/
theorem covers_charge (record : Record) (packet : Packet) (tier : Tier) :
    ((record.bucket tier).refill packet.now).covers ((record.markOf packet).charge tier) := by
  rcases record.receive_cases packet with ⟨h, -⟩ | ⟨h, -, hpeak, -⟩ | ⟨h, -, hpeak, hcommitted⟩ <;>
    cases tier <;> simp_all [bucket, markOf, Mark.charge, Tier.pays]

/-- A run of `early` and `late` packets ends where the run of the `late` ones ends. -/
theorem after_append (record : Record) (early late : List Packet) :
    record.after (early ++ late) = (record.after early).after late := by
  induction early generalizing record with
  | nil => rfl
  | cons packet rest ih => exact ih _

/-- The `late` packets of a run are marked from the record that the `early` ones leave. -/
theorem marks_append (record : Record) (early late : List Packet) :
    record.marks (early ++ late) = record.marks early ++ (record.after early).marks late := by
  induction early generalizing record with
  | nil => rfl
  | cons packet rest ih => exact congrArg (record.markOf packet :: ·) (ih _)

/-- All `packets` of a run are marked, in order. -/
@[simp]
theorem map_toPacket_marks (record : Record) (packets : List Packet) :
    (record.marks packets).map Mark.toPacket = packets := by
  induction packets generalizing record with
  | nil => rfl
  | cons packet rest ih => exact congrArg (packet :: ·) (ih _)

/-- A run gives as many marks as it has `packets`. -/
@[simp]
theorem length_marks (record : Record) (packets : List Packet) :
    (record.marks packets).length = packets.length := by
  rw [← List.length_map (f := Mark.toPacket), map_toPacket_marks]

/-- The first `k` marks of a run are those of its first `k` packets. -/
theorem take_marks (record : Record) (packets : List Packet) (k : Nat) :
    (record.marks packets).take k = record.marks (packets.take k) := by
  induction packets generalizing record k with
  | nil => simp [marks]
  | cons packet rest ih =>
    cases k with
    | zero => rfl
    | succ k => exact congrArg (record.markOf packet :: ·) (ih _ k)

/-- The mark at position `k` of a run is that of its packet on the record left by those before it. -/
theorem getElem?_marks (record : Record) (packets : List Packet) (k : Nat) :
    (record.marks packets)[k]? = packets[k]?.map (record.after (packets.take k)).markOf := by
  induction packets generalizing record k with
  | nil => rfl
  | cons packet rest ih =>
    cases k with
    | zero => rfl
    | succ k => exact ih _ k

end Record

end TrafficMeter
