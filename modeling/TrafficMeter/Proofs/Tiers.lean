import Mathlib.Data.List.Forall2
import TrafficMeter.Proofs.Schedule

/-!
# What the tiers know of each other

Whether a packet is red is decided by the peak bucket, which pays for all packets that are not red. Whether
such a packet becomes green or yellow is a matter of the committed bucket, and it makes no difference to the
peak bucket. So a meter, as far as its peak tier is concerned, is a policer with a single bucket:

- `Bucket.police`, `Bucket.policeAll`: what a single bucket does with packets;
- `Record.peakView_trace`: this is all that is seen of the peak tier in a run of a meter;
- `Record.peak_ignores_committed`: two meters with the same peak bucket agree on red packets and on this bucket
  forever, whatever their committed buckets hold.
-/

namespace TrafficMeter

/-- `packet` and `other` arrive alike but for being green or yellow. -/
structure Packet.SameForPeak (packet other : Packet) : Prop where
  /-- They have the same size. -/
  size_eq : packet.size = other.size
  /-- They arrive at the same time. -/
  now_eq : packet.now = other.now
  /-- Both arrive red or neither does. -/
  red_iff : packet.incoming = .red ↔ other.incoming = .red

namespace Bucket

/-- What a single `bucket` does with `packet`: it turns the packet away if it arrives red or is too large, and
pays for it otherwise. The first component tells whether the packet is turned away. -/
def police (bucket : Bucket) (packet : Packet) : Bool × Bucket :=
  let current := bucket.refill packet.now
  if packet.incoming = .red ∨ ¬ current.covers packet.size then (true, current)
  else (false, current.spend packet.size)

/-- What a single bucket does with packets that arrive one after the other. -/
def policeAll : Bucket → List Packet → List (Bool × Bucket)
  | _, [] => []
  | bucket, packet :: rest => bucket.police packet :: policeAll (bucket.police packet).2 rest

/-- A single `bucket` does not tell green packets from yellow ones. -/
theorem police_congr (bucket : Bucket) {packet other : Packet} (h : packet.SameForPeak other) :
    bucket.police packet = bucket.police other := by
  unfold police
  simp only [h.size_eq, h.now_eq, h.red_iff]

/-- In a run of `packets`, a single `bucket` does not tell green ones from yellow ones. -/
theorem policeAll_congr (bucket : Bucket) {packets others : List Packet}
    (h : List.Forall₂ Packet.SameForPeak packets others) :
    bucket.policeAll packets = bucket.policeAll others := by
  induction h generalizing bucket with
  | nil => rfl
  | cons hfirst _ ih =>
    unfold policeAll
    rw [bucket.police_congr hfirst, ih]

end Bucket

namespace Record

/-- What is seen of the peak tier when a packet was `marked`: whether it is red, and the bucket that it leaves.
-/
def peakView (marked : Color × Record) : Bool × Bucket :=
  (marked.1 = .red, marked.2.peak)

/-- Seen from the peak tier, a meter marks a `packet` as a single bucket does. -/
theorem peakView_receive (record : Record) (packet : Packet) :
    peakView (record.receive packet) = record.peak.police packet := by
  unfold Bucket.police peakView
  rcases record.receive_cases packet with ⟨h, hred⟩ | ⟨h, hin, hcovers, -⟩ | ⟨h, hin, hcovers, -⟩
  · -- The peak bucket turns the packet away, and the committed one is not asked.
    rw [h, if_pos hred]
    rfl
  · -- Yellow: the peak bucket pays alone.
    rw [h, if_neg (by simp [hin, hcovers])]
    rfl
  · -- Green: the committed bucket pays too, which the peak bucket does not see.
    rw [h, if_neg (by simp [hin, hcovers])]
    rfl

/-- Seen from the peak tier, a run of `packets` on a meter is a run on its peak bucket alone. -/
theorem peakView_trace (record : Record) (packets : List Packet) :
    (record.trace packets).map peakView = record.peak.policeAll packets := by
  induction packets generalizing record with
  | nil => rfl
  | cons packet rest ih =>
    unfold trace Bucket.policeAll
    rw [List.map_cons, ih, ← peakView_receive]
    rfl

/-- The committed bucket never influences the peak bucket. Let two meters have the same peak bucket and any
committed buckets, and let them receive `packets` and `others` of the same sizes at the same times, red ones at
the same positions, while all others may arrive green at one meter and yellow at the other. Then the meters mark
the same packets red and have the same peak bucket after each packet. -/
theorem peak_ignores_committed (record other : Record) (hpeak : record.peak = other.peak)
    (packets others : List Packet) (hpackets : List.Forall₂ Packet.SameForPeak packets others) :
    List.Forall₂ (fun marked marked' : Color × Record =>
        (marked.1 = .red ↔ marked'.1 = .red) ∧ marked.2.peak = marked'.2.peak)
      (record.trace packets) (other.trace others) := by
  have hview : (record.trace packets).map peakView = (other.trace others).map peakView := by
    rw [peakView_trace, peakView_trace, hpeak, Bucket.policeAll_congr _ hpackets]
  rw [← List.forall₂_eq_eq_eq, List.forall₂_map_left_iff, List.forall₂_map_right_iff] at hview
  refine hview.imp fun marked marked' hsame => ?_
  obtain ⟨hcolor, hbucket⟩ := Prod.mk.inj hsame
  exact ⟨decide_eq_decide.mp hcolor, hbucket⟩

/-- `record` has a committed bucket and `other` has none. The first packet is green at the one and yellow at the
other, the second arrives in another colour at each, and the third is too large for the peak bucket of both. -/
theorem peak_ignores_committed_unconfigured :
    let peak : Bucket := ⟨10, 5, 20, 20, 0⟩
    let record : Record := ⟨peak, ⟨10, 2, 12, 12, 0⟩⟩
    let other : Record := ⟨peak, {}⟩
    let packets : List Packet := [⟨.green, 10, 5⟩, ⟨.yellow, 4, 3⟩, ⟨.green, 12, 14⟩, ⟨.red, 1, 90⟩]
    let others : List Packet := [⟨.green, 10, 5⟩, ⟨.green, 4, 3⟩, ⟨.yellow, 12, 14⟩, ⟨.red, 1, 90⟩]
    (record.trace packets).map Prod.fst = [.green, .yellow, .red, .red] ∧
      (other.trace others).map Prod.fst = [.yellow, .yellow, .red, .red] ∧
      List.Forall₂ (fun marked marked' : Color × Record =>
          (marked.1 = .red ↔ marked'.1 = .red) ∧ marked.2.peak = marked'.2.peak)
        (record.trace packets) (other.trace others) := by
  intro peak record other packets others
  have hpackets : List.Forall₂ Packet.SameForPeak packets others :=
    .cons ⟨rfl, rfl, by decide⟩ (.cons ⟨rfl, rfl, by decide⟩
      (.cons ⟨rfl, rfl, by decide⟩ (.cons ⟨rfl, rfl, by decide⟩ .nil)))
  exact ⟨by decide, by decide, peak_ignores_committed record other rfl packets others hpackets⟩

end Record

end TrafficMeter
