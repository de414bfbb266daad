import TrafficMeter.Bucket
import TrafficMeter.Color
import TrafficMeter.Error

/-!
# Meter records and marking

A meter `Record` is a pair of token buckets. `Record.markFrom` gives a packet its colour: red when the peak
bucket cannot pay for it, yellow when only the peak bucket can, and green when both can. A packet that arrives
with a colour never leaves with a better one.
-/

namespace TrafficMeter

/-- The state of one meter. A meter that was never configured has two empty buckets of no size. -/
structure Record where
  /-- The bucket of the peak rate. -/
  peak : Bucket := {}
  /-- The bucket of the committed rate. -/
  committed : Bucket := {}
deriving DecidableEq, Repr, Inhabited

namespace Record

/-- `record` with both buckets as they stand at `now`. -/
def refill (record : Record) (now : UInt64) : Record :=
  { peak := record.peak.refill now, committed := record.committed.refill now }

/-- Marks a packet of `size` tokens that arrives at `now` with the colour `incoming`. A red packet pays nothing,
a yellow one pays from the peak bucket and a green one from both. -/
def markFrom (record : Record) (incoming : Color) (size now : UInt64) : Color × Record :=
  let current := record.refill now
  if incoming = .red ∨ ¬ current.peak.covers size then (.red, current)
  else if incoming = .yellow ∨ ¬ current.committed.covers size then
    (.yellow, { current with peak := current.peak.spend size })
  else
    (.green, { peak := current.peak.spend size, committed := current.committed.spend size })

/-- Marks a packet of `size` tokens that arrives without a colour, which is the same as arriving green. -/
def mark (record : Record) (size now : UInt64) : Color × Record :=
  record.markFrom .green size now

/-- Neither bucket of `record` ever gains a token. -/
def isUnconfigured (record : Record) : Bool :=
  record.peak.isIdle && record.committed.isIdle

/-- The tokens of both buckets of `record` fit into them. -/
def withinCapacity (record : Record) : Bool :=
  record.peak.withinCapacity && record.committed.withinCapacity

/-- Accepts `record` if its buckets are not overfull. The peak bucket is looked at first. -/
def validate (record : Record) : Except Error Unit :=
  if ¬ record.peak.withinCapacity then
    .error (.invalidConfig (.overfull .peak record.peak.level record.peak.capacity))
  else if ¬ record.committed.withinCapacity then
    .error (.invalidConfig (.overfull .committed record.committed.level record.committed.capacity))
  else .ok ()

/-- `record.validate` accepts exactly if `record.withinCapacity`. -/
theorem validate_eq_ok_iff (record : Record) :
    record.validate = .ok () ↔ record.withinCapacity = true := by
  unfold validate withinCapacity
  cases record.peak.withinCapacity <;> cases record.committed.withinCapacity <;> simp

end Record

end TrafficMeter
