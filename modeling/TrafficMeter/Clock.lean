/-!
# The packet clock

Packets are stamped with nanoseconds that never run backwards. A `Clock` counts the time since its origin on top
of a base reading (`Clock.read`), and never falls behind a time that was observed in a packet
(`Clock.advanceTo`). A clock that was saved goes on from its last reading plus the wall-clock time that has
passed since, if any (`Clock.resume`).
-/

namespace TrafficMeter

/-- `a + b`, or the greatest 64-bit word if that is less. -/
def saturatingAdd (a b : Nat) : UInt64 :=
  UInt64.ofNat (min (UInt64.size - 1) (a + b))

/-- A clock in nanoseconds, which reads `base` when the timer of the machine reads `origin`. -/
structure Clock where
  /-- The reading of the machine's monotonic timer when the clock was started. -/
  origin : Nat
  /-- The reading of the clock at that moment. -/
  base : UInt64 := 0
  /-- The latest time observed in a packet. The clock never reads less. -/
  floor : UInt64 := 0
deriving DecidableEq, Repr

namespace Clock

/-- A clock that is started when the timer reads `origin`, and goes on from the reading `saved` of `savedAt`: its
base is `saved + (wallTime - savedAt)`, where a wall clock that was set back adds nothing. -/
def resume (origin : Nat) (saved savedAt wallTime : UInt64) : Clock :=
  { origin, base := saturatingAdd saved.toNat (wallTime.toNat - savedAt.toNat) }

/-- The reading of `clock` when the monotonic timer reads `timer`: `base + (timer - origin)`, but not less than
`clock.floor`. -/
def read (clock : Clock) (timer : Nat) : UInt64 :=
  max (saturatingAdd clock.base.toNat (timer - clock.origin)) clock.floor

/-- `clock` with every later reading at least `time`. -/
def advanceTo (clock : Clock) (time : UInt64) : Clock :=
  { clock with floor := max clock.floor time }

end Clock

end TrafficMeter
