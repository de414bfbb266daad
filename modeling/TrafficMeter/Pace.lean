import TrafficMeter.Record.Basic

/-!
# Rates as refill paces

The operator speaks of units per second, a bucket of a quantum in every period, which is a `Pace`. A pace for a
rate is chosen (`Pace.choose`) for a timer that cannot tell times apart which are closer than its resolution.

* One unit in a period is the finest pace. It is taken if its period is no shorter than the resolution and
  rounding it down loses little (`Pace.allowsSingleUnits`).
* Otherwise more units are credited at once, either after the shortest time that makes the rate exact
  (`Pace.exactPeriod`) or after the time of about a thousand units (`Pace.precisePeriod`), whichever is shorter.
-/

namespace TrafficMeter

/-- The nanoseconds of a second. -/
def nanosPerSecond : Nat := 1000000000

/-- The number of units in a period from which on rounding their number is harmless. -/
def ratePrecision : Nat := 1000

/-- The timer that drives refills. -/
structure Timer where
  /-- The shortest period that the timer supports, in nanoseconds. -/
  resolution : UInt64
  /-- A period is never empty. -/
  resolution_pos : 1 ≤ resolution
deriving DecidableEq, Repr

/-- The timer of the given `resolution`, where zero stands for one. -/
def Timer.ofResolution (resolution : UInt64) : Timer :=
  if h : 1 ≤ resolution then ⟨resolution, h⟩ else ⟨1, by decide⟩

/-- How fast a bucket is refilled. -/
structure Pace where
  /-- The time between two refills, or zero for none. -/
  period : UInt64 := 0
  /-- The units credited at each refill. -/
  quantum : UInt64 := 0
deriving DecidableEq, Repr, Inhabited

namespace Pace

/-- The shortest period, at least `resolution`, in which `rate` credits a whole number of units: the least
multiple of `10 ^ 9 / gcd rate (10 ^ 9)` that is not below `resolution`. -/
def exactPeriod (resolution rate : Nat) : Nat :=
  let step := nanosPerSecond / Nat.gcd rate nanosPerSecond
  (resolution + step - 1) / step * step

/-- The time of about `ratePrecision` units at `rate`, at least `resolution`. -/
def precisePeriod (resolution rate : Nat) : Nat :=
  max resolution ((ratePrecision * nanosPerSecond + rate - 1) / rate)

/-- The units that `rate` credits in `period`, rounded to the nearest and up at a tie. -/
def unitsIn (rate period : Nat) : Nat :=
  (rate * period + nanosPerSecond / 2) / nanosPerSecond

/-- One unit in a period of `nanosPerSecond / rate` is precise enough for `rate`, and a timer of `resolution`
supports it. -/
def allowsSingleUnits (resolution rate : Nat) : Bool :=
  resolution ≤ nanosPerSecond / rate &&
    (nanosPerSecond % rate == 0 || ratePrecision ≤ nanosPerSecond / rate)

/-- The period and quantum for `rate`, not yet confined to words. -/
def choose (resolution rate : Nat) : Nat × Nat :=
  if rate = 0 then (0, 0)
  else if allowsSingleUnits resolution rate then (nanosPerSecond / rate, 1)
  else
    let period := min (exactPeriod resolution rate) (precisePeriod resolution rate)
    (period, unitsIn rate period)

/-- The pace for `rate`, unless its period or quantum needs more than a word. The error names `tier`. -/
def ofRate (timer : Timer) (tier : Tier) (rate : UInt64) : Except Error Pace :=
  let chosen := choose timer.resolution.toNat rate.toNat
  if chosen.1 < UInt64.size ∧ chosen.2 < UInt64.size then
    .ok { period := UInt64.ofNat chosen.1, quantum := UInt64.ofNat chosen.2 }
  else .error (.rateOverflow tier rate timer.resolution)

/-- The rate of `pace` in whole units per second, `quantum * 10 ^ 9 / period` rounded down, but at most the
greatest word. -/
def rate (pace : Pace) : UInt64 :=
  UInt64.ofNat (min (UInt64.size - 1) (pace.quantum.toNat * nanosPerSecond / pace.period.toNat))

end Pace

/-- The pace at which `bucket` is refilled. -/
def Bucket.pace (bucket : Bucket) : Pace :=
  { period := bucket.period, quantum := bucket.quantum }

end TrafficMeter
