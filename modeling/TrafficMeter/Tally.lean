import TrafficMeter.Color

/-!
# Colour tallies

How many packets got each colour (`Tally`). The three counts are 64-bit words and start again at zero after their
largest value.
-/

namespace TrafficMeter

/-- The number of packets of each colour, modulo `2 ^ 64`. -/
structure Tally where
  /-- Packets marked green. -/
  green : UInt64 := 0
  /-- Packets marked yellow. -/
  yellow : UInt64 := 0
  /-- Packets marked red. -/
  red : UInt64 := 0
deriving DecidableEq, Repr, Inhabited

namespace Tally

/-- The count of one colour in `tally`. -/
def count (tally : Tally) : Color → UInt64
  | .green => tally.green
  | .yellow => tally.yellow
  | .red => tally.red

/-- `tally` with one more packet of a colour. -/
def add (tally : Tally) : Color → Tally
  | .green => { tally with green := tally.green + 1 }
  | .yellow => { tally with yellow := tally.yellow + 1 }
  | .red => { tally with red := tally.red + 1 }

/-- `tally` with one more packet for each of `colors`. -/
def addAll (tally : Tally) (colors : List Color) : Tally :=
  colors.foldl add tally

/-- All packets counted in `tally`, modulo `2 ^ 64`. -/
def total (tally : Tally) : UInt64 :=
  tally.green + tally.yellow + tally.red

/-- `tally.add added` raises the count of the colour `added` by one and no other. -/
theorem count_add (tally : Tally) (added color : Color) :
    (tally.add added).count color = tally.count color + if color = added then 1 else 0 := by
  cases added <;> cases color <;> simp [add, count]

end Tally

end TrafficMeter
