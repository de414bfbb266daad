import TrafficMeter.Text.Case

/-!
# Packet colours

A marker gives every packet one of three colours. Each `Color` has a number (`Color.code`), used where colours
are stored, and a name (`Color.name`), used where they are written.
-/

namespace TrafficMeter

/-- The outcome of metering one packet. -/
inductive Color where
  /-- Above the peak rate. -/
  | red
  /-- Within the committed rate. -/
  | green
  /-- Above the committed rate and within the peak rate. -/
  | yellow
deriving DecidableEq, Repr

namespace Color

/-- The number that stands for a colour in raw form. -/
def code : Color → UInt32
  | red => 0
  | green => 1
  | yellow => 2

/-- The colour whose `Color.code` is `n`. -/
def ofCode? (n : UInt32) : Option Color :=
  if n = 0 then some red
  else if n = 1 then some green
  else if n = 2 then some yellow
  else none

/-- The name of a colour, in upper case. -/
def name : Color → String
  | red => "RED"
  | green => "GREEN"
  | yellow => "YELLOW"

/-- The colour whose `Color.name` is `text`, in any letter case. -/
def ofName? (text : String) : Option Color :=
  [red, green, yellow].find? fun color => Text.spells color.name text

end Color

end TrafficMeter
