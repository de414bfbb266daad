import TrafficMeter.Text.Case

/-!
# What a meter counts

A meter spends tokens for bytes or for packets (`MeasureUnit.size`), and all of its rates and bursts are in that
unit.
-/

namespace TrafficMeter

/-- The unit in which a meter's tokens are counted. -/
inductive MeasureUnit where
  /-- One token for each byte of a packet. -/
  | bytes
  /-- One token for each packet. -/
  | packets
deriving DecidableEq, Repr

namespace MeasureUnit

/-- Meters count bytes unless they are told otherwise. -/
instance : Inhabited MeasureUnit := ⟨bytes⟩

/-- The name of a unit, in upper case. -/
def name : MeasureUnit → String
  | bytes => "BYTES"
  | packets => "PACKETS"

/-- The unit whose `MeasureUnit.name` is exactly `text`. -/
def ofExactName? (text : String) : Option MeasureUnit :=
  [bytes, packets].find? fun unit => unit.name == text

/-- The unit whose `MeasureUnit.name` is `text`, in any letter case. -/
def ofName? (text : String) : Option MeasureUnit :=
  [bytes, packets].find? fun unit => Text.spells unit.name text

/-- The tokens that a packet of `length` bytes costs: `length` in `bytes`, and one in `packets`. -/
def size : MeasureUnit → UInt32 → UInt64
  | bytes, length => length.toUInt64
  | packets, _ => 1

end MeasureUnit

end TrafficMeter
