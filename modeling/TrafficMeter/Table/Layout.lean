import TrafficMeter.Record.Bytes

/-!
# Layout of entry values

The raw value of a table entry begins with an action reference, a number of four bytes and the data of the
action, padded to a multiple of eight (`Layout.actionLength`). A counter may follow, and then the meters of the
entry (`Layout.meterOffset`).
-/

namespace TrafficMeter

/-- What the counter of an entry stores. -/
inductive CounterKind where
  /-- The number of packets. -/
  | packets
  /-- The number of bytes. -/
  | bytes
  /-- The number of bytes and then the number of packets. -/
  | packetsAndBytes
deriving DecidableEq, Repr

namespace CounterKind

/-- The name of a kind of counter, in upper case. -/
def name : CounterKind → String
  | packets => "PACKETS"
  | bytes => "BYTES"
  | packetsAndBytes => "PACKETS_AND_BYTES"

/-- All kinds of counters, in the order of their numbers. -/
def all : List CounterKind :=
  [packets, bytes, packetsAndBytes]

/-- The kind of counter whose `CounterKind.name` is exactly `text`. -/
def ofExactName? (text : String) : Option CounterKind :=
  all.find? fun kind => kind.name == text

/-- The bytes that a counter takes in a value, with its padding. -/
def byteLength : CounterKind → Nat
  | packets => 8
  | bytes => 8
  | packetsAndBytes => 16

end CounterKind

/-- The layout of the values of a table. -/
structure Layout where
  /-- The bytes of action data in an entry. -/
  actionDataLength : UInt64
  /-- The counter of an entry, if it has one. -/
  counter : Option CounterKind := none
  /-- The number of meters in an entry. -/
  meters : UInt64
deriving DecidableEq, Repr

namespace Layout

/-- The smallest multiple of eight that is at least `length`. -/
def alignEight (length : Nat) : Nat :=
  (length + 7) / 8 * 8

/-- The bytes of an action's number. -/
def actionIdLength : Nat := 4

/-- The bytes of the action reference with its padding: `alignEight (4 + actionDataLength)`. -/
def actionLength (layout : Layout) : Nat :=
  alignEight (actionIdLength + layout.actionDataLength.toNat)

/-- The bytes of the counter, `0` if `layout.counter = none`. -/
def counterLength (layout : Layout) : Nat :=
  (layout.counter.map CounterKind.byteLength).getD 0

/-- Where the counter starts and ends, if there is one. -/
def counterRange (layout : Layout) : Option (Nat × Nat) :=
  layout.counter.map fun kind => (layout.actionLength, layout.actionLength + kind.byteLength)

/-- Where the meter in `slot` starts: after the action, the counter and `slot` other meters. -/
def meterOffset (layout : Layout) (slot : Nat) : Nat :=
  layout.actionLength + layout.counterLength + slot * Record.byteLength

/-- Where the meter in `slot` starts and ends. -/
def meterRange (layout : Layout) (slot : Nat) : Nat × Nat :=
  (layout.meterOffset slot, layout.meterOffset slot + Record.byteLength)

/-- The length of a value, which is where a meter after the last one would start. -/
def valueLength (layout : Layout) : Nat :=
  layout.meterOffset layout.meters.toNat

end Layout

end TrafficMeter
