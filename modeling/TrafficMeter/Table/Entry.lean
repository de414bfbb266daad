import TrafficMeter.Table.Layout

/-!
# Table entries

An `Entry` holds a reference to an action, a counter if its table has counters, and the meters of its slots. In
memory a `Counter` always counts packets and bytes. What is left out of a value depends on its kind
(`Counter.encode`).

`Entry.toBytes` and `Entry.ofBytes` write and read the raw value of an entry. `Entry.rewrite` writes a decoded
value over an entry that is there, section by section.
-/

namespace TrafficMeter

/-- The action of an entry with its data. -/
structure ActionRef where
  /-- The number of the action. -/
  id : UInt32 := 0
  /-- The data handed to the action. -/
  data : Bytes := []
deriving DecidableEq, Repr, Inhabited

/-- Packets and bytes seen by an entry, each modulo the size of its word. -/
structure Counter where
  /-- The packets, modulo `2 ^ 32`. -/
  packets : UInt32 := 0
  /-- The bytes, modulo `2 ^ 64`. -/
  bytes : UInt64 := 0
deriving DecidableEq, Repr, Inhabited

/-- An entry of a table. -/
structure Entry where
  /-- What to do with a packet. -/
  action : ActionRef := {}
  /-- The packets seen, if the table has counters. -/
  counter : Option Counter := none
  /-- The meters, by slot. -/
  meters : List Record := []
deriving DecidableEq, Repr, Inhabited

namespace Counter

/-- `counter` after one more packet of `length` bytes. -/
def add (counter : Counter) (length : UInt32) : Counter :=
  { packets := counter.packets + 1, bytes := counter.bytes + length.toUInt64 }

/-- The raw form of `counter`, padded to the length of its kind. -/
def encode (counter : Counter) : CounterKind → Bytes
  | .packets => Bytes.ofUInt32 counter.packets ++ Bytes.zeros 4
  | .bytes => Bytes.ofUInt64 counter.bytes
  | .packetsAndBytes =>
    Bytes.ofUInt64 counter.bytes ++ Bytes.ofUInt32 counter.packets ++ Bytes.zeros 4

/-- The counter whose raw form is `bytes`, with zero for what its kind leaves out. -/
def decode (bytes : Bytes) : CounterKind → Counter
  | .packets => { packets := bytes.uint32At 0 }
  | .bytes => { bytes := bytes.uint64At 0 }
  | .packetsAndBytes => { packets := bytes.uint32At 8, bytes := bytes.uint64At 0 }

end Counter

namespace ActionRef

/-- The raw form of `action` with its padding, `layout.actionLength` bytes if its data fit. -/
def encode (action : ActionRef) (layout : Layout) : Bytes :=
  let body := Bytes.ofUInt32 action.id ++ action.data.take layout.actionDataLength.toNat
  body ++ Bytes.zeros (layout.actionLength - body.length)

/-- The action reference at the start of `value`. -/
def decode (layout : Layout) (value : Bytes) : ActionRef :=
  { id := value.uint32At 0
    data := value.slice Layout.actionIdLength layout.actionDataLength.toNat }

end ActionRef

namespace Entry

/-- The raw counter of `entry`, empty if `layout.counter = none`. -/
def counterBytes (entry : Entry) (layout : Layout) : Bytes :=
  match layout.counter with
  | none => []
  | some kind => (entry.counter.getD {}).encode kind

/-- The value of `entry`: its action, its counter and its meters one after the other. -/
def toBytes (entry : Entry) (layout : Layout) : Bytes :=
  entry.action.encode layout ++ entry.counterBytes layout ++ entry.meters.flatMap Record.toBytes

/-- The raw meter in `slot` of `value`. -/
def rawMeter (layout : Layout) (value : Bytes) (slot : Nat) : Bytes :=
  value.slice (layout.meterOffset slot) Record.byteLength

/-- Reads `value` as an entry. Its length is checked first, then the meters in the order of their slots. -/
def ofBytes (layout : Layout) (value : Bytes) : Except Error Entry := do
  if value.length ≠ layout.valueLength then
    throw (.invalidLength .entryValue layout.valueLength value.length)
  let meters ← (List.range layout.meters.toNat).mapM fun slot =>
    Record.ofBytes (rawMeter layout value slot)
  return {
    action := ActionRef.decode layout value
    counter := layout.counter.map (Counter.decode (value.drop layout.actionLength))
    meters }

/-- The entry that a new key of a table gets: that of a decoded value, with a counter exactly if `layout` has
one. -/
def ofDecoded (layout : Layout) (decoded : Entry) : Entry :=
  { decoded with counter := layout.counter.map fun _ => decoded.counter.getD {} }

/-- Rewrites `entry` in place, one section after the other: its action, its counter if `entry` and `decoded` both
have one, and its meters in the order of their slots. A meter of `decoded` without a slot in `entry` is left
out. -/
def rewrite (entry decoded : Entry) : Entry :=
  let acted : Entry := { entry with action := decoded.action }
  let counted : Entry :=
    match acted.counter, decoded.counter with
    | some _, some counter => { acted with counter := some counter }
    | _, _ => acted
  decoded.meters.zipIdx.foldl (fun rewritten (record, slot) =>
    { rewritten with meters := rewritten.meters.set slot record }) counted

/-- `entry` after a packet of `length` bytes was counted on it. -/
def count (entry : Entry) (length : UInt32) : Entry :=
  { entry with counter := entry.counter.map (·.add length) }

/-- `entry` with `record` as its meter in `slot`. -/
def putMeter (entry : Entry) (slot : Nat) (record : Record) : Entry :=
  { entry with meters := entry.meters.set slot record }

/-- Marks a packet of `size` tokens at `now` on every meter of `entry`. -/
def markAll (entry : Entry) (size now : UInt64) : List Color × Entry :=
  let marks := entry.meters.map fun record => record.mark size now
  (marks.map Prod.fst, { entry with meters := marks.map Prod.snd })

end Entry

end TrafficMeter
