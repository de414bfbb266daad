import TrafficMeter.Proofs.Sections

/-!
# Reading and writing within bounds

A byte string can be cut so that a range beyond its end is cut short. This is how values are read and written
here, and it would hide a section that does not fit. So both are given a second form, in which every part that is
read or written has to be there (`Bytes.slice?`, `Bytes.replace?`), and a part that is not makes the result
`none`. A value is then written as sections into zeros, one after the other.

Both forms agree (`Entry.ofBytes?_eq_some`, `Entry.toBytes?_eq_some`). The reason is that the sections of a value
lie within it (`Layout.le_valueLength`), and that each one is written where the one before it ends
(`Entry.writeMeters?_append`).

## Main definitions

* `Entry.ofBytes?`, `Entry.toBytes?`: reading and writing of values out of parts that have to be there.

## Main results

* `Entry.ofBytes?_eq_some`, `Entry.toBytes?_eq_some`: no part is ever missing;
* `Layout.sections_partition_value`: the sections are a partition of every value, also as they are computed with
  words.
-/

namespace TrafficMeter

namespace Bytes

/-- The part of `bytes` in `range`, or `none` if `range` reaches beyond the end. -/
def slice? (bytes : Bytes) (range : Nat × Nat) : Option Bytes :=
  if range.1 ≤ range.2 ∧ range.2 ≤ bytes.length then some (bytes.slice range.1 (range.2 - range.1)) else none

/-- `bytes` with `part` in `range`, or `none` if `range` reaches beyond the end or `part` has another length. -/
def replace? (bytes : Bytes) (range : Nat × Nat) (part : Bytes) : Option Bytes :=
  if range.1 ≤ range.2 ∧ range.2 ≤ bytes.length ∧ part.length = range.2 - range.1 then
    some (bytes.take range.1 ++ part ++ bytes.drop range.2)
  else none

/-- `bytes` with its part in `range` changed by `change`, or `none` if one of the steps fails. -/
def modify? (bytes : Bytes) (range : Nat × Nat) (change : Bytes → Option Bytes) : Option Bytes := do
  bytes.replace? range (← change (← bytes.slice? range))

/-- A part that does not reach beyond the end is found by `slice?`. -/
theorem slice?_eq_some {bytes : Bytes} (start length : Nat) (h : start + length ≤ bytes.length) :
    bytes.slice? (start, start + length) = some (bytes.slice start length) := by
  rw [slice?, if_pos ⟨Nat.le_add_right _ _, h⟩, Nat.add_sub_cancel_left]

/-- `slice?` finds `part` where it stands. -/
theorem slice?_append (before part after : Bytes) :
    (before ++ part ++ after).slice? (before.length, before.length + part.length) = some part := by
  rw [slice?_eq_some _ _ (by simp), slice_append]

/-- `replace?` puts `part` in the place of `old`, which has the same length. -/
theorem replace?_append (before old after : Bytes) {part : Bytes} (h : part.length = old.length) :
    (before ++ old ++ after).replace? (before.length, before.length + old.length) part =
      some (before ++ part ++ after) := by
  have hroom : before.length + old.length ≤ (before ++ old ++ after).length := by simp
  have htake : (before ++ old ++ after).take before.length = before := by
    rw [List.append_assoc, List.take_left]
  have hdrop : (before ++ old ++ after).drop (before.length + old.length) = after :=
    List.drop_left' List.length_append
  rw [replace?, if_pos ⟨Nat.le_add_right _ _, hroom, by rw [h, Nat.add_sub_cancel_left]⟩, htake, hdrop]

/-- `modify?` applies `change` to `old` where it stands. -/
theorem modify?_append (before after : Bytes) {old new : Bytes} (change : Bytes → Option Bytes)
    (hchange : change old = some new) (h : new.length = old.length) :
    (before ++ old ++ after).modify? (before.length, before.length + old.length) change =
      some (before ++ new ++ after) := by
  simp only [modify?, slice?_append before old after, hchange, Option.bind_eq_bind, Option.bind_some,
    replace?_append before old after h]

theorem zeros_add (first second : Nat) : zeros (first + second) = zeros first ++ zeros second :=
  List.replicate_add first second 0

/-- A part of a part stands in the whole at the sum `start + offset` of both offsets. -/
theorem slice_slice (bytes : Bytes) (start : Nat) {offset length total : Nat} (h : offset + length ≤ total) :
    (bytes.slice start total).slice offset length = bytes.slice (start + offset) length := by
  rw [slice, slice, slice, List.drop_take, List.drop_drop, List.take_take, Nat.min_eq_left (by omega)]

/-- A word at `offset` is read from any part that has all of it. -/
theorem uint32At_slice (bytes : Bytes) (start : Nat) {offset total : Nat} (h : offset + 4 ≤ total) :
    (bytes.slice start total).uint32At offset = bytes.uint32At (start + offset) := by
  rw [uint32At, slice_slice bytes start h, uint32At]

theorem uint64At_slice (bytes : Bytes) (start : Nat) {offset total : Nat} (h : offset + 8 ≤ total) :
    (bytes.slice start total).uint64At offset = bytes.uint64At (start + offset) := by
  rw [uint64At, slice_slice bytes start h, uint64At]

end Bytes

namespace Counter

/-- Reads a counter from its section `buffer`, each count from a part that has to be there. -/
def decode? (buffer : Bytes) : CounterKind → Option Counter
  | .packets => do
    let packets ← buffer.slice? (0, 4)
    return { packets := packets.uint32At 0 }
  | .bytes => do
    let bytes ← buffer.slice? (0, 8)
    return { bytes := bytes.uint64At 0 }
  | .packetsAndBytes => do
    let bytes ← buffer.slice? (0, 8)
    let packets ← buffer.slice? (8, 12)
    return { packets := packets.uint32At 0, bytes := bytes.uint64At 0 }

/-- Writes `counter` into its section `buffer`, each count into a part that has to be there. -/
def write? (counter : Counter) (buffer : Bytes) : CounterKind → Option Bytes
  | .packets => buffer.replace? (0, 4) (Bytes.ofUInt32 counter.packets)
  | .bytes => buffer.replace? (0, 8) (Bytes.ofUInt64 counter.bytes)
  | .packetsAndBytes => do
    let buffer ← buffer.replace? (0, 8) (Bytes.ofUInt64 counter.bytes)
    buffer.replace? (8, 12) (Bytes.ofUInt32 counter.packets)

/-- If `buffer` has the length of a counter of this `kind`, then no part that `decode?` reads is missing. -/
theorem decode?_eq_some {buffer : Bytes} {kind : CounterKind} (h : buffer.length = kind.byteLength) :
    decode? buffer kind = some (decode buffer kind) := by
  cases kind with
  | packets =>
    have hpackets : buffer.slice? (0, 4) = some (buffer.slice 0 4) :=
      Bytes.slice?_eq_some 0 4 (by rw [h]; decide)
    simp [decode?, decode, hpackets, Bytes.uint32At_slice]
  | bytes =>
    have hbytes : buffer.slice? (0, 8) = some (buffer.slice 0 8) :=
      Bytes.slice?_eq_some 0 8 (by rw [h]; decide)
    simp [decode?, decode, hbytes, Bytes.uint64At_slice]
  | packetsAndBytes =>
    have hbytes : buffer.slice? (0, 8) = some (buffer.slice 0 8) :=
      Bytes.slice?_eq_some 0 8 (by rw [h]; decide)
    have hpackets : buffer.slice? (8, 12) = some (buffer.slice 8 4) :=
      Bytes.slice?_eq_some 8 4 (by rw [h]; decide)
    simp [decode?, decode, hbytes, hpackets, Bytes.uint64At_slice, Bytes.uint32At_slice]

/-- Only the first `kind.byteLength` bytes matter to `decode`. -/
theorem decode_slice (bytes : Bytes) (kind : CounterKind) :
    decode (bytes.slice 0 kind.byteLength) kind = decode bytes kind := by
  cases kind with
  | packets => rw [decode, decode, Bytes.uint32At_slice bytes 0 (by decide)]
  | bytes => rw [decode, decode, Bytes.uint64At_slice bytes 0 (by decide)]
  | packetsAndBytes =>
    rw [decode, decode, Bytes.uint32At_slice bytes 0 (by decide), Bytes.uint64At_slice bytes 0 (by decide)]

/-- Into an empty section `write?` writes the raw form of `counter`. -/
theorem write?_zeros (counter : Counter) (kind : CounterKind) :
    counter.write? (Bytes.zeros kind.byteLength) kind = some (counter.encode kind) := by
  cases kind with
  | packets => exact Bytes.replace?_append [] (Bytes.zeros 4) (Bytes.zeros 4) (by simp)
  | bytes =>
    have hwrite : (Bytes.zeros 8).replace? (0, 8) (Bytes.ofUInt64 counter.bytes) =
        some (Bytes.ofUInt64 counter.bytes ++ []) :=
      Bytes.replace?_append [] (Bytes.zeros 8) [] (by simp)
    rw [List.append_nil] at hwrite
    exact hwrite
  | packetsAndBytes =>
    have hbytes : (Bytes.zeros 16).replace? (0, 8) (Bytes.ofUInt64 counter.bytes) =
        some (Bytes.ofUInt64 counter.bytes ++ Bytes.zeros 4 ++ Bytes.zeros 4) :=
      Bytes.replace?_append [] (Bytes.zeros 8) (Bytes.zeros 8) (by simp)
    have hpackets := Bytes.replace?_append (Bytes.ofUInt64 counter.bytes) (Bytes.zeros 4) (Bytes.zeros 4)
      (show (Bytes.ofUInt32 counter.packets).length = (Bytes.zeros 4).length by simp)
    rw [write?, show CounterKind.packetsAndBytes.byteLength = 16 from rfl, hbytes]
    exact hpackets

end Counter

/-- If `f` succeeds on all of `list`, with the values of `g`, then so does `mapM f`. -/
theorem mapM_eq_some {α β : Type} {f : α → Option β} {g : α → β} {list : List α}
    (h : ∀ a ∈ list, f a = some (g a)) : list.mapM f = some (list.map g) := by
  induction list with
  | nil => rfl
  | cons head rest ih =>
    obtain ⟨hhead, hrest⟩ := List.forall_mem_cons.mp h
    rw [List.mapM_cons, hhead, ih hrest]
    rfl

namespace Layout

variable {layout : Layout}

/-- No section of a `layout` reaches beyond the end `layout.valueLength` of its values. -/
theorem le_valueLength {range : Nat × Nat} (h : range ∈ layout.ranges) : range.2 ≤ layout.valueLength :=
  (layout.adjoin_ranges.bounds h).2.2

theorem counterRange_eq {kind : CounterKind} (h : layout.counter = some kind) :
    layout.counterRange = some (layout.actionLength, layout.actionLength + kind.byteLength) := by
  rw [counterRange, h]
  rfl

theorem mem_ranges_of_counterRange {range : Nat × Nat} (h : layout.counterRange = some range) :
    range ∈ layout.ranges := by
  simp [ranges, h]

theorem meterRange_mem_ranges {slot : Nat} (h : slot < layout.meters.toNat) :
    layout.meterRange slot ∈ layout.ranges :=
  List.mem_append_right _ (List.mem_map_of_mem (List.mem_range.mpr h))

end Layout

namespace ActionRef

/-- Reads the action reference of `value`: its number and its data, from parts that have to be there. -/
def decode? (layout : Layout) (value : Bytes) : Option ActionRef := do
  let id ← value.slice? (0, Layout.actionIdLength)
  let data ← value.slice? (Layout.actionIdLength, Layout.actionIdLength + layout.actionDataLength.toNat)
  return { id := id.uint32At 0, data }

/-- Writes `action` into `value`, with as much of its data as `layout` has room for. -/
def write? (action : ActionRef) (layout : Layout) (value : Bytes) : Option Bytes := do
  let length := min action.data.length layout.actionDataLength.toNat
  let value ← value.replace? (0, Layout.actionIdLength) (Bytes.ofUInt32 action.id)
  value.replace? (Layout.actionIdLength, Layout.actionIdLength + length) (← action.data.slice? (0, length))

/-- No part that `decode?` reads is missing in a `value` that is long enough for the number and the data. -/
theorem decode?_eq_some {layout : Layout} {value : Bytes}
    (h : Layout.actionIdLength + layout.actionDataLength.toNat ≤ value.length) :
    decode? layout value = some (decode layout value) := by
  have hid : value.slice? (0, Layout.actionIdLength) = some (value.slice 0 Layout.actionIdLength) :=
    Bytes.slice?_eq_some 0 Layout.actionIdLength (by omega)
  have hword : (value.slice 0 Layout.actionIdLength).uint32At 0 = value.uint32At 0 :=
    Bytes.uint32At_slice value 0 (Nat.le_refl 4)
  simp only [decode?, hid, Bytes.slice?_eq_some _ _ h, hword, decode, Option.bind_eq_bind, Option.bind_some,
    Option.pure_def]

/-- Into an empty section, with anything `after` it, `write?` writes the raw form of `action`. -/
theorem write?_zeros (action : ActionRef) (layout : Layout) (after : Bytes) :
    action.write? layout (Bytes.zeros layout.actionLength ++ after) = some (action.encode layout ++ after) := by
  -- The section is cut into the number, as much of the data as there is room for, and the padding.
  let data := action.data.take layout.actionDataLength.toNat
  have hlength : min action.data.length layout.actionDataLength.toNat = data.length := by
    rw [List.length_take, Nat.min_comm]
  let padding := Bytes.zeros (layout.actionLength - (Layout.actionIdLength + data.length))
  have hdata : action.data.slice? (0, data.length) = some data := by
    have hslice := Bytes.slice?_append [] data (action.data.drop layout.actionDataLength.toNat)
    rwa [List.nil_append, List.take_append_drop, List.length_nil, Nat.zero_add] at hslice
  have hsection : Bytes.zeros layout.actionLength ++ after =
      Bytes.zeros Layout.actionIdLength ++ (Bytes.zeros data.length ++ (padding ++ after)) := by
    have hroom := layout.le_actionLength
    rw [← List.append_assoc, ← List.append_assoc, ← Bytes.zeros_add, ← Bytes.zeros_add,
      Nat.add_sub_of_le (by omega)]
  have hid : (Bytes.zeros Layout.actionIdLength ++ (Bytes.zeros data.length ++ (padding ++ after))).replace?
      (0, Layout.actionIdLength) (Bytes.ofUInt32 action.id) =
      some (Bytes.ofUInt32 action.id ++ (Bytes.zeros data.length ++ (padding ++ after))) :=
    Bytes.replace?_append [] (Bytes.zeros Layout.actionIdLength) _ (by simp [Layout.actionIdLength])
  have hbody := Bytes.replace?_append (Bytes.ofUInt32 action.id) (Bytes.zeros data.length) (padding ++ after)
    (Bytes.length_zeros data.length).symm
  have hencode : action.encode layout = Bytes.ofUInt32 action.id ++ data ++ padding := by
    rw [encode, List.length_append, Bytes.length_ofUInt32]
    rfl
  rw [Bytes.length_ofUInt32, Bytes.length_zeros, List.append_assoc] at hbody
  simp only [write?, hlength, hdata, hsection, hid, Option.bind_eq_bind, Option.bind_some]
  rw [hencode, List.append_assoc _ padding after]
  exact hbody

end ActionRef

namespace Entry

/-- Reads the counter of `value` from its section, if values with this `layout` have one. -/
def readCounter? (layout : Layout) (value : Bytes) : Option (Option Counter) :=
  match layout.counter, layout.counterRange with
  | some kind, some range => do return some (← Counter.decode? (← value.slice? range) kind)
  | _, _ => some none

/-- Reads a value as `ofBytes` does, but out of parts that have to be there. -/
def ofBytes? (layout : Layout) (value : Bytes) : Option (Except Error Entry) :=
  if value.length ≠ layout.valueLength then
    some (.error (.invalidLength .entryValue layout.valueLength value.length))
  else do
    let action ← ActionRef.decode? layout value
    let counter ← readCounter? layout value
    let rawMeters ← (List.range layout.meters.toNat).mapM fun slot => value.slice? (layout.meterRange slot)
    return (rawMeters.mapM Record.ofBytes).map fun meters =>
      { action, counter, meters }

/-- Writes the counter of `entry` into its section, if values with this `layout` have one. -/
def writeCounter? (entry : Entry) (layout : Layout) (value : Bytes) : Option Bytes :=
  match entry.counter, layout.counter, layout.counterRange with
  | some counter, some kind, some range => value.modify? range fun buffer => counter.write? buffer kind
  | _, _, _ => some value

/-- Writes meters into their sections of a value, from a slot on. -/
def writeMeters? (layout : Layout) : Nat → List Record → Bytes → Option Bytes
  | _, [], value => some value
  | slot, record :: rest, value => do
    writeMeters? layout (slot + 1) rest (← value.modify? (layout.meterRange slot) record.writeTo?)

/-- Writes a value as `toBytes` does, but section by section into zeros, where each section has to have its
room. -/
def toBytes? (entry : Entry) (layout : Layout) : Option Bytes := do
  let value ← entry.action.write? layout (Bytes.zeros layout.valueLength)
  let value ← entry.writeCounter? layout value
  writeMeters? layout 0 entry.meters value

section Read

variable {layout : Layout} {value : Bytes}

/-- No part that `readCounter?` reads is missing in a `value` with the length that `layout` gives. -/
theorem readCounter?_eq_some (h : value.length = layout.valueLength) :
    readCounter? layout value =
      some (layout.counter.map (Counter.decode (value.drop layout.actionLength))) := by
  cases hkind : layout.counter with
  | none => simp [readCounter?, hkind]
  | some kind =>
    have hrange := Layout.counterRange_eq hkind
    have hroom : layout.actionLength + kind.byteLength ≤ value.length :=
      h ▸ Layout.le_valueLength (Layout.mem_ranges_of_counterRange hrange)
    have hdecode := Counter.decode?_eq_some (Bytes.length_slice hroom)
    have hcounter : Counter.decode (value.slice layout.actionLength kind.byteLength) kind =
        Counter.decode (value.drop layout.actionLength) kind :=
      Counter.decode_slice (value.drop layout.actionLength) kind
    simp only [readCounter?, hkind, hrange, Bytes.slice?_eq_some _ _ hroom, hdecode, hcounter,
      Option.bind_eq_bind, Option.bind_some, Option.pure_def, Option.map_some]

/-- The sections of all meters are found in a `value` with the length that `layout` gives. -/
theorem mapM_slice?_meterRange (h : value.length = layout.valueLength) :
    ((List.range layout.meters.toNat).mapM fun slot => value.slice? (layout.meterRange slot)) =
      some ((List.range layout.meters.toNat).map (rawMeter layout value)) := by
  refine mapM_eq_some fun slot hslot => ?_
  have hroom : layout.meterOffset slot + Record.byteLength ≤ value.length :=
    h ▸ Layout.le_valueLength (Layout.meterRange_mem_ranges (List.mem_range.mp hslot))
  exact Bytes.slice?_eq_some _ _ hroom

/-- No part is missing when `ofBytes` reads a value, whatever its length. -/
theorem ofBytes?_eq_some (layout : Layout) (value : Bytes) :
    ofBytes? layout value = some (ofBytes layout value) := by
  by_cases h : value.length = layout.valueLength
  · have haction : ActionRef.decode? layout value = some (ActionRef.decode layout value) :=
      ActionRef.decode?_eq_some (h ▸ layout.le_actionLength.trans layout.actionLength_le_valueLength)
    have hmeters : (((List.range layout.meters.toNat).map (rawMeter layout value)).mapM Record.ofBytes) =
        (List.range layout.meters.toNat).mapM fun slot => Record.ofBytes (rawMeter layout value slot) :=
      List.mapM_map
    simp only [ofBytes?, ofBytes, h, ne_eq, not_true, if_false, haction, readCounter?_eq_some h,
      mapM_slice?_meterRange h, hmeters, Option.bind_eq_bind, Option.bind_some, Option.pure_def,
      Option.some.injEq]
    cases (List.range layout.meters.toNat).mapM fun slot => Record.ofBytes (rawMeter layout value slot) with
    | error error => rfl
    | ok meters => rfl
  · simp [ofBytes?, ofBytes, h]

end Read

section Write

variable (entry : Entry) (layout : Layout)

/-- Behind `action` of the right length `writeCounter?` writes the raw counter of `entry`. -/
theorem writeCounter?_append {action : Bytes} (haction : action.length = layout.actionLength) (after : Bytes) :
    entry.writeCounter? layout (action ++ Bytes.zeros layout.counterLength ++ after) =
      some (action ++ entry.counterBytes layout ++ after) := by
  cases hkind : layout.counter with
  | none => simp [writeCounter?, counterBytes, Layout.counterLength, hkind, Bytes.zeros]
  | some kind =>
    have hrange := Layout.counterRange_eq hkind
    cases hcounter : entry.counter with
    | none =>
      have hempty : Bytes.zeros kind.byteLength = ({} : Counter).encode kind := by cases kind <;> rfl
      simp [writeCounter?, counterBytes, Layout.counterLength_eq hkind, hkind, hcounter, hempty]
    | some counter =>
      have hwrite := Bytes.modify?_append action after (fun buffer => counter.write? buffer kind)
        (counter.write?_zeros kind) (by simp [Counter.length_encode])
      rw [haction, Bytes.length_zeros] at hwrite
      simp only [writeCounter?, counterBytes, Layout.counterLength_eq hkind, hkind, hcounter, hrange, hwrite,
        Option.getD_some]

/-- Behind what was written `before`, `writeMeters?` writes one of `records` after the other. -/
theorem writeMeters?_append (records : List Record) (slot : Nat) {before : Bytes}
    (hbefore : before.length = layout.meterOffset slot) :
    writeMeters? layout slot records (before ++ Bytes.zeros (records.length * Record.byteLength)) =
      some (before ++ records.flatMap Record.toBytes) := by
  -- By induction on the records, with what was written before as a prefix that grows by one meter.
  induction records generalizing slot before with
  | nil => simp [writeMeters?, Bytes.zeros]
  | cons record rest ih =>
    have hzeros : Bytes.zeros ((record :: rest).length * Record.byteLength) =
        Bytes.zeros Record.byteLength ++ Bytes.zeros (rest.length * Record.byteLength) := by
      rw [← Bytes.zeros_add, List.length_cons, Nat.succ_mul, Nat.add_comm]
    have hrecord : record.writeTo? (Bytes.zeros Record.byteLength) = some record.toBytes := by
      simp [Record.writeTo?]
    have hwrite := Bytes.modify?_append before (Bytes.zeros (rest.length * Record.byteLength)) record.writeTo?
      hrecord (by simp)
    have hnext : (before ++ record.toBytes).length = layout.meterOffset (slot + 1) := by
      rw [List.length_append, hbefore, Record.length_toBytes, Layout.meterOffset_succ]
    rw [hbefore, Bytes.length_zeros] at hwrite
    rw [writeMeters?, hzeros, ← List.append_assoc, Layout.meterRange, hwrite, Option.bind_eq_bind,
      Option.bind_some, ih (slot + 1) hnext, List.flatMap_cons, List.append_assoc]

/-- No part is missing when `toBytes` writes the value of an `entry` with as many meters as `layout` has. -/
theorem toBytes?_eq_some {entry : Entry} {layout : Layout} (h : entry.meters.length = layout.meters.toNat) :
    entry.toBytes? layout = some (entry.toBytes layout) := by
  let meters := Bytes.zeros (entry.meters.length * Record.byteLength)
  have hvalue : Bytes.zeros layout.valueLength =
      Bytes.zeros layout.actionLength ++ (Bytes.zeros layout.counterLength ++ meters) := by
    rw [← Bytes.zeros_add, ← Bytes.zeros_add, Layout.valueLength, Layout.meterOffset, h, Nat.add_assoc]
  have hcounter := entry.writeCounter?_append layout (entry.action.length_encode layout) meters
  have hmeters := writeMeters?_append layout entry.meters 0
    (show (entry.action.encode layout ++ entry.counterBytes layout).length = layout.meterOffset 0 by
      rw [List.length_append, ActionRef.length_encode, length_counterBytes, Layout.meterOffset, Nat.zero_mul,
        Nat.add_zero])
  rw [List.append_assoc] at hcounter
  simp only [toBytes?, hvalue, ActionRef.write?_zeros, hcounter, hmeters, meters, toBytes, Option.bind_eq_bind,
    Option.bind_some]

end Write

end Entry

namespace Layout

/-- The sections of a value are a partition of it, if the length of values fits into a word:

- the action reference takes as little as a multiple of eight can be, and each further section starts where the
  one before it ends, up to the end of the value;
- all sections start and end at multiples of eight, and no two of them overlap;
- the sizes that are computed in words are the ones of the model;
- so no part that is read or written is out of bounds. -/
theorem sections_partition_value (layout : Layout) (h : layout.valueLength < UInt64.size) :
    IsLeast {length | 8 ∣ length ∧ 4 + layout.actionDataLength.toNat ≤ length} layout.actionLength ∧
    Adjoin 0 layout.ranges layout.valueLength ∧
    (∀ range ∈ layout.ranges, 8 ∣ range.1 ∧ 8 ∣ range.2) ∧
    (layout.ranges.Pairwise fun range other => Set.Ico range.1 range.2 ∩ Set.Ico other.1 other.2 = ∅) ∧
    ⋃ range ∈ layout.ranges, Set.Ico range.1 range.2 = Set.Ico 0 layout.valueLength ∧
    (layout.actionWord.toNat = layout.actionLength ∧
      ∀ slot ≤ layout.meters, (layout.meterWord slot).toNat = layout.meterOffset slot.toNat) ∧
    (∀ value, Entry.ofBytes? layout value = some (Entry.ofBytes layout value)) ∧
    ∀ entry : Entry, entry.meters.length = layout.meters.toNat →
      entry.toBytes? layout = some (entry.toBytes layout) :=
  ⟨layout.isLeast_actionLength, layout.adjoin_ranges, fun _ => layout.dvd_of_mem_ranges,
    layout.adjoin_ranges.pairwise_inter_eq_empty, layout.adjoin_ranges.iUnion_eq,
    ⟨layout.toNat_actionWord h, fun _ => layout.toNat_meterWord h⟩, Entry.ofBytes?_eq_some layout,
    fun _ => Entry.toBytes?_eq_some⟩

/-- The hypothesis holds for the longest action data with which a counter and a meter still fit. -/
theorem sections_partition_value_longest :
    let layout : Layout :=
      { actionDataLength := 18446744073709551500, counter := some .packetsAndBytes, meters := 1 }
    layout.ranges = [(0, 18446744073709551504), (18446744073709551504, 18446744073709551520),
      (18446744073709551520, 18446744073709551608)] ∧
    Adjoin 0 layout.ranges 18446744073709551608 ∧
    (layout.meterWord 1).toNat = 18446744073709551608 ∧
    ∀ value, Entry.ofBytes? layout value = some (Entry.ofBytes layout value) := by
  intro layout
  obtain ⟨-, hadjoin, -, -, -, ⟨-, hmeters⟩, hread, -⟩ := sections_partition_value layout (by decide)
  have hlength : layout.valueLength = 18446744073709551608 := by decide
  rw [hlength] at hadjoin
  exact ⟨by decide, hadjoin, (hmeters 1 (by decide)).trans hlength, hread⟩

end Layout

end TrafficMeter
