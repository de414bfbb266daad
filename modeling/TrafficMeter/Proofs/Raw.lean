import TrafficMeter.Proofs.Outcome
import TrafficMeter.Table.Entry
import Mathlib.Algebra.Order.Group.Nat

/-!
# Raw forms

Words, records and entries are read back from their raw forms. A raw record of a meter that is not overfull
is that meter again (`Record.ofBytes_toBytes`). A raw value of an entry with the parts that its layout asks
for is that entry again, except for the half of the counter that the layout does not store
(`Entry.ofBytes_toBytes`).

`Record.ofBytes_eq_ok_iff` and `Entry.ofBytes_eq_ok_iff` say which raw forms are accepted, wherever they
come from.
-/

namespace TrafficMeter

namespace Bytes

/-- Written with `width` bytes, a number is kept modulo the range of as many bytes. -/
theorem toNat_ofNat (width n : Nat) : (ofNat width n).toNat = n % 256 ^ width := by
  induction width generalizing n with
  | zero => simp [ofNat, toNat, Nat.mod_one]
  | succ width ih =>
    rw [ofNat, toNat, ih, Nat.pow_succ', Nat.mod_mul, UInt8.toNat_ofNat']

@[simp]
theorem length_ofUInt32 (word : UInt32) : (ofUInt32 word).length = 4 :=
  length_ofNat 4 _

@[simp]
theorem length_ofUInt64 (word : UInt64) : (ofUInt64 word).length = 8 :=
  length_ofNat 8 _

@[simp]
theorem length_zeros (length : Nat) : (zeros length).length = length :=
  List.length_replicate

/-- `slice` finds `part` where it stands. -/
theorem slice_append (before part after : Bytes) :
    (before ++ part ++ after).slice before.length part.length = part := by
  rw [slice, List.append_assoc, List.drop_left, List.take_left]

/-- If `raw` has `width` bytes for each item, then the raw form of the item at `position` is found at `position *
width`. -/
theorem slice_flatMap {α : Type} {raw : α → Bytes} {width : Nat} (hwidth : ∀ a, (raw a).length = width)
    {list : List α} {position : Nat} {a : α} (h : list[position]? = some a) (before : Bytes) :
    (before ++ list.flatMap raw).slice (before.length + position * width) width = raw a := by
  obtain ⟨hlt, rfl⟩ := List.getElem?_eq_some_iff.mp h
  have hsplit : before ++ list.flatMap raw =
      before ++ (list.take position).flatMap raw ++ raw list[position] ++
        (list.drop (position + 1)).flatMap raw := by
    rw [List.append_assoc, List.append_assoc, ← List.flatMap_cons, List.getElem_cons_drop,
      ← List.flatMap_append, List.take_append_drop]
  have hstart : (before ++ (list.take position).flatMap raw).length = before.length + position * width := by
    simp [List.length_flatMap, hwidth, Nat.min_eq_left hlt.le]
  rw [hsplit, ← hstart, ← hwidth list[position], slice_append]

/-- A `word` is read where its four bytes stand. -/
theorem uint32At_of_slice {bytes : Bytes} {start : Nat} {word : UInt32}
    (h : bytes.slice start 4 = ofUInt32 word) : bytes.uint32At start = word := by
  have hrange : word.toNat < 256 ^ 4 := word.toNat_lt
  rw [uint32At, h, ofUInt32, toNat_ofNat, Nat.mod_eq_of_lt hrange, UInt32.ofNat_toNat]

/-- A `word` is read where its eight bytes stand. -/
theorem uint64At_of_slice {bytes : Bytes} {start : Nat} {word : UInt64}
    (h : bytes.slice start 8 = ofUInt64 word) : bytes.uint64At start = word := by
  have hrange : word.toNat < 256 ^ 8 := word.toNat_lt
  rw [uint64At, h, ofUInt64, toNat_ofNat, Nat.mod_eq_of_lt hrange, UInt64.ofNat_toNat]

end Bytes

namespace Record

/-- A raw record is accepted exactly if it has the right length and its buckets are not overfull. -/
theorem ofBytes_eq_ok_iff {bytes : Bytes} {record : Record} :
    ofBytes bytes = .ok record ↔
      bytes.length = byteLength ∧ (decode bytes).withinCapacity ∧ record = decode bytes := by
  rw [← validate_eq_ok_iff, ofBytes]
  by_cases hlength : bytes.length = byteLength
  · cases hvalid : (decode bytes).validate <;> simp [hlength, hvalid, eq_comm]
  · simp [hlength]

/-- The raw form of `record` is decoded as `record`. -/
theorem decode_toBytes (record : Record) : decode record.toBytes = record := by
  -- Decoding looks at the ten fields by position, and the words were written in this order.
  have hword (position : Nat) {word : UInt64} (h : (record.words ++ [0])[position]? = some word) :
      record.toBytes.uint64At (8 * position) = word := by
    refine Bytes.uint64At_of_slice ?_
    have hslice := Bytes.slice_flatMap Bytes.length_ofUInt64 h []
    rwa [List.length_nil, Nat.zero_add, Nat.mul_comm] at hslice
  simp only [decode, hword 0 rfl, hword 1 rfl, hword 2 rfl, hword 3 rfl, hword 4 rfl, hword 5 rfl,
    hword 6 rfl, hword 7 rfl, hword 8 rfl, hword 9 rfl]

/-- A `record` that is not overfull is read back from its raw form. -/
theorem ofBytes_toBytes {record : Record} (h : record.withinCapacity) :
    ofBytes record.toBytes = .ok record :=
  ofBytes_eq_ok_iff.mpr ⟨record.length_toBytes, by rwa [decode_toBytes], record.decode_toBytes.symm⟩

end Record

namespace Counter

/-- The part of `counter` that its kind stores, with zero for the rest. -/
def stored (counter : Counter) : CounterKind → Counter
  | .packets => { packets := counter.packets }
  | .bytes => { bytes := counter.bytes }
  | .packetsAndBytes => counter

/-- The raw form of `counter` does not depend on what its `kind` does not store. -/
@[simp]
theorem encode_stored (counter : Counter) (kind : CounterKind) :
    (counter.stored kind).encode kind = counter.encode kind := by
  cases kind <;> rfl

/-- The raw form of `counter` has the length of its `kind`. -/
@[simp]
theorem length_encode (counter : Counter) (kind : CounterKind) :
    (counter.encode kind).length = kind.byteLength := by
  cases kind <;> simp [encode, CounterKind.byteLength]

/-- The stored part of `counter` is read back from its raw form, whatever comes `after` it. -/
theorem decode_encode (counter : Counter) (kind : CounterKind) (after : Bytes) :
    decode (counter.encode kind ++ after) kind = counter.stored kind := by
  cases kind with
  | packets =>
    have hpackets := Bytes.slice_append [] (Bytes.ofUInt32 counter.packets) (Bytes.zeros 4 ++ after)
    have hread : (counter.encode .packets ++ after).uint32At 0 = counter.packets :=
      Bytes.uint32At_of_slice (by simpa [encode] using hpackets)
    rw [decode, hread, stored]
  | bytes =>
    have hbytes := Bytes.slice_append [] (Bytes.ofUInt64 counter.bytes) after
    have hread : (counter.encode .bytes ++ after).uint64At 0 = counter.bytes :=
      Bytes.uint64At_of_slice (by simpa [encode] using hbytes)
    rw [decode, hread, stored]
  | packetsAndBytes =>
    have hbytes := Bytes.slice_append [] (Bytes.ofUInt64 counter.bytes)
      (Bytes.ofUInt32 counter.packets ++ Bytes.zeros 4 ++ after)
    have hpackets := Bytes.slice_append (Bytes.ofUInt64 counter.bytes) (Bytes.ofUInt32 counter.packets)
      (Bytes.zeros 4 ++ after)
    have hreadBytes : (counter.encode .packetsAndBytes ++ after).uint64At 0 = counter.bytes :=
      Bytes.uint64At_of_slice (by simpa [encode] using hbytes)
    have hreadPackets : (counter.encode .packetsAndBytes ++ after).uint32At 8 = counter.packets :=
      Bytes.uint32At_of_slice (by simpa [encode] using hpackets)
    rw [decode, hreadBytes, hreadPackets, stored]

end Counter

namespace Layout

variable (layout : Layout)

/-- The padded action reference has room for the number and the data of the action. -/
theorem le_actionLength : actionIdLength + layout.actionDataLength.toNat ≤ layout.actionLength := by
  rw [actionLength, alignEight]
  omega

/-- A value is at least as long as its action reference. -/
theorem actionLength_le_valueLength : layout.actionLength ≤ layout.valueLength := by
  rw [valueLength, meterOffset]
  omega

end Layout

namespace ActionRef

/-- The raw form of `action` has the length that `layout` gives it. -/
@[simp]
theorem length_encode (action : ActionRef) (layout : Layout) :
    (action.encode layout).length = layout.actionLength := by
  have hroom := layout.le_actionLength
  simp only [encode, Layout.actionIdLength, List.length_append, Bytes.length_ofUInt32, List.length_take,
    Bytes.length_zeros] at hroom ⊢
  omega

/-- An `action` with as much data as `layout` asks for is read back from its raw form, whatever comes `after` it.
-/
theorem decode_encode {action : ActionRef} {layout : Layout}
    (h : action.data.length = layout.actionDataLength.toNat) (after : Bytes) :
    decode layout (action.encode layout ++ after) = action := by
  set padding := Bytes.zeros (layout.actionLength - (Bytes.ofUInt32 action.id ++ action.data).length)
  -- The data has the length of the layout, so encoding does not cut it.
  have hencode : action.encode layout ++ after =
      Bytes.ofUInt32 action.id ++ action.data ++ (padding ++ after) := by
    rw [encode, List.take_of_length_le h.le, List.append_assoc]
  have hid := Bytes.slice_append [] (Bytes.ofUInt32 action.id) (action.data ++ (padding ++ after))
  have hdata := Bytes.slice_append (Bytes.ofUInt32 action.id) action.data (padding ++ after)
  rw [Bytes.length_ofUInt32, h] at hdata
  have hread : Bytes.uint32At (action.encode layout ++ after) 0 = action.id :=
    Bytes.uint32At_of_slice (by simpa [hencode] using hid)
  rw [decode, hread, hencode]
  exact congrArg _ hdata

end ActionRef

namespace Entry

/-- `entry` has the parts that `layout` asks for, and none of its meters is overfull. -/
structure Fits (entry : Entry) (layout : Layout) : Prop where
  /-- There is a meter in every slot. -/
  length_meters : entry.meters.length = layout.meters.toNat
  /-- No meter holds more tokens than fit into it. -/
  withinCapacity : ∀ record ∈ entry.meters, record.withinCapacity
  /-- The action has all of its data. -/
  length_data : entry.action.data.length = layout.actionDataLength.toNat
  /-- There is a counter if the layout has one. -/
  isSome_counter : entry.counter.isSome = layout.counter.isSome

/-- `entry` without the half of its counter that `layout` does not store. -/
def stored (entry : Entry) (layout : Layout) : Entry :=
  match layout.counter with
  | some kind => { entry with counter := entry.counter.map (·.stored kind) }
  | none => entry

/-- The value of `entry` does not depend on what is not stored. -/
@[simp]
theorem toBytes_stored (entry : Entry) (layout : Layout) :
    (entry.stored layout).toBytes layout = entry.toBytes layout := by
  cases hlayout : layout.counter with
  | none => simp [stored, hlayout]
  | some kind => cases hcounter : entry.counter <;> simp [stored, toBytes, counterBytes, hlayout, hcounter]

/-- The raw counter of `entry` has the length that `layout` gives it. -/
@[simp]
theorem length_counterBytes (entry : Entry) (layout : Layout) :
    (entry.counterBytes layout).length = layout.counterLength := by
  cases h : layout.counter <;> simp [counterBytes, Layout.counterLength, h]

/-- The value of an `entry` that fits `layout` has the length of its values. -/
theorem length_toBytes {entry : Entry} {layout : Layout} (h : entry.Fits layout) :
    (entry.toBytes layout).length = layout.valueLength := by
  simp [toBytes, Layout.valueLength, Layout.meterOffset, List.length_flatMap, h.length_meters,
    Nat.add_assoc]

/-- A `value` is accepted exactly if it has the right length and every raw meter in it is accepted. -/
theorem ofBytes_eq_ok_iff {layout : Layout} {value : Bytes} {entry : Entry} :
    ofBytes layout value = .ok entry ↔
      value.length = layout.valueLength ∧
        List.Forall₂ (fun slot record => Record.ofBytes (rawMeter layout value slot) = .ok record)
          (List.range layout.meters.toNat) entry.meters ∧
        entry.action = ActionRef.decode layout value ∧
        entry.counter = layout.counter.map (Counter.decode (value.drop layout.actionLength)) := by
  rw [← mapM_eq_ok_iff, ofBytes]
  obtain ⟨action, counter, meters⟩ := entry
  by_cases hlength : value.length = layout.valueLength
  · cases (List.range layout.meters.toNat).mapM fun slot => Record.ofBytes (rawMeter layout value slot) with
    | error error => simp [hlength]
    | ok found =>
      simp only [hlength, ne_eq, not_true, if_false, pure_eq_ok, ok_bind, Except.ok.injEq, Entry.mk.injEq,
        true_and]
      grind
  · simp [hlength]

@[simp]
theorem action_stored (entry : Entry) (layout : Layout) : (entry.stored layout).action = entry.action := by
  rw [stored]
  split <;> rfl

@[simp]
theorem meters_stored (entry : Entry) (layout : Layout) : (entry.stored layout).meters = entry.meters := by
  rw [stored]
  split <;> rfl

/-- The raw meter of `slot` is that of the meter in `slot`. -/
theorem rawMeter_toBytes {entry : Entry} {slot : Nat} {record : Record} (layout : Layout)
    (h : entry.meters[slot]? = some record) :
    rawMeter layout (entry.toBytes layout) slot = record.toBytes := by
  have hslice := Bytes.slice_flatMap Record.length_toBytes h
    (entry.action.encode layout ++ entry.counterBytes layout)
  simpa [rawMeter, toBytes, Layout.meterOffset] using hslice

/-- An `entry` that fits `layout` is read back from its value, as far as it is stored. -/
theorem ofBytes_toBytes {entry : Entry} {layout : Layout} (h : entry.Fits layout) :
    ofBytes layout (entry.toBytes layout) = .ok (entry.stored layout) := by
  refine ofBytes_eq_ok_iff.mpr ⟨length_toBytes h, ?_, ?_, ?_⟩
  · rw [meters_stored, List.forall₂_iff_get]
    refine ⟨by simp [h.length_meters], fun slot _ hslot => ?_⟩
    have hmeter : entry.meters[slot]? = some (entry.meters.get ⟨slot, hslot⟩) :=
      List.getElem?_eq_getElem hslot
    have hwithin := h.withinCapacity _ (List.get_mem entry.meters ⟨slot, hslot⟩)
    rw [List.get_eq_getElem, List.getElem_range, rawMeter_toBytes layout hmeter]
    exact Record.ofBytes_toBytes hwithin
  · rw [action_stored, toBytes, List.append_assoc, ActionRef.decode_encode h.length_data]
  · -- The counter is decoded from all that follows the action reference, the meters included.
    have hdrop : (entry.toBytes layout).drop layout.actionLength =
        entry.counterBytes layout ++ entry.meters.flatMap Record.toBytes := by
      rw [toBytes, List.append_assoc, ← entry.action.length_encode layout, List.drop_left]
    have hsome := h.isSome_counter
    rw [hdrop]
    cases hlayout : layout.counter with
    | none =>
      have hnone : entry.counter = none := by simpa [hlayout] using hsome
      simp [stored, hlayout, hnone]
    | some kind =>
      obtain ⟨counter, hcounter⟩ : ∃ counter, entry.counter = some counter :=
        Option.isSome_iff_exists.mp (by rw [hsome, hlayout]; rfl)
      simp [stored, counterBytes, hlayout, hcounter, Counter.decode_encode]

end Entry

end TrafficMeter
