import TrafficMeter.Proofs.Fault
import TrafficMeter.Proofs.Similar

/-!
# Raw values as they are kept

A raw value has bytes that mean nothing: the padding of the action reference, that of the counter, and the
lock word of each meter. They are accepted whatever they are and not kept, so the value that is read later has
zeros there. All other bytes are kept.

Each section of a value is treated on its own, by what is kept of it when it is decoded and encoded again
(`Record.toBytes_decode`, `Counter.encode_decode`, `ActionRef.encode_decode`). `Layout.ext_sections` puts the
sections together to `Entry.toBytes_of_ofBytes`.

## Main definitions

* `Layout.IsPadding position`: the byte at `position` means nothing;
* `Bytes.blank`: a byte string with zeros at some positions.

## Main results

* `Entry.toBytes_of_ofBytes`: an entry is kept as the value that it was read from, but for padding;
* `Entry.exists_ofBytes_iff`: which values are accepted;
* `Table.update_keeps_all_but_padding`: what this means for a key of a table.
-/

namespace TrafficMeter

namespace Bytes

/-- `bytes` with zeros at the positions `zeroed`. -/
def blank (zeroed : Nat → Prop) [DecidablePred zeroed] (bytes : Bytes) : Bytes :=
  bytes.mapIdx fun position byte => if zeroed position then 0 else byte

variable {zeroed : Nat → Prop} [DecidablePred zeroed] {bytes : Bytes}

@[simp]
theorem length_blank : (bytes.blank zeroed).length = bytes.length :=
  List.length_mapIdx

@[simp]
theorem getElem?_blank (position : Nat) :
    (bytes.blank zeroed)[position]? = bytes[position]?.map fun byte => if zeroed position then 0 else byte :=
  List.getElem?_mapIdx

theorem getElem?_slice (bytes : Bytes) (start length position : Nat) :
    (bytes.slice start length)[position]? = if position < length then bytes[start + position]? else none := by
  rw [slice, List.getElem?_take, List.getElem?_drop]

theorem length_slice {start length : Nat} (h : start + length ≤ bytes.length) :
    (bytes.slice start length).length = length := by
  rw [slice, List.length_take, List.length_drop]
  omega

/-- Byte strings with the same part of `length` bytes at `start` have the same byte at every `position` there. -/
theorem getElem?_eq_of_slice_eq {other : Bytes} {start length position : Nat}
    (h : bytes.slice start length = other.slice start length) (hstart : start ≤ position)
    (hend : position < start + length) : bytes[position]? = other[position]? := by
  have hbyte : (bytes.slice start length)[position - start]? = (other.slice start length)[position - start]? :=
    congrArg (·[position - start]?) h
  simpa only [getElem?_slice, Nat.add_sub_cancel' hstart,
    if_pos (Nat.sub_lt_left_of_lt_add hstart hend)] using hbyte

/-- A part of a blanked byte string is the part, blanked at the positions that it has in the whole. -/
theorem slice_blank (start length : Nat) :
    (bytes.blank zeroed).slice start length =
      (bytes.slice start length).blank fun position => zeroed (start + position) := by
  apply List.ext_getElem?
  intro position
  simp only [getElem?_slice, getElem?_blank]
  split <;> rfl

/-- If `zeroed` are the positions from `kept` on, then blanking keeps the first `kept` bytes. -/
theorem blank_eq_take_append {kept : Nat} (h : ∀ position < bytes.length, zeroed position ↔ kept ≤ position) :
    bytes.blank zeroed = bytes.take kept ++ zeros (bytes.length - kept) := by
  apply List.ext_getElem?
  intro position
  by_cases hposition : position < bytes.length
  · rw [getElem?_blank, List.getElem?_eq_getElem hposition, Option.map_some]
    by_cases hkept : kept ≤ position
    · rw [if_pos ((h position hposition).mpr hkept), List.getElem?_append_right (by simp; omega), zeros,
        List.getElem?_replicate, if_pos (by simp; omega)]
    · rw [if_neg fun hzeroed => hkept ((h position hposition).mp hzeroed),
        List.getElem?_append_left (by simp; omega), List.getElem?_take, if_pos (by omega),
        List.getElem?_eq_getElem hposition]
  · rw [List.getElem?_eq_none (by simpa using hposition), List.getElem?_eq_none (by simp; omega)]

theorem ofNat_toNat {length : Nat} (h : bytes.length = length) : ofNat length bytes.toNat = bytes := by
  subst h
  induction bytes with
  | nil => rfl
  | cons byte rest ih =>
    have hrest : (byte.toNat + 256 * toNat rest) / 256 = toNat rest := by
      have := byte.toNat_lt
      omega
    have hbyte : UInt8.ofNat (byte.toNat + 256 * toNat rest) = byte := by
      apply UInt8.toNat_inj.mp
      rw [UInt8.toNat_ofNat']
      have := byte.toNat_lt
      omega
    rw [List.length_cons, toNat, ofNat, hrest, hbyte, ih]

theorem toNat_lt {length : Nat} (h : bytes.length = length) : bytes.toNat < 256 ^ length := by
  have hself := toNat_ofNat length bytes.toNat
  rw [ofNat_toNat h] at hself
  rw [hself]
  exact Nat.mod_lt _ (by positivity)

/-- The four bytes of the word that was read at `start` are those that stand there. -/
theorem ofUInt32_uint32At {start : Nat} (h : start + 4 ≤ bytes.length) :
    ofUInt32 (bytes.uint32At start) = bytes.slice start 4 := by
  have hlength := length_slice h
  have hrange : (bytes.slice start 4).toNat < 2 ^ 32 := toNat_lt hlength
  rw [ofUInt32, uint32At, UInt32.toNat_ofNat', Nat.mod_eq_of_lt hrange, ofNat_toNat hlength]

/-- The eight bytes of the word that was read at `start` are those that stand there. -/
theorem ofUInt64_uint64At {start : Nat} (h : start + 8 ≤ bytes.length) :
    ofUInt64 (bytes.uint64At start) = bytes.slice start 8 := by
  have hlength := length_slice h
  have hrange : (bytes.slice start 8).toNat < 2 ^ 64 := toNat_lt hlength
  rw [ofUInt64, uint64At, UInt64.toNat_ofNat', Nat.mod_eq_of_lt hrange, ofNat_toNat hlength]

/-- `count` parts of one `width` that follow each other make up the first `width * count` bytes. -/
theorem flatMap_range_slice (bytes : Bytes) (width count : Nat) :
    (List.range count).flatMap (fun position => bytes.slice (width * position) width) =
      bytes.take (width * count) := by
  induction count with
  | zero => simp
  | succ count ih =>
    rw [List.range_succ, List.flatMap_append, ih, Nat.mul_succ, List.take_add]
    simp [slice]

end Bytes

namespace Record

/-- Of a raw record the ten fields are kept, which are its first 80 bytes, and the lock word is not. -/
theorem toBytes_decode {bytes : Bytes} (h : bytes.length = byteLength) :
    (decode bytes).toBytes = bytes.take 80 ++ Bytes.zeros 8 := by
  have hwords : (decode bytes).words = (List.range 10).map fun index => bytes.uint64At (8 * index) := rfl
  have hraw : (List.range 10).flatMap (fun index => Bytes.ofUInt64 (bytes.uint64At (8 * index))) =
      (List.range 10).flatMap fun index => bytes.slice (8 * index) 8 := by
    apply List.flatMap_congr
    intro index hindex
    have hlt := List.mem_range.mp hindex
    apply Bytes.ofUInt64_uint64At
    rw [h, byteLength]
    omega
  rw [toBytes, List.flatMap_append, hwords, List.flatMap_map, hraw, Bytes.flatMap_range_slice]
  rfl

end Record

namespace CounterKind

/-- The bytes of a raw counter that its counts take. The others are padding. -/
def countLength : CounterKind → Nat
  | packets => 4
  | bytes => 8
  | packetsAndBytes => 12

end CounterKind

/-- Of a raw counter the counts are kept, which are its first `kind.countLength` bytes, and the padding is not.
-/
theorem Counter.encode_decode {bytes : Bytes} {kind : CounterKind} (h : kind.byteLength ≤ bytes.length) :
    (decode bytes kind).encode kind =
      bytes.take kind.countLength ++ Bytes.zeros (kind.byteLength - kind.countLength) := by
  cases kind with
  | packets =>
    have hpackets : Bytes.ofUInt32 (bytes.uint32At 0) = bytes.take 4 :=
      Bytes.ofUInt32_uint32At (Nat.le_trans (by decide) h)
    rw [decode, encode, hpackets]
    rfl
  | bytes =>
    have hbytes : Bytes.ofUInt64 (bytes.uint64At 0) = bytes.take 8 := Bytes.ofUInt64_uint64At h
    rw [decode, encode, hbytes]
    exact (List.append_nil _).symm
  | packetsAndBytes =>
    have hbytes : Bytes.ofUInt64 (bytes.uint64At 0) = bytes.take 8 :=
      Bytes.ofUInt64_uint64At (Nat.le_trans (by decide) h)
    have hpackets : Bytes.ofUInt32 (bytes.uint32At 8) = (bytes.drop 8).take 4 :=
      Bytes.ofUInt32_uint32At (Nat.le_trans (by decide) h)
    rw [decode, encode, hbytes, hpackets, ← List.take_add]
    rfl

/-- Of a raw action reference the number and the data are kept and the padding is not. -/
theorem ActionRef.encode_decode {layout : Layout} {value : Bytes} (h : layout.actionLength ≤ value.length) :
    (decode layout value).encode layout =
      value.take (Layout.actionIdLength + layout.actionDataLength.toNat) ++
        Bytes.zeros (layout.actionLength - (Layout.actionIdLength + layout.actionDataLength.toNat)) := by
  have hroom := layout.le_actionLength
  have hid : Bytes.ofUInt32 (value.uint32At 0) = value.take Layout.actionIdLength := by
    apply Bytes.ofUInt32_uint32At
    rw [Layout.actionIdLength] at hroom
    omega
  have hbody : Bytes.ofUInt32 (decode layout value).id ++
      (decode layout value).data.take layout.actionDataLength.toNat =
        value.take (Layout.actionIdLength + layout.actionDataLength.toNat) := by
    rw [decode, hid, Bytes.slice, List.take_take, Nat.min_self, List.take_add]
  rw [encode, hbody, List.length_take, Nat.min_eq_left (hroom.trans h)]

namespace Layout

variable (layout : Layout)

/-- The `position` belongs to nothing that is kept: it lies in the padding after the data of the action, in the
padding of the counter or in the lock word of a meter, its last eight bytes. -/
def IsPadding (position : Nat) : Prop :=
  (actionIdLength + layout.actionDataLength.toNat ≤ position ∧ position < layout.actionLength) ∨
    (∃ kind ∈ layout.counter, layout.actionLength + kind.countLength ≤ position ∧
      position < layout.actionLength + kind.byteLength) ∨
    ∃ slot < layout.meters.toNat, layout.meterOffset slot + 80 ≤ position ∧
      position < layout.meterOffset slot + Record.byteLength

instance : DecidablePred layout.IsPadding := fun _ => inferInstanceAs (Decidable (_ ∨ _ ∨ _))

variable {layout}

theorem counterLength_eq {kind : CounterKind} (h : layout.counter = some kind) :
    layout.counterLength = kind.byteLength := by
  rw [counterLength, h]
  rfl

/-- Every `position` of a value lies in the action reference, in the counter or in the meter of a slot. -/
theorem section_cases {position : Nat} (h : position < layout.valueLength) :
    position < layout.actionLength ∨
      (layout.actionLength ≤ position ∧ position < layout.actionLength + layout.counterLength) ∨
      ∃ slot < layout.meters.toNat, layout.meterOffset slot ≤ position ∧
        position < layout.meterOffset slot + Record.byteLength := by
  by_cases haction : position < layout.actionLength
  · exact .inl haction
  · by_cases hcounter : position < layout.actionLength + layout.counterLength
    · exact .inr (.inl ⟨by omega, hcounter⟩)
    · -- The rest of a value are the meters, one after the other.
      simp only [valueLength, meterOffset, Record.byteLength] at h ⊢
      refine .inr (.inr ⟨(position - (layout.actionLength + layout.counterLength)) / 88, ?_, ?_, ?_⟩) <;> omega

/-- Two values with the same action reference, the same counter and the same meters are equal. -/
theorem ext_sections {value other : Bytes} (hvalue : value.length = layout.valueLength)
    (hother : other.length = layout.valueLength)
    (haction : value.slice 0 layout.actionLength = other.slice 0 layout.actionLength)
    (hcounter : value.slice layout.actionLength layout.counterLength =
      other.slice layout.actionLength layout.counterLength)
    (hmeters : ∀ slot < layout.meters.toNat,
      Entry.rawMeter layout value slot = Entry.rawMeter layout other slot) :
    value = other := by
  apply List.ext_getElem?
  intro position
  by_cases hlt : position < layout.valueLength
  · rcases section_cases hlt with hend | ⟨hstart, hend⟩ | ⟨slot, hslot, hstart, hend⟩
    · exact Bytes.getElem?_eq_of_slice_eq haction (Nat.zero_le _) (by omega)
    · exact Bytes.getElem?_eq_of_slice_eq hcounter hstart hend
    · exact Bytes.getElem?_eq_of_slice_eq (hmeters slot hslot) hstart hend
  · rw [List.getElem?_eq_none (by omega), List.getElem?_eq_none (by omega)]

/-- In the action reference `IsPadding` holds of what follows the data. -/
theorem isPadding_action_iff {position : Nat} (h : position < layout.actionLength) :
    layout.IsPadding position ↔ actionIdLength + layout.actionDataLength.toNat ≤ position := by
  constructor
  · rintro (⟨hdata, -⟩ | ⟨kind, -, hstart, -⟩ | ⟨slot, -, hstart, -⟩)
    · exact hdata
    · omega
    · rw [meterOffset] at hstart
      omega
  · intro hdata
    exact .inl ⟨hdata, h⟩

/-- In the counter `IsPadding` holds of what follows the counts. -/
theorem isPadding_counter_iff {kind : CounterKind} (hkind : layout.counter = some kind) {position : Nat}
    (h : position < kind.byteLength) :
    layout.IsPadding (layout.actionLength + position) ↔ kind.countLength ≤ position := by
  have hlength := counterLength_eq hkind
  constructor
  · rintro (⟨-, hend⟩ | ⟨kind', hkind', hstart, -⟩ | ⟨slot, -, hstart, -⟩)
    · omega
    · cases hkind.symm.trans hkind'
      omega
    · rw [meterOffset] at hstart
      omega
  · intro hcounts
    exact .inr (.inl ⟨kind, hkind, by omega, by omega⟩)

/-- In the meter of a `slot`, `IsPadding` holds of the lock word. -/
theorem isPadding_meter_iff {slot position : Nat} (hslot : slot < layout.meters.toNat)
    (h : position < Record.byteLength) :
    layout.IsPadding (layout.meterOffset slot + position) ↔ 80 ≤ position := by
  constructor
  · rintro (⟨-, hend⟩ | ⟨kind, hkind, -, hend⟩ | ⟨slot', -, hstart, hend⟩)
    · rw [meterOffset] at hend
      omega
    · have hlength := counterLength_eq hkind
      rw [meterOffset] at hend
      omega
    · -- No position is in two meters.
      simp only [meterOffset, Record.byteLength] at hstart hend h
      omega
  · intro hlock
    exact .inr (.inr ⟨slot, hslot, by omega, by omega⟩)

end Layout

namespace Entry

variable {layout : Layout} {value : Bytes} {entry : Entry}

/-- The meter in each `slot` was read from `rawMeter layout value slot`. -/
theorem exists_meter_of_ofBytes (h : ofBytes layout value = .ok entry) {slot : Nat}
    (hslot : slot < layout.meters.toNat) :
    ∃ record, entry.meters[slot]? = some record ∧
      Record.ofBytes (rawMeter layout value slot) = .ok record := by
  obtain ⟨-, hmeters, -, -⟩ := ofBytes_eq_ok_iff.mp h
  obtain ⟨hcount, hraw⟩ := List.forall₂_iff_get.mp hmeters
  rw [List.length_range] at hcount
  have hlt : slot < entry.meters.length := hcount ▸ hslot
  have hrecord := hraw slot (by simpa using hslot) hlt
  rw [List.get_eq_getElem, List.getElem_range] at hrecord
  exact ⟨_, List.getElem?_eq_getElem hlt, hrecord⟩

/-- A `value` is accepted exactly if it has the right length and no meter in it is overfull. -/
theorem exists_ofBytes_iff :
    (∃ entry, ofBytes layout value = .ok entry) ↔
      value.length = layout.valueLength ∧
        ∀ slot < layout.meters.toNat, (Record.decode (rawMeter layout value slot)).withinCapacity := by
  constructor
  · rintro ⟨entry, hentry⟩
    refine ⟨(ofBytes_eq_ok_iff.mp hentry).1, fun slot hslot => ?_⟩
    obtain ⟨record, -, hrecord⟩ := exists_meter_of_ofBytes hentry hslot
    exact (Record.ofBytes_eq_ok_iff.mp hrecord).2.1
  · rintro ⟨hlength, hwithin⟩
    let meters := (List.range layout.meters.toNat).map fun slot => Record.decode (rawMeter layout value slot)
    refine ⟨⟨ActionRef.decode layout value,
      layout.counter.map (Counter.decode (value.drop layout.actionLength)), meters⟩,
      ofBytes_eq_ok_iff.mpr ⟨hlength, ?_, rfl, rfl⟩⟩
    rw [List.forall₂_map_right_iff, List.forall₂_same]
    intro slot hslot
    have hlt := List.mem_range.mp hslot
    exact Record.ofBytes_eq_ok_iff.mpr ⟨length_rawMeter hlength hlt, hwithin slot hlt, rfl⟩

section Sections

/-! Each section of a value with zeros for the padding is the section, decoded and encoded again. -/

theorem slice_action_blank (h : value.length = layout.valueLength) :
    (value.blank layout.IsPadding).slice 0 layout.actionLength =
      (ActionRef.decode layout value).encode layout := by
  have hroom : 0 + layout.actionLength ≤ value.length := by
    have := layout.actionLength_le_valueLength
    omega
  have hslice := Bytes.length_slice hroom
  rw [ActionRef.encode_decode (by omega), Bytes.slice_blank,
    Bytes.blank_eq_take_append fun position hposition => ?_, hslice, Bytes.slice, List.take_take,
    Nat.min_eq_left layout.le_actionLength]
  · rfl
  · rw [Nat.zero_add]
    exact Layout.isPadding_action_iff (hslice ▸ hposition)

theorem slice_counter_blank {kind : CounterKind} (hkind : layout.counter = some kind)
    (h : value.length = layout.valueLength) :
    (value.blank layout.IsPadding).slice layout.actionLength kind.byteLength =
      (Counter.decode (value.drop layout.actionLength) kind).encode kind := by
  have hlength := Layout.counterLength_eq hkind
  have hroom : layout.actionLength + kind.byteLength ≤ value.length := by
    rw [h, Layout.valueLength, Layout.meterOffset, hlength]
    omega
  have hcounts : kind.countLength ≤ kind.byteLength := by cases kind <;> decide
  have hslice := Bytes.length_slice hroom
  rw [Counter.encode_decode (by rw [List.length_drop]; omega), Bytes.slice_blank,
    Bytes.blank_eq_take_append fun position hposition =>
      Layout.isPadding_counter_iff hkind (hslice ▸ hposition),
    hslice, Bytes.slice, List.take_take, Nat.min_eq_left hcounts]

theorem rawMeter_blank {slot : Nat} (hslot : slot < layout.meters.toNat)
    (h : value.length = layout.valueLength) :
    rawMeter layout (value.blank layout.IsPadding) slot =
      (Record.decode (rawMeter layout value slot)).toBytes := by
  have hraw := length_rawMeter h hslot
  have hblank : rawMeter layout (value.blank layout.IsPadding) slot =
      (rawMeter layout value slot).blank fun position =>
        layout.IsPadding (layout.meterOffset slot + position) := Bytes.slice_blank _ _
  rw [Record.toBytes_decode hraw, hblank,
    Bytes.blank_eq_take_append fun position hposition => Layout.isPadding_meter_iff hslot (hraw ▸ hposition),
    hraw]
  rfl

end Sections

theorem slice_action_toBytes (entry : Entry) (layout : Layout) :
    (entry.toBytes layout).slice 0 layout.actionLength = entry.action.encode layout := by
  rw [toBytes, List.append_assoc, ← entry.action.length_encode layout]
  exact Bytes.slice_append [] _ _

theorem slice_counter_toBytes (entry : Entry) (layout : Layout) :
    (entry.toBytes layout).slice layout.actionLength layout.counterLength = entry.counterBytes layout := by
  rw [toBytes, ← entry.action.length_encode layout, ← entry.length_counterBytes layout]
  exact Bytes.slice_append _ _ _

/-- The value of an entry is the `value` that it was read from, with zeros for the padding. -/
theorem toBytes_of_ofBytes (h : ofBytes layout value = .ok entry) :
    entry.toBytes layout = value.blank layout.IsPadding := by
  obtain ⟨hlength, -, haction, hcounter⟩ := ofBytes_eq_ok_iff.mp h
  refine Layout.ext_sections (length_toBytes (fits_of_ofBytes h)) (by rw [Bytes.length_blank, hlength])
    ?_ ?_ ?_
  · -- The three sections are compared one by one.
    rw [slice_action_blank hlength, ← haction, slice_action_toBytes]
  · rw [slice_counter_toBytes, counterBytes, hcounter]
    cases hkind : layout.counter with
    | none => simp [Layout.counterLength, hkind, Bytes.slice]
    | some kind =>
      rw [Layout.counterLength_eq hkind, slice_counter_blank hkind hlength]
      rfl
  · intro slot hslot
    obtain ⟨record, hrecord, hraw⟩ := exists_meter_of_ofBytes h hslot
    rw [rawMeter_blank hslot hlength, ← (Record.ofBytes_eq_ok_iff.mp hraw).2.2]
    exact rawMeter_toBytes layout hrecord

end Entry

namespace Table

variable {table : Table} {timer : Timer} {description : TableDescription} {key value : Bytes}

/-- The raw value under `key` is that of its entry. -/
theorem entryValue_eq_ok_iff :
    table.entryValue key = .ok value ↔
      ∃ entry, table.entryAt? key = some entry ∧ value = entry.toBytes table.layout := by
  simp only [entryValue, bind_eq_ok_iff, require_eq_ok_iff, pure_eq_ok, Except.ok.injEq,
    entryAt?_eq_map_find?, Option.map_eq_some_iff]
  constructor
  · rintro ⟨found, hfound, rfl⟩
    exact ⟨found.2, ⟨found, hfound, rfl⟩, rfl⟩
  · rintro ⟨_, ⟨found, hfound, rfl⟩, rfl⟩
    exact ⟨found, hfound, rfl⟩

theorem Intact.fits_entryAt? (h : table.Intact timer description) {entry : Entry}
    (hentry : table.entryAt? key = some entry) : entry.Fits table.layout := by
  rw [entryAt?_eq_map_find?] at hentry
  obtain ⟨⟨id, _⟩, hfind, rfl⟩ := Option.map_eq_some_iff.mp hentry
  rw [h.layout_eq]
  exact h.fits_found hfind

/-- After `entry` was written under `key`, its raw value is read there, whether or not `key` is new. -/
theorem Intact.entryValue_write (h : table.Intact timer description) (key : Bytes) (entry : Entry) :
    (table.write key entry).entryValue key = .ok (entry.toBytes table.layout) := by
  refine entryValue_eq_ok_iff.mpr ⟨entry, ?_, by rw [layout_write]⟩
  rw [h.entryAt?_write, if_pos rfl]

/-- What is written under a `key` is what is read there, but for padding, on every table that can be reached and
whose values have a length that fits into a word:

- `value` is accepted exactly if it has the right length and none of its meters is overfull;
- then it is read back with zeros for the padding after the data of the action, for that of the counter and for
  the lock words, and with all other bytes as they were. It does not matter whether `key` was there before, nor
  what was under it;
- the value that is read of any entry can be written again, which changes nothing of it. -/
theorem update_keeps_all_but_padding (table : Table) (htable : table.Reachable)
    (hsize : table.layout.valueLength < UInt64.size) (key value : Bytes) :
    ((∃ next, table.update key value = .ok next) ↔
      value.length = table.layout.valueWord.toNat ∧
        ∀ slot < table.layout.meters.toNat,
          (Record.decode (Entry.wordMeter table.layout value slot)).withinCapacity) ∧
    (∀ next, table.update key value = .ok next →
      next.entryValue key = .ok (value.blank table.layout.IsPadding) ∧
        ∃ entry, Entry.ofBytes table.layout value = .ok entry ∧ next.entryAt? key = some entry) ∧
    (∀ current, table.entryValue key = .ok current →
      ∃ next, table.update key current = .ok next ∧ next.entryValue key = .ok current) := by
  obtain ⟨timer, description, hintact⟩ := htable.intact
  refine ⟨?_, ?_, ?_⟩
  · have hmeters : (∀ slot < table.layout.meters.toNat,
          (Record.decode (Entry.wordMeter table.layout value slot)).withinCapacity) ↔
        ∀ slot < table.layout.meters.toNat,
          (Record.decode (Entry.rawMeter table.layout value slot)).withinCapacity := by
      refine forall₂_congr fun slot hslot => ?_
      rw [Entry.wordMeter_eq_rawMeter hsize value hslot]
    rw [table.layout.toNat_valueWord hsize, hmeters, ← Entry.exists_ofBytes_iff]
    constructor
    · rintro ⟨next, hnext⟩
      obtain ⟨entry, hentry, -⟩ := hintact.update_eq_ok_iff.mp hnext
      exact ⟨entry, hentry⟩
    · rintro ⟨entry, hentry⟩
      exact ⟨_, hintact.update_eq_ok_iff.mpr ⟨entry, hentry, rfl⟩⟩
  · intro next hnext
    obtain ⟨entry, hentry, rfl⟩ := hintact.update_eq_ok_iff.mp hnext
    refine ⟨?_, entry, hentry, ?_⟩
    · rw [hintact.entryValue_write, Entry.toBytes_of_ofBytes hentry]
    · rw [hintact.entryAt?_write, if_pos rfl]
  · intro current hcurrent
    obtain ⟨entry, hentry, rfl⟩ := entryValue_eq_ok_iff.mp hcurrent
    -- What is stored of an entry has the same value, and that is what is written again.
    have hfits := hintact.fits_entryAt? hentry
    refine ⟨_, hintact.update_eq_ok_iff.mpr ⟨_, Entry.ofBytes_toBytes hfits, rfl⟩, ?_⟩
    rw [hintact.entryValue_write, Entry.toBytes_stored]

/-- An entry with three bytes of action data, a counter of packets and a meter is rewritten with ones in every
bit. One byte after the data, four after the counter and the lock word are zeros when it is read. -/
theorem update_keeps_all_but_padding_of_ones :
    let start := Table.create "t" ⟨3, some .packets, 1⟩ .bytes (.ofResolution 1)
    let table := (start.perform (.update [9] (Bytes.zeros 104))).2
    let ones := fun length : Nat => List.replicate length (255 : UInt8)
    table.Reachable ∧ table.entryValue [9] = .ok (Bytes.zeros 104) ∧
      (∃ next, table.update [9] (ones 104) = .ok next ∧
        next.entryValue [9] =
          .ok (ones 7 ++ Bytes.zeros 1 ++ ones 4 ++ Bytes.zeros 4 ++ ones 80 ++ Bytes.zeros 8)) ∧
      ∃ next, table.update [9] (Bytes.zeros 104) = .ok next ∧
        next.entryValue [9] = .ok (Bytes.zeros 104) := by
  intro start table ones
  have hreach : table.Reachable := .perform (.create ..) _
  have hsize : table.layout.valueLength < UInt64.size := by decide +kernel
  have hold : table.entryValue [9] = .ok (Bytes.zeros 104) := by decide +kernel
  have hones : (ones 104).length = table.layout.valueWord.toNat ∧ ∀ slot < table.layout.meters.toNat,
      (Record.decode (Entry.wordMeter table.layout (ones 104) slot)).withinCapacity := by decide +kernel
  have hblank : Bytes.blank table.layout.IsPadding (ones 104) =
      ones 7 ++ Bytes.zeros 1 ++ ones 4 ++ Bytes.zeros 4 ++ ones 80 ++ Bytes.zeros 8 := by decide +kernel
  clear_value table ones
  obtain ⟨hiff, hkept, -⟩ := update_keeps_all_but_padding table hreach hsize [9] (ones 104)
  obtain ⟨next, hnext⟩ := hiff.mpr hones
  have hagain := (update_keeps_all_but_padding table hreach hsize [9] []).2.2 _ hold
  exact ⟨hreach, hold, ⟨next, hnext, hblank ▸ (hkept next hnext).1⟩, hagain⟩

end Table

end TrafficMeter
