import TrafficMeter.Proofs.Identity
import TrafficMeter.Proofs.Independence

/-!
# Which bytes an operation changes

The raw value of an entry is where its action, its counter and its meters are seen from outside. An operation
that meters packets or configures a meter has a footprint there (`Table.Operation.mayChange`), and all other
bytes of the value stay as they are: a packet moves the levels and stamps of the meters that it reaches, and
the counter if it hits the entry, and a new configuration stays within its meter. Values under other keys are
not touched at all.

The sections of a value do not overlap, so footprints can be compared by position. What a run cannot reach is
what no footprint of its operations contains (`Table.Intact.entryValue_run`): the action always, and any
meter that no operation is about. Padding has no footprint of its own, but is zero in every value.

## Main definitions

* `Bytes.SameOutside`: two byte strings differ only where a change is allowed;
* `Table.Operation.mayChange`: the footprint of an operation in the value under a key.

## Main results

* `Table.Intact.entryValue_perform`, `Table.Intact.entryValue_run`: one operation and a run stay in their
  footprints;
* `Table.changes_stay_in_footprint`: what they leave alone.
-/

namespace TrafficMeter

/-- `value` and `next` are of one length and differ only at positions that are `changed`. -/
structure Bytes.SameOutside (changed : Nat → Prop) (value next : Bytes) : Prop where
  /-- They have the same length. -/
  length_eq : next.length = value.length
  /-- They have the same bytes at all other positions. -/
  getElem?_eq : ∀ position, ¬ changed position → next[position]? = value[position]?

namespace Bytes.SameOutside

variable {changed changed' : Nat → Prop} {value next last : Bytes}

theorem refl (value : Bytes) : SameOutside changed value value :=
  ⟨rfl, fun _ _ => rfl⟩

theorem mono (h : SameOutside changed value next) (himp : ∀ position, changed position → changed' position) :
    SameOutside changed' value next :=
  ⟨h.length_eq, fun position hposition => h.getElem?_eq position fun hchanged => hposition (himp _ hchanged)⟩

theorem trans (h : SameOutside changed value next) (h' : SameOutside changed next last) :
    SameOutside changed value last :=
  ⟨h'.length_eq.trans h.length_eq, fun position hposition =>
    (h'.getElem?_eq position hposition).trans (h.getElem?_eq position hposition)⟩

/-- A part without `changed` positions is the same in both. -/
theorem slice_eq (h : SameOutside changed value next) {start length : Nat}
    (hpart : ∀ offset < length, ¬ changed (start + offset)) :
    next.slice start length = value.slice start length := by
  apply List.ext_getElem?
  intro offset
  rw [getElem?_slice, getElem?_slice]
  split
  next hoffset => exact h.getElem?_eq _ (hpart offset hoffset)
  next => rfl

end Bytes.SameOutside

namespace Layout

variable (layout : Layout)

/-- `position` lies in the meter of `slot`. -/
def InMeter (slot position : Nat) : Prop :=
  (layout.meterRange slot).1 ≤ position ∧ position < (layout.meterRange slot).2

/-- `position` lies in one of the four words of the meter of `slot` that hold the levels and the stamps of its
two buckets. They follow the six words of the periods, quanta and capacities (`Record.words`). -/
def InLevels (slot position : Nat) : Prop :=
  layout.meterOffset slot + 8 * 6 ≤ position ∧ position < layout.meterOffset slot + 8 * 10

/-- `position` lies in the counter. -/
def InCounter (position : Nat) : Prop :=
  ∃ range ∈ layout.counterRange, range.1 ≤ position ∧ position < range.2

variable {layout} {slot slot' position : Nat}

theorem inCounter_iff :
    layout.InCounter position ↔
      layout.actionLength ≤ position ∧ position < layout.actionLength + layout.counterLength := by
  cases hkind : layout.counter with
  | none =>
    simp only [InCounter, counterRange, counterLength, hkind, Option.map_none, Option.getD_none,
      Option.not_mem_none, false_and, exists_false, false_iff]
    omega
  | some kind => simp [InCounter, counterRange, counterLength_eq hkind, hkind]

theorem InLevels.inMeter (h : layout.InLevels slot position) : layout.InMeter slot position := by
  obtain ⟨hstart, hend⟩ := h
  simp only [InMeter, meterRange, Record.byteLength]
  omega

/-- The counter follows the action reference. -/
theorem InCounter.actionLength_le (h : layout.InCounter position) : layout.actionLength ≤ position :=
  (inCounter_iff.mp h).1

theorem InMeter.actionLength_le (h : layout.InMeter slot position) : layout.actionLength ≤ position := by
  have hstart := h.1
  simp only [meterRange, meterOffset] at hstart
  omega

/-- No `position` is in two meters. -/
theorem InMeter.slot_eq (h : layout.InMeter slot position) (h' : layout.InMeter slot' position) :
    slot = slot' := by
  simp only [InMeter, meterRange, meterOffset, Record.byteLength] at h h'
  omega

theorem IsPadding.lt_valueLength (h : layout.IsPadding position) : position < layout.valueLength := by
  rw [valueLength, meterOffset, Record.byteLength]
  rcases h with ⟨-, hend⟩ | ⟨kind, hkind, -, hend⟩ | ⟨slot, hslot, -, hend⟩
  · omega
  · have hlength := counterLength_eq hkind
    omega
  · rw [meterOffset, Record.byteLength] at hend
    omega

end Layout

namespace Record

/-- The raw forms of records with the same periods, quanta and capacities, which are the first six words, differ
in the levels and stamps only. -/
theorem getElem?_toBytes_congr {record other : Record} (h : other.words.take 6 = record.words.take 6)
    {offset : Nat} (hoffset : ¬ (8 * 6 ≤ offset ∧ offset < 8 * 10)) :
    other.toBytes[offset]? = record.toBytes[offset]? := by
  have hwords (record : Record) (hlt : offset < 8 * 6) :
      record.toBytes[offset]? = ((record.words.take 6).flatMap Bytes.ofUInt64)[offset]? := by
    have hsplit : record.toBytes = (record.words.take 6).flatMap Bytes.ofUInt64 ++
        (record.words.drop 6 ++ [0]).flatMap Bytes.ofUInt64 := rfl
    rw [hsplit, List.getElem?_append_left (by simpa [words] using hlt)]
  -- Behind the levels and stamps there is only the lock word.
  have hlock (record : Record) (hle : 8 * 10 ≤ offset) :
      record.toBytes[offset]? = (Bytes.ofUInt64 0)[offset - 80]? := by
    have hsplit : record.toBytes = record.words.flatMap Bytes.ofUInt64 ++ Bytes.ofUInt64 0 := rfl
    have hlength : (record.words.flatMap Bytes.ofUInt64).length = 80 := by simp [words]
    rw [hsplit, List.getElem?_append_right (by omega), hlength]
  by_cases hlt : offset < 8 * 6
  · rw [hwords other hlt, hwords record hlt, h]
  · rw [hlock other (by omega), hlock record (by omega)]

/-- A packet leaves the periods, quanta and capacities of a meter alone. -/
theorem take_words_markFrom (record : Record) (incoming : Color) (size now : UInt64) :
    (record.markFrom incoming size now).2.words.take 6 = record.words.take 6 := by
  -- Whatever the colour, each bucket is refilled and then charged.
  have hpeak := record.bucket_receive ⟨incoming, size, now⟩ .peak
  have hcommitted := record.bucket_receive ⟨incoming, size, now⟩ .committed
  simp only [bucket, receive] at hpeak hcommitted
  simp only [words, hpeak, hcommitted]
  rfl

end Record

namespace Entry

variable {layout : Layout} {entry next : Entry} {changed : Nat → Prop} {slot : Nat} {record : Record}

/-- Two entries with the same action have the same value, except where their counters and meters differ. -/
theorem sameOutside_of_sections (hentry : entry.Fits layout) (hnext : next.Fits layout)
    (haction : next.action = entry.action)
    (hcounter : next.counter = entry.counter ∨ ∀ position, layout.InCounter position → changed position)
    (hmeters : ∀ (slot : Nat) (record record' : Record), entry.meters[slot]? = some record →
      next.meters[slot]? = some record' → ∀ offset < Record.byteLength,
        ¬ changed (layout.meterOffset slot + offset) → record'.toBytes[offset]? = record.toBytes[offset]?) :
    Bytes.SameOutside changed (entry.toBytes layout) (next.toBytes layout) := by
  refine ⟨by rw [length_toBytes hentry, length_toBytes hnext], fun position hposition => ?_⟩
  by_cases hlt : position < layout.valueLength
  · rcases Layout.section_cases hlt with hend | ⟨hstart, hend⟩ | ⟨slot, hslot, hstart, hend⟩
    · have hslice : (next.toBytes layout).slice 0 layout.actionLength =
          (entry.toBytes layout).slice 0 layout.actionLength := by
        rw [slice_action_toBytes, slice_action_toBytes, haction]
      exact Bytes.getElem?_eq_of_slice_eq hslice (Nat.zero_le _) (by omega)
    · rcases hcounter with hcounter | hcounter
      · have hslice : (next.toBytes layout).slice layout.actionLength layout.counterLength =
            (entry.toBytes layout).slice layout.actionLength layout.counterLength := by
          rw [slice_counter_toBytes, slice_counter_toBytes, counterBytes, counterBytes, hcounter]
        exact Bytes.getElem?_eq_of_slice_eq hslice hstart hend
      · exact absurd (hcounter position (Layout.inCounter_iff.mpr ⟨hstart, hend⟩)) hposition
    · -- A meter may change in part, so its bytes are looked at one by one.
      obtain ⟨offset, rfl⟩ := Nat.exists_eq_add_of_le hstart
      have hoffset : offset < Record.byteLength := by omega
      have hrecord := List.getElem?_eq_getElem (hentry.length_meters ▸ hslot : slot < entry.meters.length)
      have hrecord' := List.getElem?_eq_getElem (hnext.length_meters ▸ hslot : slot < next.meters.length)
      have hbyte := hmeters slot _ _ hrecord hrecord' offset hoffset hposition
      rw [← rawMeter_toBytes layout hrecord, ← rawMeter_toBytes layout hrecord'] at hbyte
      simpa only [rawMeter, Bytes.getElem?_slice, if_pos hoffset] using hbyte
  · rw [List.getElem?_eq_none (by rw [length_toBytes hnext]; omega),
      List.getElem?_eq_none (by rw [length_toBytes hentry]; omega)]

/-- If the meter in `slot` is replaced by `record`, the value changes where the raw meters differ. -/
theorem sameOutside_putMeter (hentry : entry.Fits layout) (hnext : (entry.putMeter slot record).Fits layout)
    (hmeter : ∀ old, entry.meters[slot]? = some old → ∀ offset < Record.byteLength,
      ¬ changed (layout.meterOffset slot + offset) → record.toBytes[offset]? = old.toBytes[offset]?) :
    Bytes.SameOutside changed (entry.toBytes layout) ((entry.putMeter slot record).toBytes layout) := by
  refine sameOutside_of_sections hentry hnext rfl (.inl rfl) ?_
  intro slot' old new hold hnew offset hoffset hchanged
  by_cases hslot : slot = slot'
  · subst hslot
    have hlt := (List.getElem?_eq_some_iff.mp hold).1
    cases (List.getElem?_set_self hlt).symm.trans hnew
    exact hmeter old hold offset hoffset hchanged
  · have hkept : (entry.meters.set slot record)[slot']? = entry.meters[slot']? := List.getElem?_set_ne hslot
    cases hold.symm.trans (hkept.symm.trans hnew)
    rfl

/-- If a packet is counted and marked on all meters, the value changes in the counter and in the levels and
stamps of the meters. -/
theorem sameOutside_hit (hentry : entry.Fits layout) (length : UInt32) (size now : UInt64) :
    Bytes.SameOutside
      (fun position => layout.InCounter position ∨ ∃ slot < layout.meters.toNat, layout.InLevels slot position)
      (entry.toBytes layout) (((entry.count length).markAll size now).2.toBytes layout) := by
  refine sameOutside_of_sections hentry ((hentry.count length).markAll size now) rfl
    (.inr fun _ hcounter => .inl hcounter) ?_
  intro slot old new hold hnew offset hoffset hchanged
  have hlt := (List.getElem?_eq_some_iff.mp hold).1
  have hmarked : new = (old.mark size now).2 := by simpa [markAll, count, hold, eq_comm] using hnew
  rw [hmarked]
  refine Record.getElem?_toBytes_congr (old.take_words_markFrom _ _ _) fun hlevels => ?_
  exact hchanged (.inr ⟨slot, hentry.length_meters ▸ hlt, by omega, by omega⟩)

/-- The value of an entry has zeros where `layout.IsPadding` holds. -/
theorem getElem?_toBytes_of_isPadding (h : entry.Fits layout) {position : Nat}
    (hposition : layout.IsPadding position) : (entry.toBytes layout)[position]? = some 0 := by
  -- A value that is read and written again is itself with zeros for the padding.
  have hblank := toBytes_of_ofBytes (ofBytes_toBytes h)
  have hlt : position < (entry.toBytes layout).length := by
    rw [length_toBytes h]
    exact hposition.lt_valueLength
  rw [toBytes_stored] at hblank
  rw [hblank, Bytes.getElem?_blank, List.getElem?_eq_getElem hlt, Option.map_some, if_pos hposition]

end Entry

namespace Table

variable {timer : Timer} {description : TableDescription} {layout : Layout} {table : Table} {key : Bytes}
  {slot position : Nat} {operation : Operation} {operations : List Operation}

/-- The operation meters a packet or configures a meter. -/
def Operation.isOnMeters : Operation → Bool
  | .execute .. => true
  | .executeFrom .. => true
  | .hit .. => true
  | .configure .. => true
  | .reset .. => true
  | _ => false

/-- `operation` may change the value under `key` at `position`. A packet changes levels and stamps, and the
counter if it hits the whole entry. -/
def Operation.mayChange (layout : Layout) (key : Bytes) (operation : Operation) (position : Nat) : Prop :=
  match operation with
  | .execute reached slot .. => reached = key ∧ layout.InLevels slot position
  | .executeFrom reached slot .. => reached = key ∧ layout.InLevels slot position
  | .configure reached slot _ => reached = key ∧ layout.InMeter slot position
  | .reset reached slot => reached = key ∧ layout.InMeter slot position
  | .hit reached .. => reached = key ∧
      (layout.InCounter position ∨ ∃ slot < layout.meters.toNat, layout.InLevels slot position)
  | _ => False

/-! ### Where footprints are -/

theorem Operation.key?_of_mayChange (h : operation.mayChange layout key position) :
    operation.key? = some key := by
  cases operation with
  | execute | executeFrom | hit | configure | reset => exact congrArg some h.1
  | _ => exact h.elim

/-- No `operation` changes the action reference. -/
theorem Operation.actionLength_le_of_mayChange (h : operation.mayChange layout key position) :
    layout.actionLength ≤ position := by
  cases operation with
  | execute | executeFrom => exact h.2.inMeter.actionLength_le
  | configure | reset => exact h.2.actionLength_le
  | hit =>
    rcases h.2 with hcounter | ⟨slot, -, hlevels⟩
    · exact hcounter.actionLength_le
    · exact hlevels.inMeter.actionLength_le
  | _ => exact h.elim

/-- An `operation` that may change the meter of `slot` is about it. -/
theorem Operation.concerns_of_mayChange (h : operation.mayChange layout key position)
    (hmeter : layout.InMeter slot position) (hslot : slot < layout.meters.toNat) :
    operation.concerns layout (key, slot) = true := by
  cases operation with
  | execute | executeFrom =>
    obtain ⟨rfl, hlevels⟩ := h
    cases hmeter.slot_eq hlevels.inMeter
    simp [concerns, call?, request?, Call.reaches, hslot]
  | configure | reset =>
    obtain ⟨rfl, hchanged⟩ := h
    cases hmeter.slot_eq hchanged
    simp [concerns, call?, request?, Call.reaches, hslot]
  | hit =>
    obtain ⟨rfl, -⟩ := h
    simp [concerns, call?, Call.reaches, hslot]
  | _ => exact h.elim

/-! ### Steps and runs -/

/-- An `entry` that responds to `operation` changes its value in the footprint of `operation` only. -/
theorem sameOutside_of_respond {entry : Entry} {call : Call} {response : Response}
    (hcall : operation.call? = some (key, call)) (hoperation : operation.isOnMeters = true)
    (hentry : entry.Fits table.layout) (hnext : response.entry.Fits table.layout)
    (hresponse : table.respond key (some entry) call = .ok response) :
    Bytes.SameOutside (operation.mayChange table.layout key) (entry.toBytes table.layout)
      (response.entry.toBytes table.layout) := by
  cases operation with
  | execute | executeFrom =>
    cases hcall
    obtain ⟨_, record, answer, served, hfound, hslot, hserve, hput⟩ := exists_serve_of_respond hresponse
    cases hfound
    cases hserve
    rw [hput] at hnext ⊢
    refine Entry.sameOutside_putMeter hentry hnext fun old hold offset _ hchanged => ?_
    cases hslot.symm.trans hold
    refine Record.getElem?_toBytes_congr (record.take_words_markFrom _ _ _) fun hlevels => ?_
    exact hchanged ⟨rfl, Nat.add_le_add_left hlevels.1 _, Nat.add_lt_add_left hlevels.2 _⟩
  | configure | reset =>
    cases hcall
    obtain ⟨_, served, hfound, hput⟩ := exists_putMeter_of_respond hresponse
    cases hfound
    rw [hput] at hnext ⊢
    -- The footprint is the whole meter, so nothing needs to be known of the new one.
    refine Entry.sameOutside_putMeter hentry hnext fun _ _ offset hoffset hchanged => ?_
    exact absurd ⟨rfl, Nat.le_add_right _ _, Nat.add_lt_add_left hoffset _⟩ hchanged
  | hit =>
    cases hcall
    cases hresponse
    exact (Entry.sameOutside_hit hentry _ _ _).mono fun _ hchanged => ⟨rfl, hchanged⟩
  | _ => cases hoperation

theorem Operation.isSome_call?_of_isOnMeters (h : operation.isOnMeters = true) :
    operation.call?.isSome = true := by
  cases operation with
  | execute | executeFrom | hit | configure | reset => rfl
  | _ => cases h

theorem Operation.inserts_of_isOnMeters (h : operation.isOnMeters = true) :
    operation.inserts table = false := by
  cases operation with
  | execute | executeFrom | hit | configure | reset => rfl
  | _ => cases h

/-- Tables with the same layout and name have the same value under `key` if they have the same entry there. -/
theorem entryValue_congr {other : Table} (hlayout : other.layout = table.layout)
    (hname : other.name = table.name) (hentry : other.entryAt? key = table.entryAt? key) :
    other.entryValue key = table.entryValue key := by
  rw [entryAt?_eq_map_find?, entryAt?_eq_map_find?] at hentry
  simp only [entryValue, require, hlayout, hname]
  cases hfind : table.find? key with
  | none =>
    rw [hfind, Option.map_none, Option.map_eq_none_iff] at hentry
    rw [hentry]
  | some found =>
    rw [hfind, Option.map_some, Option.map_eq_some_iff] at hentry
    obtain ⟨found', hfind', heq⟩ := hentry
    simp only [hfind', ok_bind, heq]

/-- An `operation` changes the value under `key` in its footprint only. -/
theorem Intact.entryValue_perform (h : table.Intact timer description)
    (hoperation : operation.isOnMeters = true) (key : Bytes) :
    Agree (Bytes.SameOutside (operation.mayChange table.layout key)) (table.entryValue key)
      ((table.perform operation).2.entryValue key) := by
  obtain ⟨⟨reached, call⟩, hcall⟩ :=
    Option.isSome_iff_exists.mp (Operation.isSome_call?_of_isOnMeters hoperation)
  have hnext := h.perform operation
  cases hresponse : table.respond reached (table.entryAt? reached) call with
  | error error =>
    -- A refused operation changes nothing.
    rw [perform_eq_settle_respond hcall, hresponse]
    exact .of_refl .refl _
  | ok response =>
    rw [perform_of_respond hcall hresponse] at hnext ⊢
    have hlayout : (table.after reached response).layout = table.layout := layout_after ..
    by_cases hkey : key = reached
    · subst hkey
      have hsome := isSome_entryAt?_of_respond hcall (Operation.inserts_of_isOnMeters hoperation) hresponse
      obtain ⟨entry, hentry⟩ := Option.isSome_iff_exists.mp hsome
      have hafter : (table.after key response).entryAt? key = some response.entry := by
        rw [h.entryAt?_after, if_pos rfl]
      rw [hentry] at hresponse
      rw [entryValue_eq_ok_iff.mpr ⟨entry, hentry, rfl⟩, entryValue_eq_ok_iff.mpr ⟨_, hafter, rfl⟩, hlayout]
      exact .ok (sameOutside_of_respond hcall hoperation (h.fits_entryAt? hentry)
        (hlayout ▸ hnext.fits_entryAt? hafter) hresponse)
    · -- The entry is another one, and all that its value depends on is as before.
      have hafter : (table.after reached response).entryAt? key = table.entryAt? key := by
        rw [h.entryAt?_after, if_neg hkey]
      rw [entryValue_congr hlayout (congrArg Table.name (frame_write reached response.entry) :) hafter]
      exact .of_refl .refl _

/-- A run of `operations` changes the value under `key` in their footprints only. -/
theorem Intact.entryValue_run (h : table.Intact timer description)
    (hoperations : ∀ operation ∈ operations, operation.isOnMeters = true) (key : Bytes) :
    Agree (Bytes.SameOutside fun position =>
        ∃ operation ∈ operations, operation.mayChange table.layout key position)
      (table.entryValue key) ((table.run operations).2.entryValue key) := by
  induction operations generalizing table with
  | nil => exact .of_refl .refl _
  | cons operation rest ih =>
    rw [List.forall_mem_cons] at hoperations
    have hrest := ih (h.perform operation) hoperations.2
    -- The layout is fixed, so the footprints of the rest are the same before and after the first operation.
    rw [(h.perform operation).layout_eq, ← h.layout_eq] at hrest
    refine (h.entryValue_perform hoperations.1 key).trans hrest fun _ _ _ hfirst hlast => ?_
    refine (hfirst.mono fun _ hchanged => ?_).trans (hlast.mono fun _ hchanged => ?_)
    · exact ⟨operation, List.mem_cons_self, hchanged⟩
    · obtain ⟨other, hother, hchanged⟩ := hchanged
      exact ⟨other, List.mem_cons_of_mem _ hother, hchanged⟩

/-- An `operation` leaves the value under any `key` but its own alone. -/
theorem Intact.entryValue_perform_of_ne (h : table.Intact timer description)
    (hoperation : operation.isOnMeters = true) (hkey : operation.key? ≠ some key) :
    (table.perform operation).2.entryValue key = table.entryValue key := by
  have hagree := h.entryValue_perform hoperation key
  generalize table.entryValue key = outcome at hagree ⊢
  generalize (table.perform operation).2.entryValue key = outcome' at hagree ⊢
  cases hagree with
  | error error => rfl
  | ok hsame =>
    -- The footprint is empty, so the values have all bytes in common.
    refine congrArg Except.ok (List.ext_getElem? fun position => hsame.getElem?_eq position ?_)
    exact fun hchanged => hkey (Operation.key?_of_mayChange hchanged)

/-- What operations do to the raw values of a table stays in its place:

- metering a packet on a slot changes the levels and stamps of the meter there, configuring or resetting the slot
  changes that meter, and a hit changes the counter and the levels and stamps of all meters. All other bytes of
  the value stay as they are, and so do the values of other keys;
- hence over any run of such operations the action reference stays as it is, as does every meter that none of
  them is about, and the padding and the lock words are zeros. -/
theorem changes_stay_in_footprint (table : Table) (htable : table.Reachable) :
    (∀ (operation : Operation) (key : Bytes), operation.isOnMeters →
      Agree (Bytes.SameOutside (operation.mayChange table.layout key)) (table.entryValue key)
          ((table.perform operation).2.entryValue key) ∧
        (operation.key? ≠ some key → (table.perform operation).2.entryValue key = table.entryValue key)) ∧
    ∀ (operations : List Operation) (key value : Bytes), (∀ operation ∈ operations, operation.isOnMeters) →
      table.entryValue key = .ok value →
        ∃ last, (table.run operations).2.entryValue key = .ok last ∧
          last.slice 0 table.layout.actionLength = value.slice 0 table.layout.actionLength ∧
          (∀ slot < table.layout.meters.toNat,
            (∀ operation ∈ operations, ¬ operation.concerns table.layout (key, slot)) →
              Entry.rawMeter table.layout last slot = Entry.rawMeter table.layout value slot) ∧
          ∀ position, table.layout.IsPadding position → last[position]? = some 0 := by
  obtain ⟨timer, description, hintact⟩ := htable.intact
  refine ⟨fun operation key hoperation => ⟨hintact.entryValue_perform hoperation key,
    hintact.entryValue_perform_of_ne hoperation⟩, ?_⟩
  intro operations key value hoperations hvalue
  have hrun := hintact.run operations
  have hlayout : (table.run operations).2.layout = table.layout := hrun.layout_eq.trans hintact.layout_eq.symm
  have hagree := hintact.entryValue_run hoperations key
  rw [hvalue] at hagree
  generalize hlast : (table.run operations).2.entryValue key = outcome at hagree
  -- No operation on meters removes an entry, so there is a value at the end.
  cases hagree with
  | @ok _ last hsame =>
    refine ⟨last, rfl, ?_, ?_, ?_⟩
    · -- No footprint reaches into the action reference.
      refine hsame.slice_eq fun offset hoffset => ?_
      rintro ⟨operation, -, hchanged⟩
      have hle := Operation.actionLength_le_of_mayChange hchanged
      omega
    · intro slot hslot hapart
      refine hsame.slice_eq fun offset hoffset => ?_
      rintro ⟨operation, hmem, hchanged⟩
      refine hapart operation hmem (Operation.concerns_of_mayChange hchanged ?_ hslot)
      exact ⟨Nat.le_add_right _ _, Nat.add_lt_add_left hoffset _⟩
    · intro position hposition
      obtain ⟨entry, hentry, rfl⟩ := entryValue_eq_ok_iff.mp hlast
      rw [← hlayout] at hposition
      exact Entry.getElem?_toBytes_of_isPadding (hrun.fits_entryAt? hentry) hposition

/-- Two entries with ones in all bits that are kept of their values are metered and reset in turn. The value of
the first one changes, but not in its second meter, since only the first one is used. -/
theorem changes_stay_in_footprint_two_slots :
    let ones := fun length : Nat => List.replicate length (255 : UInt8)
    let meter := ones 80 ++ Bytes.zeros 8
    let value : Bytes := ones 7 ++ Bytes.zeros 1 ++ ones 4 ++ Bytes.zeros 4 ++ meter ++ meter
    let start := Table.create "t" ⟨3, some .packets, 2⟩ .bytes (.ofResolution 1)
    let table := ((start.perform (.update [1] value)).2.perform (.update [2] value)).2
    let hit := Operation.hit [1] 900 5
    let operations : List Operation := [.execute [1] 0 900 5, .hit [2] 900 5, .reset [1] 0, .reset [2] 1]
    table.Reachable ∧ table.entryValue [1] = .ok value ∧
      Agree (Bytes.SameOutside (hit.mayChange table.layout [1])) (table.entryValue [1])
        ((table.perform hit).2.entryValue [1]) ∧
      (table.perform hit).2.entryValue [2] = table.entryValue [2] ∧
      ∃ last, (table.run operations).2.entryValue [1] = .ok last ∧ last ≠ value ∧
        last.slice 0 8 = value.slice 0 8 ∧
        Entry.rawMeter table.layout last 1 = Entry.rawMeter table.layout value 1 ∧ last[7]? = some 0 := by
  intro ones meter value start table hit operations
  have hreach : table.Reachable := .perform (.perform (.create ..) _) _
  have hlayout : table.layout = ⟨3, some .packets, 2⟩ := by decide +kernel
  have hvalue : table.entryValue [1] = .ok value := by decide +kernel
  have hdiffer : (table.run operations).2.entryValue [1] ≠ .ok value := by decide +kernel
  clear_value table value
  obtain ⟨hstep, hruns⟩ := changes_stay_in_footprint table hreach
  obtain ⟨last, hlast, haction, hmeters, hpadding⟩ := hruns operations [1] value (by decide) hvalue
  rw [hlayout] at haction hpadding
  refine ⟨hreach, hvalue, (hstep hit [1] rfl).1, (hstep hit [2] rfl).2 (by decide), last, hlast, ?_, haction,
    hmeters 1 (by rw [hlayout]; decide) (by rw [hlayout]; decide), hpadding 7 (by decide)⟩
  rintro rfl
  exact hdiffer hlast

end Table

end TrafficMeter
