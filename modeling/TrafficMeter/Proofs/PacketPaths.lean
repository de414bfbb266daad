import TrafficMeter.Proofs.Interleaving
import TrafficMeter.Proofs.Response

/-!
# Three ways of a packet to a meter

A packet reaches a meter when it hits the entry of the meter, when it is executed on the slot of the meter in
an entry, or when it is executed on the index of the meter in a store. The meter does the same in all cases.

A hit marks all meters of an entry in one pass, and executing a packet slot by slot looks the entry up again
each time and rewrites it. Both lead to the same table because the passes over different slots do not see each
other. `Entry.markAt` is the entry after a part of the slots is done, in whatever order: this is what the
induction of `Table.run_execute` is about, and only at the end all slots are taken together.

## Main results

* `Table.run_execute_eq_hit`: a hit is a count and a packet for each slot, in any order;
* `Table.executeFrom_of_read`, `Store.executeFrom_of_read`: what one packet on one meter does;
* `packet_paths_agree`: all of this together.
-/

namespace TrafficMeter

namespace Entry

/-- What the meter in `slot` does with a packet of this `size` at `now`. -/
def markOf (entry : Entry) (size now : UInt64) (slot : Nat) : Color × Record :=
  (entry.meters.getD slot {}).mark size now

/-- The colours that a packet gets on the meters in `slots`, one after the other. -/
def colorsAt (entry : Entry) (slots : List Nat) (size now : UInt64) : List Color :=
  slots.map fun slot => (entry.markOf size now slot).1

/-- `entry` after a packet was marked on the meters in `slots`. -/
def markAt (entry : Entry) (slots : List Nat) (size now : UInt64) : Entry :=
  { entry with
    meters := entry.meters.mapIdx fun slot record =>
      if slot ∈ slots then (record.mark size now).2 else record }

variable {entry : Entry} {slot : Nat} {record : Record} {slots : List Nat} {size now : UInt64}

theorem markOf_of_getElem? (h : entry.meters[slot]? = some record) :
    entry.markOf size now slot = record.mark size now := by
  rw [markOf, List.getD_eq_getElem?_getD, h, Option.getD_some]

/-- The meter in a `slot` that is none of `slots` does not matter to the colours that a packet gets there. -/
theorem colorsAt_putMeter (hslot : slot ∉ slots) :
    (entry.putMeter slot record).colorsAt slots size now = entry.colorsAt slots size now := by
  apply List.map_congr_left
  intro place hplace
  have hne : slot ≠ place := fun heq => hslot (heq ▸ hplace)
  simp only [markOf, putMeter, List.getD_eq_getElem?_getD, List.getElem?_set_ne hne]

theorem markAt_nil : entry.markAt [] size now = entry := by
  have hmeters : entry.meters.mapIdx (fun _ record => record) = entry.meters := by
    apply List.ext_getElem?
    simp
  simp [markAt, hmeters]

/-- To mark a packet on the meters in `slot :: slots` is to mark it on the first and then on the others. -/
theorem markAt_cons (hslot : slot ∉ slots) :
    (entry.putMeter slot (entry.markOf size now slot).2).markAt slots size now =
      entry.markAt (slot :: slots) size now := by
  unfold markAt putMeter
  congr 1
  apply List.ext_getElem?
  intro place
  simp only [List.getElem?_mapIdx, List.mem_cons]
  by_cases hplace : slot = place
  · -- The meter in the first slot is marked now and not again.
    subst hplace
    rw [List.getElem?_set_self']
    cases hrecord : entry.meters[slot]? with
    | none => rfl
    | some record => simp [hslot, markOf_of_getElem? hrecord]
  · rw [List.getElem?_set_ne hplace]
    simp [Ne.symm hplace]

/-- A packet that was marked on the meters in all slots, in any order, was marked on all meters. -/
theorem markAt_eq_markAll (h : ∀ slot < entry.meters.length, slot ∈ slots) :
    entry.markAt slots size now = (entry.markAll size now).2 := by
  unfold markAt markAll
  congr 1
  apply List.ext_getElem
  · simp
  · intro slot hslot _
    have hlt : slot < entry.meters.length := by simpa using hslot
    simp [h slot hlt]

/-- The colours that a packet gets on all meters are those of the slots in order. -/
theorem colors_markAll :
    (entry.markAll size now).1 = entry.colorsAt (List.range entry.meters.length) size now := by
  unfold markAll colorsAt
  apply List.ext_getElem
  · simp
  · intro slot hslot _
    have hlt : slot < entry.meters.length := by simpa using hslot
    simp [markOf_of_getElem? (List.getElem?_eq_getElem hlt)]

end Entry

namespace Table

variable {table : Table} {key : Bytes} {id : EntryId} {entry : Entry} {slot : Nat} {record : Record}

/-! ### An entry that is written and found again -/

/-- Writing the `entry` that is under `key` there once more changes nothing. -/
theorem write_eq_self (h : table.entryAt? key = some entry) : table.write key entry = table := by
  obtain ⟨id, hid, hentry⟩ := Option.bind_eq_some_iff.mp h
  obtain ⟨hlt, rfl⟩ := List.getElem?_eq_some_iff.mp hentry
  rw [write_of_lookup? hid, putObject, List.set_getElem_self]

/-- After an entry was `written` in the place of another, it is found under `key`. -/
theorem entryAt?_write_self (h : table.entryAt? key = some entry) (written : Entry) :
    (table.write key written).entryAt? key = some written := by
  obtain ⟨id, hid, hentry⟩ := Option.bind_eq_some_iff.mp h
  obtain ⟨hlt, -⟩ := List.getElem?_eq_some_iff.mp hentry
  have hlookup : (table.putObject id written).lookup? key = some id := hid
  rw [write_of_lookup? hid, entryAt?, hlookup]
  exact List.getElem?_set_self hlt

theorem entryAt?_of_find? (h : table.find? key = some (id, entry)) : table.entryAt? key = some entry := by
  rw [entryAt?_eq_map_find?, h, Option.map_some]

/-! ### Slot by slot -/

variable {length : UInt32} {size : UInt64}

/-- A packet that is executed on `slot` is marked there, and its colour is counted. -/
theorem perform_execute (hsize : table.unit.size length = size) (hentry : table.entryAt? key = some entry)
    (hslot : slot < entry.meters.length) (now : UInt64) :
    table.perform (.execute key slot length now) =
      (.ok (.color (entry.markOf size now slot).1),
        (table.write key (entry.putMeter slot (entry.markOf size now slot).2)).loadTally
          (table.tally.add (entry.markOf size now slot).1)) := by
  have hrecord := List.getElem?_eq_getElem hslot
  have hrespond : table.respond key (table.entryAt? key) (.meter slot (.execute .green length now)) =
      .ok ⟨.color (entry.markOf size now slot).1, entry.putMeter slot (entry.markOf size now slot).2,
        [(entry.markOf size now slot).1]⟩ := by
    rw [hentry, Entry.markOf_of_getElem? hrecord, ← hsize]
    simp only [respond, hrecord]
    rfl
  exact perform_of_respond rfl hrespond

/-- A packet that is executed on several `slots`, one after the other, is marked on each of them. -/
theorem run_execute {slots : List Nat} (hsize : table.unit.size length = size)
    (hentry : table.entryAt? key = some entry) (hnodup : slots.Nodup)
    (hslots : ∀ slot ∈ slots, slot < entry.meters.length) (now : UInt64) :
    table.run (slots.map fun slot => .execute key slot length now) =
      ((entry.colorsAt slots size now).map fun color => .ok (.color color),
        (table.write key (entry.markAt slots size now)).loadTally
          (table.tally.addAll (entry.colorsAt slots size now))) := by
  induction slots generalizing table entry with
  | nil =>
    rw [Entry.markAt_nil, write_eq_self hentry]
    rfl
  | cons slot rest ih =>
    obtain ⟨hslot, hrest⟩ := List.nodup_cons.mp hnodup
    rw [List.forall_mem_cons] at hslots
    have hfirst := perform_execute hsize hentry hslots.1 now
    set marked := entry.markOf size now slot
    set next := (table.write key (entry.putMeter slot marked.2)).loadTally (table.tally.add marked.1)
    -- The other slots find the entry with one meter changed, which is none of theirs.
    have hunit : next.unit = table.unit := (congrArg Table.unit (frame_write key _) :)
    have hnext : next.entryAt? key = some (entry.putMeter slot marked.2) := entryAt?_write_self hentry _
    have hrun := ih (hunit ▸ hsize) hnext hrest (by simpa [Entry.putMeter] using hslots.2)
    rw [Entry.colorsAt_putMeter hslot, Entry.markAt_cons hslot, write_loadTally,
      write_write (by rw [hentry]; rfl)] at hrun
    rw [List.map_cons, run, runWith_cons, hfirst]
    show (.ok (.color marked.1) :: (next.run _).1, (next.run _).2) = _
    rw [hrun]
    rfl

/-! ### All slots at once -/

/-- A packet that hits `entry` is told the action and the colours of all slots, and leaves the entry with the
packet counted and marked on all meters. -/
theorem hit_of_find? (hsize : table.unit.size length = size) (hfind : table.find? key = some (id, entry))
    (now : UInt64) :
    let slots := List.range entry.meters.length
    table.hit key length now =
      .ok (⟨entry.action, entry.colorsAt slots size now⟩,
        (table.write key ((entry.count length).markAt slots size now)).loadTally
          (table.tally.addAll (entry.colorsAt slots size now))) := by
  intro slots
  have hcolors : ((entry.count length).markAll size now).1 = entry.colorsAt slots size now :=
    Entry.colors_markAll
  have hmarked : (entry.count length).markAt slots size now = ((entry.count length).markAll size now).2 :=
    Entry.markAt_eq_markAll fun _ => List.mem_range.mpr
  rw [hit_eq_ok_iff, hsize]
  refine ⟨id, entry, hfind, by rw [hcolors], ?_⟩
  rw [hmarked, putObject_eq_write hfind]
  rfl

/-- Counting a packet on the object `id` that is found under `key` rewrites the entry there. -/
theorem countObject_of_find? (hfind : table.find? key = some (id, entry)) :
    table.countObject id length = table.write key (entry.count length) := by
  have hobject : table.object? id = some entry := (find?_eq_some_iff.mp hfind).2
  rw [countObject, hobject]
  exact putObject_eq_write hfind _

/-- A packet that is counted on an `entry` and then executed on its slots, in whatever `order`, does what it does
when it hits `entry`. -/
theorem run_execute_eq_hit (hsize : table.unit.size length = size) (hfind : table.find? key = some (id, entry))
    (now : UInt64) {order : List Nat} (horder : order.Perm (List.range entry.meters.length)) :
    let slots := List.range entry.meters.length
    table.run (.countHeld id length :: order.map fun slot => .execute key slot length now) =
      (.ok .done :: (entry.colorsAt order size now).map fun color => .ok (.color color),
        (table.write key ((entry.count length).markAt slots size now)).loadTally
          (table.tally.addAll (entry.colorsAt slots size now))) := by
  intro slots
  have hentry := entryAt?_of_find? hfind
  have hunit : (table.write key (entry.count length)).unit = table.unit :=
    (congrArg Table.unit (frame_write key _) :)
  have hbounds (slot : Nat) (hslot : slot ∈ order) : slot < (entry.count length).meters.length :=
    List.mem_range.mp (horder.mem_iff.mp hslot)
  have hrun := run_execute (hunit ▸ hsize) (entryAt?_write_self hentry (entry.count length))
    (horder.nodup_iff.mpr List.nodup_range) hbounds now
  -- All slots are marked, in whatever order, and the order does not matter to the tally either.
  have hmarked : (entry.count length).markAt order size now = (entry.count length).markAt slots size now := by
    simp only [Entry.markAt, horder.mem_iff, slots]
  have hcolors : table.tally.addAll ((entry.count length).colorsAt order size now) =
      table.tally.addAll (entry.colorsAt slots size now) :=
    Tally.addAll_perm (horder.map _) _
  rw [hmarked, write_write (by rw [hentry]; rfl), tally_write, hcolors] at hrun
  rw [run, runWith_cons]
  show (.ok .done :: ((table.countObject id length).run _).1, ((table.countObject id length).run _).2) = _
  rw [countObject_of_find? hfind, hrun]
  rfl

/-! ### One slot -/

/-- A packet that is executed on `slot` gets the colour that the meter there gives it, and the marked meter is
found in `slot` afterwards. -/
theorem executeFrom_of_read (h : table.read key slot = .ok record) (incoming : Color) (length : UInt32)
    (now : UInt64) :
    let marked := record.markFrom incoming (table.unit.size length) now
    ∃ next, table.executeFrom key slot incoming length now = .ok (marked.1, next) ∧
      next.read key slot = .ok marked.2 := by
  intro marked
  obtain ⟨⟨id, entry, found⟩, hmeter, hfound⟩ := bind_eq_ok_iff.mp h
  cases hfound
  obtain ⟨hfind, hslot⟩ := requireMeter_eq_ok_iff.mp hmeter
  refine ⟨(table.write key (entry.putMeter slot marked.2)).loadTally (table.tally.add marked.1), ?_, ?_⟩
  · simp only [executeFrom_eq, hmeter, ok_bind, pure_eq_ok, putObject_eq_write hfind]
    rfl
  · have hlt := (List.getElem?_eq_some_iff.mp hslot).1
    exact read_eq_ok_iff.mpr ⟨_, entryAt?_write_self (entryAt?_of_find? hfind) _, List.getElem?_set_self hlt⟩

/-- A meter that is read from `slot` stands there in the raw value of its entry. -/
theorem rawMeter_of_read (h : table.read key slot = .ok record) :
    ∃ value, table.entryValue key = .ok value ∧ Entry.rawMeter table.layout value slot = record.toBytes := by
  obtain ⟨entry, hentry, hslot⟩ := read_eq_ok_iff.mp h
  exact ⟨_, entryValue_eq_ok_iff.mpr ⟨entry, hentry, rfl⟩, Entry.rawMeter_toBytes _ hslot⟩

end Table

namespace Store

variable {store : Store} {index : UInt32} {record : Record}

/-- A packet that is executed on `index` gets the colour that the meter there gives it, and the marked meter is
found at `index` afterwards. -/
theorem executeFrom_of_read (h : store.read index = .ok record) (incoming : Color) (length : UInt32)
    (now : UInt64) :
    let marked := record.markFrom incoming (store.unit.size length) now
    ∃ next, store.executeFrom index incoming length now = .ok (marked.1, next) ∧
      next.read index = .ok marked.2 := by
  intro marked
  refine ⟨(store.put index marked.2).loadTally (store.tally.add marked.1), ?_, read_put_self h _⟩
  simp only [executeFrom_eq, h, ok_bind, pure_eq_ok]
  rfl

/-- An `index` is read back from its raw form. -/
theorem indexOfKey_keyOfIndex (index : UInt32) : indexOfKey (keyOfIndex index) = .ok index := by
  have hlength : (keyOfIndex index).length = 4 := Bytes.length_ofUInt32 index
  have hslice : (keyOfIndex index).slice 0 4 = Bytes.ofUInt32 index := List.take_of_length_le hlength.le
  rw [indexOfKey, if_pos hlength, Bytes.uint32At_of_slice hslice]

/-- A meter that is read from `index` is read under the raw form of `index`, in raw form. -/
theorem readValue_of_read (h : store.read index = .ok record) :
    store.readValue (keyOfIndex index) = .ok record.toBytes := by
  simp only [readValue, indexOfKey_keyOfIndex, h, ok_bind, pure_eq_ok]

end Store

/-- All paths of a packet to a meter agree:

- a packet that hits an entry is told the action of the entry and the colours that it gets when it is counted
  once and then executed on all slots of the entry, whatever the order, and both leave the same table, with the
  same meters, counters and tally;
- a packet that is executed on a slot of an entry or on an index of a store gets the colour that the meter found
  there gives to its size in the unit, and the meter is left as marked, also in raw form;
- without a colour it is treated as a green one. -/
theorem packet_paths_agree :
    (∀ (table : Table) (key : Bytes) (id : EntryId) (entry : Entry) (length : UInt32) (now : UInt64),
      table.find? key = some (id, entry) →
        ∃ (colors : Nat → Color) (next : Table),
          table.hit key length now =
            .ok (⟨entry.action, (List.range entry.meters.length).map colors⟩, next) ∧
          ∀ order : List Nat, order.Perm (List.range entry.meters.length) →
            table.run (.countHeld id length :: order.map fun slot => .execute key slot length now) =
              (.ok .done :: order.map fun slot => .ok (.color (colors slot)), next)) ∧
    (∀ (record : Record) (unit : MeasureUnit) (incoming : Color) (length : UInt32) (now : UInt64),
      let marked := record.markFrom incoming (unit.size length) now
      (∀ (table : Table) (key : Bytes) (slot : Nat), table.unit = unit → table.read key slot = .ok record →
        ∃ next value, table.executeFrom key slot incoming length now = .ok (marked.1, next) ∧
          next.read key slot = .ok marked.2 ∧ next.entryValue key = .ok value ∧
          Entry.rawMeter next.layout value slot = marked.2.toBytes) ∧
      (∀ (store : Store) (index : UInt32), store.unit = unit → store.read index = .ok record →
        ∃ next, store.executeFrom index incoming length now = .ok (marked.1, next) ∧
          next.read index = .ok marked.2 ∧
          next.readValue (Store.keyOfIndex index) = .ok marked.2.toBytes)) ∧
    (∀ (table : Table) (key : Bytes) (slot : Nat) (length : UInt32) (now : UInt64),
      table.execute key slot length now = table.executeFrom key slot .green length now) ∧
    (∀ (store : Store) (index length : UInt32) (now : UInt64),
      store.execute index length now = store.executeFrom index .green length now) := by
  refine ⟨?_, ?_, fun _ _ _ _ _ => rfl, fun _ _ _ _ => rfl⟩
  · intro table key id entry length now hfind
    refine ⟨fun slot => (entry.markOf (table.unit.size length) now slot).1, _, Table.hit_of_find? rfl hfind now,
      fun order horder => ?_⟩
    rw [Table.run_execute_eq_hit rfl hfind now horder, Entry.colorsAt, List.map_map]
    rfl
  · intro record unit incoming length now marked
    constructor
    · rintro table key slot rfl hread
      obtain ⟨next, hexecute, hmarked⟩ := Table.executeFrom_of_read hread incoming length now
      obtain ⟨value, hvalue, hraw⟩ := Table.rawMeter_of_read hmarked
      exact ⟨next, value, hexecute, hmarked, hvalue, hraw⟩
    · rintro store index rfl hread
      obtain ⟨next, hexecute, hmarked⟩ := Store.executeFrom_of_read hread incoming length now
      exact ⟨next, hexecute, hmarked, Store.readValue_of_read hmarked⟩

/-- A packet at an entry with a configured meter and an unconfigured one, and at a store that has the configured
meter too. -/
theorem packet_paths_agree_two_slots :
    let record : Record := ⟨⟨4000, 1, 2500, 2500, 0⟩, ⟨10000, 1, 1500, 1500, 0⟩⟩
    let start := Table.create "t" ⟨0, some .packets, 2⟩ .bytes (.ofResolution 1)
    let table := (start.run [.update [1] (Bytes.zeros 192),
      .configure [1] 0 { peak := ⟨250000, 2500⟩, committed := ⟨100000, 1500⟩ }]).2
    let store : Store := ⟨"s", .bytes, .ofResolution 1, [{}, record], {}⟩
    table.find? [1] = some (0, ⟨{}, some {}, [record, {}]⟩) ∧
      (∃ hit next, table.hit [1] 900 5 = .ok (hit, next) ∧ hit.colors = [.green, .red] ∧
        table.run [.countHeld 0 900, .execute [1] 1 900 5, .execute [1] 0 900 5] =
          ([.ok .done, .ok (.color .red), .ok (.color .green)], next)) ∧
      ∃ next next', table.executeFrom [1] 0 .yellow 900 5 = .ok (.yellow, next) ∧
        store.executeFrom 1 .yellow 900 5 = .ok (.yellow, next') ∧ next.read [1] 0 = next'.read 1 := by
  intro record start table store
  have hfind : table.find? [1] = some (0, ⟨{}, some {}, [record, {}]⟩) := by decide +kernel
  have hcolors : (table.hit [1] 900 5).map (fun result => result.1.colors) = .ok [.green, .red] := by
    decide +kernel
  have hunit : table.unit = .bytes := by decide +kernel
  have hread : table.read [1] 0 = .ok record := by decide +kernel
  have hcolor : (record.markFrom .yellow (MeasureUnit.bytes.size 900) 5).1 = .yellow := by decide +kernel
  clear_value table
  obtain ⟨hpaths, hmeters, -, -⟩ := packet_paths_agree
  refine ⟨hfind, ?_, ?_⟩
  · obtain ⟨colors, next, hhit, horders⟩ := hpaths table [1] 0 _ 900 5 hfind
    have hrun := horders [1, 0] (List.Perm.swap 0 1 [])
    rw [hhit] at hcolors
    have hslots : [colors 0, colors 1] = [.green, .red] := Except.ok.inj hcolors
    refine ⟨_, next, hhit, hslots, ?_⟩
    obtain ⟨hfirst, hsecond⟩ : colors 0 = .green ∧ colors 1 = .red := by simpa using hslots
    rwa [List.map_cons, List.map_cons, List.map_nil, List.map_cons, List.map_cons, List.map_nil, hfirst,
      hsecond] at hrun
  · obtain ⟨htables, hstores⟩ := hmeters record .bytes .yellow 900 5
    obtain ⟨next, -, hexecute, hmarked, -⟩ := htables table [1] 0 hunit hread
    obtain ⟨next', hexecute', hmarked', -⟩ := hstores store 1 rfl rfl
    rw [hcolor] at hexecute hexecute'
    exact ⟨next, next', hexecute, hexecute', hmarked.trans hmarked'.symm⟩

end TrafficMeter
