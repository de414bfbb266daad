import TrafficMeter.Proofs.Canonical
import TrafficMeter.Proofs.Restore

/-!
# How far a snapshot is put back

A snapshot that does not match a pipeline is put back up to its first item that does not match. What is
reached is described by `Pipeline.replay`, which says for each store and table what some items make of it: the
last records, the last tally, and the entries, one written after the other. Which items match
(`Pipeline.Admits`) depends on what never changes in a pipeline only, so it can be said of the pipeline at the
start.

- `Pipeline.Intact.applyItem_eq_ok_iff`: an item is applied exactly if it matches, and as a whole;
- `Pipeline.Intact.exists_applyItems`: the items before the first that does not match are applied;
- `Table.Intact.writeAll_writeAll`, `Pipeline.Intact.replay_replay`: applying them again changes nothing.
-/

namespace TrafficMeter

/-! ## What items give -/

/-- The key and the entry of `saved`, if both can be read. -/
def SavedEntry.decode? (layout : Layout) (saved : SavedEntry) : Option (Bytes × Entry) := do
  let key ← (Hex.parse saved.key).toOption
  let value ← (Hex.parse saved.value).toOption
  let entry ← (Entry.ofBytes layout value).toOption
  return (key, entry)

namespace SnapshotItem

/-- The records that an item gives to the store with this `name`. -/
def records? (name : String) : SnapshotItem → Option (List Record)
  | .records other given => if other = name then some given else none
  | _ => none

/-- The tally that an item gives to the store or table with this `name`. -/
def tally? (name : String) : SnapshotItem → Option Tally
  | .tally other given => if other = name then some given else none
  | _ => none

/-- The key and the entry that an item writes into the table with this `name` and `layout`. -/
def write? (name : String) (layout : Layout) : SnapshotItem → Option (Bytes × Entry)
  | .entry other saved => if other = name then saved.decode? layout else none
  | _ => none

/-- What the last of `items` that gives anything gives, by `given`. -/
def latest? {α : Type} (given : SnapshotItem → Option α) (items : List SnapshotItem) : Option α :=
  items.reverse.findSome? given

variable {α : Type} (given : SnapshotItem → Option α)

@[simp]
theorem latest?_nil : latest? given [] = none := rfl

@[simp]
theorem latest?_singleton (item : SnapshotItem) : latest? given [item] = given item := by
  simp [latest?]

theorem latest?_append (first second : List SnapshotItem) :
    latest? given (first ++ second) = (latest? given second).or (latest? given first) := by
  rw [latest?, List.reverse_append, List.findSome?_append]
  rfl

end SnapshotItem

open SnapshotItem

/-! ## Several entries written into a table -/

namespace Table

variable {timer : Timer} {description : TableDescription} {table other next : Table} {key : Bytes}
  {entry : Entry} {writes : List (Bytes × Entry)}

/-- `table` after each of `writes`, an entry under its key. -/
def writeAll (table : Table) (writes : List (Bytes × Entry)) : Table :=
  writes.foldl (fun table written => table.write written.1 written.2) table

@[simp]
theorem writeAll_nil : table.writeAll [] = table := rfl

theorem writeAll_cons (written : Bytes × Entry) :
    table.writeAll (written :: writes) = (table.write written.1 written.2).writeAll writes := rfl

theorem writeAll_append (first second : List (Bytes × Entry)) :
    table.writeAll (first ++ second) = (table.writeAll first).writeAll second :=
  List.foldl_append

@[simp]
theorem frame_writeAll : (table.writeAll writes).frame = table.frame := by
  induction writes generalizing table with
  | nil => rfl
  | cons written rest ih => rw [writeAll_cons, ih, frame_write]

@[simp]
theorem layout_writeAll : (table.writeAll writes).layout = table.layout :=
  (congrArg Table.layout frame_writeAll :)

/-- Writing an `entry` and setting the `tally` do not get in each other's way. -/
theorem write_loadTally (tally : Tally) :
    (table.loadTally tally).write key entry = (table.write key entry).loadTally tally := by
  simp only [write, loadTally, lookup?]
  split <;> rfl

theorem writeAll_loadTally (tally : Tally) :
    (table.loadTally tally).writeAll writes = (table.writeAll writes).loadTally tally := by
  induction writes generalizing table with
  | nil => rfl
  | cons written rest ih => rw [writeAll_cons, write_loadTally, ih, writeAll_cons]

theorem Intact.writeAll (h : table.Intact timer description)
    (hwrites : ∀ written ∈ writes, written.2.Fits description.layout) :
    (table.writeAll writes).Intact timer description := by
  induction writes generalizing table with
  | nil => exact h
  | cons written rest ih =>
    rw [List.forall_mem_cons] at hwrites
    exact ih (h.write _ hwrites.1) hwrites.2

/-- After all `writes`, the entry under `key` is the one that was written last, or the old one if none was
written. -/
theorem Intact.entryAt?_writeAll (h : table.Intact timer description)
    (hwrites : ∀ written ∈ writes, written.2.Fits description.layout) (key : Bytes) :
    (table.writeAll writes).entryAt? key = (writes.reverse.lookup key).or (table.entryAt? key) := by
  induction writes generalizing table with
  | nil => rfl
  | cons written rest ih =>
    rw [List.forall_mem_cons] at hwrites
    rw [writeAll_cons, ih (h.write _ hwrites.1) hwrites.2, h.entryAt?_write, List.reverse_cons,
      List.lookup_append, Option.or_assoc]
    congr 1
    obtain ⟨first, entry⟩ := written
    by_cases hkey : key = first
    · simp [hkey]
    · simp [hkey, List.lookup_cons, beq_eq_false_iff_ne.mpr hkey]

/-- `next` comes from `table` by rewriting objects that are under keys. -/
structure Rewrites (table next : Table) : Prop where
  /-- All but the entries is the same. -/
  frame_eq : next.frame = table.frame
  /-- The keys have the objects that they had. -/
  index_eq : next.index = table.index
  /-- Objects without keys are the same. -/
  object?_eq : ∀ id, (∀ key, table.lookup? key ≠ some id) → next.object? id = table.object? id

theorem Rewrites.trans (h : table.Rewrites other) (hnext : other.Rewrites next) : table.Rewrites next := by
  refine ⟨hnext.frame_eq.trans h.frame_eq, hnext.index_eq.trans h.index_eq, fun id hid => ?_⟩
  rw [hnext.object?_eq id fun key => ?_, h.object?_eq id hid]
  rw [lookup?, h.index_eq]
  exact hid key

theorem rewrites_write {id : EntryId} (h : table.lookup? key = some id) (entry : Entry) :
    table.Rewrites (table.write key entry) := by
  refine ⟨frame_write key entry, by simp [write, h, putObject], fun other hother => ?_⟩
  have hne : id ≠ other := fun heq => hother key (heq ▸ h)
  simp [write, h, putObject, object?, List.getElem?_set_ne hne]

theorem rewrites_writeAll (h : ∀ written ∈ writes, ∃ id, table.lookup? written.1 = some id) :
    table.Rewrites (table.writeAll writes) := by
  induction writes generalizing table with
  | nil => exact ⟨rfl, rfl, fun _ _ => rfl⟩
  | cons written rest ih =>
    rw [List.forall_mem_cons] at h
    obtain ⟨id, hid⟩ := h.1
    have hwrite := rewrites_write hid written.2
    refine hwrite.trans (ih fun other hother => ?_)
    rw [lookup?, hwrite.index_eq]
    exact h.2 other hother

/-- If only objects under keys were rewritten, then a table with the same entries is the same table. -/
theorem Rewrites.eq_of_entryAt? (h : table.Rewrites next)
    (hentries : ∀ key, next.entryAt? key = table.entryAt? key) : next = table := by
  have hobjects : next.objects = table.objects := by
    apply List.ext_getElem?
    intro id
    -- An object under a key is the entry of this key, and one without a key was not rewritten.
    by_cases hkey : ∃ key, table.lookup? key = some id
    · obtain ⟨key, hkey⟩ := hkey
      have hlookup : next.lookup? key = some id := by rw [lookup?, h.index_eq]; exact hkey
      have hentry := hentries key
      rwa [entryAt?, entryAt?, hkey, hlookup] at hentry
    · exact h.object?_eq id fun key heq => hkey ⟨key, heq⟩
  have hrest (table : Table) :
      table = { table.frame with objects := table.objects, index := table.index } := rfl
  rw [hrest next, h.frame_eq, hobjects, h.index_eq]
  rfl

/-- Making the same `writes` a second time changes nothing. -/
theorem Intact.writeAll_writeAll (h : table.Intact timer description)
    (hwrites : ∀ written ∈ writes, written.2.Fits description.layout) :
    (table.writeAll writes).writeAll writes = table.writeAll writes := by
  have hnext := h.writeAll hwrites
  have hentries := h.entryAt?_writeAll hwrites
  refine Rewrites.eq_of_entryAt? (rewrites_writeAll fun written hwritten => ?_) fun key => ?_
  · -- Every key that is written has an entry after the first time.
    have hsome : (writes.reverse.lookup written.1).isSome := by
      rw [List.lookup_isSome_iff]
      exact ⟨written, List.mem_reverse.mpr hwritten, beq_self_eq_true _⟩
    have hfound := hentries written.1
    obtain ⟨last, hlast⟩ := Option.isSome_iff_exists.mp hsome
    rw [hlast, Option.some_or, entryAt?, Option.bind_eq_some_iff] at hfound
    obtain ⟨id, hid, -⟩ := hfound
    exact ⟨id, hid⟩
  · rw [hnext.entryAt?_writeAll hwrites, hentries, ← Option.or_assoc, Option.or_self]

end Table

/-! ## What items make of a pipeline -/

/-- What `items` make of `store` under its `name`: it gets the last records and the last tally that they give it.
-/
def Store.replay (store : Store) (name : String) (items : List SnapshotItem) : Store :=
  { store with
    records := (latest? (records? name) items).getD store.records
    tally := (latest? (tally? name) items).getD store.tally }

/-- What `items` make of `table` under its `name`: it gets all entries that they write into it, in their order,
and the last tally that they give it. -/
def Table.replay (table : Table) (name : String) (items : List SnapshotItem) : Table :=
  (table.writeAll (items.filterMap (write? name table.layout))).loadTally
    ((latest? (tally? name) items).getD table.tally)

theorem Store.replay_append (store : Store) (name : String) (first second : List SnapshotItem) :
    store.replay name (first ++ second) = (store.replay name first).replay name second := by
  simp [replay, latest?_append]

/-- Replaying `first` and then `second` writes all entries of both, and the last tally counts. -/
theorem Table.replay_replay_eq (table : Table) (name : String) (first second : List SnapshotItem) :
    (table.replay name first).replay name second =
      ((table.writeAll (first.filterMap (write? name table.layout))).writeAll
        (second.filterMap (write? name table.layout))).loadTally
          ((latest? (tally? name) second).getD ((latest? (tally? name) first).getD table.tally)) := by
  have hlayout (table : Table) (tally : Tally) : (table.loadTally tally).layout = table.layout := rfl
  have htally (table : Table) (tally : Tally) : (table.loadTally tally).tally = tally := rfl
  rw [replay, replay, hlayout, htally, writeAll_loadTally, layout_writeAll]
  rfl

theorem Table.replay_append (table : Table) (name : String) (first second : List SnapshotItem) :
    table.replay name (first ++ second) = (table.replay name first).replay name second := by
  rw [replay_replay_eq, replay, List.filterMap_append, writeAll_append, latest?_append, Option.getD_or]

/-- An `item` that gives neither records nor a tally to a store leaves it as it was. -/
theorem Store.replay_singleton_eq_self (store : Store) {name : String} {item : SnapshotItem}
    (hrecords : records? name item = none) (htally : tally? name item = none) :
    store.replay name [item] = store := by
  rw [replay, latest?_singleton, latest?_singleton, hrecords, htally]
  rfl

/-- An `item` that neither writes into a table nor gives it a tally leaves it as it was. -/
theorem Table.replay_singleton_eq_self (table : Table) {name : String} {item : SnapshotItem}
    (hwrite : write? name table.layout item = none) (htally : tally? name item = none) :
    table.replay name [item] = table := by
  rw [replay, latest?_singleton, htally, List.filterMap_cons_none hwrite]
  rfl

namespace SavedEntry

variable {layout : Layout} {saved : SavedEntry}

/-- The texts of `saved` stand for a key and for a value of this `layout` with no overfull meter. -/
def IsValid (layout : Layout) (saved : SavedEntry) : Prop :=
  ∃ key value, Hex.parse saved.key = .ok key ∧ Hex.parse saved.value = .ok value ∧
    value.length = layout.valueLength ∧
      ∀ slot < layout.meters.toNat, (Record.decode (Entry.rawMeter layout value slot)).withinCapacity

theorem decode?_eq_some_iff {key : Bytes} {entry : Entry} :
    saved.decode? layout = some (key, entry) ↔
      ∃ value, Hex.parse saved.key = .ok key ∧ Hex.parse saved.value = .ok value ∧
        Entry.ofBytes layout value = .ok entry := by
  have htoOption {ε α : Type} {outcome : Except ε α} {a : α} :
      outcome.toOption = some a ↔ outcome = .ok a := by
    cases outcome <;> simp [Except.toOption]
  simp only [decode?, Option.bind_eq_bind, Option.bind_eq_some_iff, htoOption, Option.pure_def,
    Option.some_inj, Prod.mk.injEq]
  constructor
  · rintro ⟨_, hkey, value, hvalue, _, hentry, rfl, rfl⟩
    exact ⟨value, hkey, hvalue, hentry⟩
  · rintro ⟨value, hkey, hvalue, hentry⟩
    exact ⟨key, hkey, value, hvalue, entry, hentry, rfl, rfl⟩

theorem isValid_iff :
    saved.IsValid layout ↔ ∃ key value entry, Hex.parse saved.key = .ok key ∧
      Hex.parse saved.value = .ok value ∧ Entry.ofBytes layout value = .ok entry := by
  simp only [IsValid, ← Entry.exists_ofBytes_iff, exists_and_left]

end SavedEntry

/-- Every entry that `items` write fits the `layout`. -/
theorem fits_of_mem_writes {name : String} {layout : Layout} {items : List SnapshotItem}
    {written : Bytes × Entry} (h : written ∈ items.filterMap (write? name layout)) :
    written.2.Fits layout := by
  obtain ⟨item, -, hwrite⟩ := List.mem_filterMap.mp h
  cases item with
  | entry other saved =>
    rw [write?, Option.ite_none_right_eq_some] at hwrite
    obtain ⟨value, -, -, hentry⟩ := SavedEntry.decode?_eq_some_iff.mp hwrite.2
    exact Entry.fits_of_ofBytes hentry
  | _ => cases hwrite

/-- Replaying the same `items` on an intact table a second time changes nothing. -/
theorem Table.Intact.replay_replay {table : Table} {timer : Timer} {description : TableDescription}
    (h : table.Intact timer description) (name : String) (items : List SnapshotItem) :
    (table.replay name items).replay name items = table.replay name items := by
  have hwrites : ∀ written ∈ items.filterMap (write? name table.layout),
      written.2.Fits description.layout := by
    intro written hwritten
    exact h.layout_eq ▸ fits_of_mem_writes hwritten
  rw [replay_replay_eq, h.writeAll_writeAll hwrites, replay]
  congr 1
  cases latest? (tally? name) items <;> rfl

namespace Pipeline

/-- What `items` make of `pipeline`: each store and table is replayed under its own name. -/
def replay (pipeline : Pipeline) (items : List SnapshotItem) : Pipeline :=
  { stores := pipeline.stores.mapValues fun name store => store.replay name items
    tables := pipeline.tables.mapValues fun name table => table.replay name items }

/-- `pipeline` has the store or table that an item is for, and the item matches it: there are as many records as
meters and none is overfull, or the entry is valid for the layout of the table. -/
def Admits (pipeline : Pipeline) : SnapshotItem → Prop
  | .records name given =>
    ∃ store, pipeline.stores.find? name = some store ∧ given.length = store.capacity ∧
      ∀ record ∈ given, record.withinCapacity
  | .table name => ∃ table, pipeline.tables.find? name = some table
  | .entry name saved => ∃ table, pipeline.tables.find? name = some table ∧ saved.IsValid table.layout
  | .tally name _ =>
    (∃ store, pipeline.stores.find? name = some store) ∨ ∃ table, pipeline.tables.find? name = some table

variable {description : Description} {pipeline other : Pipeline}

/-- Pipelines with the same stores and tables are equal. -/
theorem ext_find? (hstores : ∀ name, pipeline.stores.find? name = other.stores.find? name)
    (htables : ∀ name, pipeline.tables.find? name = other.tables.find? name) : pipeline = other := by
  cases pipeline
  cases other
  exact congrArg₂ mk (OrderedMap.ext_find? hstores) (OrderedMap.ext_find? htables)

theorem find?_stores_replay (items : List SnapshotItem) (name : String) :
    (pipeline.replay items).stores.find? name =
      (pipeline.stores.find? name).map fun store => store.replay name items :=
  OrderedMap.find?_mapValues ..

theorem find?_tables_replay (items : List SnapshotItem) (name : String) :
    (pipeline.replay items).tables.find? name =
      (pipeline.tables.find? name).map fun table => table.replay name items :=
  OrderedMap.find?_mapValues ..

theorem replay_append (first second : List SnapshotItem) :
    pipeline.replay (first ++ second) = (pipeline.replay first).replay second := by
  apply ext_find?
  · intro name
    simp only [find?_stores_replay, Option.map_map, Function.comp_def, Store.replay_append]
  · intro name
    simp only [find?_tables_replay, Option.map_map, Function.comp_def, Table.replay_append]

@[simp]
theorem replay_nil : pipeline.replay [] = pipeline := by
  apply ext_find?
  · intro name
    exact (find?_stores_replay [] name).trans Option.map_id'
  · intro name
    exact (find?_tables_replay [] name).trans Option.map_id'

/-- An `item` for the store with this `name` changes nothing else. -/
theorem putStore_eq_replay {name : String} {store : Store} {item : SnapshotItem}
    (hstore : pipeline.stores.find? name = some store)
    (hstores : ∀ found other, other ≠ name → Store.replay found other [item] = found)
    (htables : ∀ table other, pipeline.tables.find? other = some table → table.replay other [item] = table) :
    pipeline.putStore name (store.replay name [item]) = pipeline.replay [item] := by
  apply ext_find?
  · intro other
    rw [find?_stores_replay, putStore, OrderedMap.find?_modify]
    split
    next heq => rw [heq, hstore]; rfl
    next hne => exact ((Option.map_congr fun found _ => hstores found other hne).trans Option.map_id').symm
  · intro other
    rw [find?_tables_replay]
    exact ((Option.map_congr fun table htable => htables table other htable).trans Option.map_id').symm

/-- An `item` for the table with this `name` changes nothing else. -/
theorem putTable_eq_replay {name : String} {table : Table} {item : SnapshotItem}
    (htable : pipeline.tables.find? name = some table)
    (hstores : ∀ store other, pipeline.stores.find? other = some store → store.replay other [item] = store)
    (htables : ∀ found other, other ≠ name → Table.replay found other [item] = found) :
    pipeline.putTable name (table.replay name [item]) = pipeline.replay [item] := by
  apply ext_find?
  · intro other
    rw [find?_stores_replay]
    exact ((Option.map_congr fun store hstore => hstores store other hstore).trans Option.map_id').symm
  · intro other
    rw [find?_tables_replay, putTable, OrderedMap.find?_modify]
    split
    next heq => rw [heq, htable]; rfl
    next hne => exact ((Option.map_congr fun found _ => htables found other hne).trans Option.map_id').symm

section Items

variable {name : String} {next : Pipeline}

theorem applyItem_records_eq_ok_iff {given : List Record} :
    pipeline.applyItem (.records name given) = .ok next ↔
      pipeline.Admits (.records name given) ∧ next = pipeline.replay [.records name given] := by
  have hput {store : Store} (hstore : pipeline.stores.find? name = some store) :
      pipeline.putStore name { store with records := given } = pipeline.replay [.records name given] := by
    rw [← putStore_eq_replay hstore]
    · simp [Store.replay, records?, tally?]
    · intro found other hne
      exact found.replay_singleton_eq_self (if_neg hne.symm) rfl
    · intro table other _
      exact table.replay_singleton_eq_self rfl rfl
  simp only [applyItem, bind_eq_ok_iff, store_eq_ok_iff, Store.restore_eq_ok_iff, pure_eq_ok, Except.ok.injEq]
  constructor
  · rintro ⟨store, hstore, _, ⟨hlength, hlevels, rfl⟩, rfl⟩
    exact ⟨⟨store, hstore, hlength, hlevels⟩, hput hstore⟩
  · rintro ⟨⟨store, hstore, hlength, hlevels⟩, rfl⟩
    exact ⟨store, hstore, _, ⟨hlength, hlevels, rfl⟩, hput hstore⟩

theorem applyItem_table_eq_ok_iff :
    pipeline.applyItem (.table name) = .ok next ↔
      pipeline.Admits (.table name) ∧ next = pipeline.replay [.table name] := by
  have hself : pipeline.replay [.table name] = pipeline := by
    apply ext_find?
    · intro other
      exact (find?_stores_replay _ other).trans Option.map_id'
    · intro other
      exact (find?_tables_replay _ other).trans Option.map_id'
  simp only [applyItem, bind_eq_ok_iff, table_eq_ok_iff, pure_eq_ok, Except.ok.injEq, hself]
  constructor
  · rintro ⟨table, htable, rfl⟩
    exact ⟨⟨table, htable⟩, rfl⟩
  · rintro ⟨⟨table, htable⟩, rfl⟩
    exact ⟨table, htable, rfl⟩

theorem Intact.applyItem_entry_eq_ok_iff (h : pipeline.Intact description) {saved : SavedEntry} :
    pipeline.applyItem (.entry name saved) = .ok next ↔
      pipeline.Admits (.entry name saved) ∧ next = pipeline.replay [.entry name saved] := by
  -- All that replaying the item does is to write its entry into its table.
  have hput {table : Table} {key : Bytes} {value : Bytes} {entry : Entry}
      (htable : pipeline.tables.find? name = some table) (hkey : Hex.parse saved.key = .ok key)
      (hvalue : Hex.parse saved.value = .ok value) (hentry : Entry.ofBytes table.layout value = .ok entry) :
      pipeline.putTable name (table.write key entry) = pipeline.replay [.entry name saved] := by
    have hdecode : saved.decode? table.layout = some (key, entry) :=
      SavedEntry.decode?_eq_some_iff.mpr ⟨value, hkey, hvalue, hentry⟩
    have htally : (table.write key entry).tally = table.tally :=
      (congrArg Table.tally (Table.frame_write key entry) :)
    rw [← putTable_eq_replay htable]
    · simp [Table.replay, write?, tally?, hdecode, Table.writeAll_cons, Table.loadTally, ← htally]
    · intro store other _
      exact store.replay_singleton_eq_self rfl rfl
    · intro found other hne
      exact found.replay_singleton_eq_self (if_neg hne.symm) rfl
  have hmapError {ε ε' α : Type} {outcome : Except ε α} {f : ε → ε'} {a : α} :
      outcome.mapError f = .ok a ↔ outcome = .ok a := by
    cases outcome <;> simp [Except.mapError]
  simp only [Pipeline.applyItem, bind_eq_ok_iff, table_eq_ok_iff, hmapError, pure_eq_ok, Except.ok.injEq, Admits,
    SavedEntry.isValid_iff]
  constructor
  · rintro ⟨table, htable, key, hkey, value, hvalue, updated, hupdate, rfl⟩
    obtain ⟨_, -, hintact⟩ := h.exists_table htable
    obtain ⟨entry, hentry, rfl⟩ := hintact.update_eq_ok_iff.mp hupdate
    exact ⟨⟨table, htable, key, value, entry, hkey, hvalue, hentry⟩, hput htable hkey hvalue hentry⟩
  · rintro ⟨⟨table, htable, key, value, entry, hkey, hvalue, hentry⟩, rfl⟩
    obtain ⟨_, -, hintact⟩ := h.exists_table htable
    exact ⟨table, htable, key, hkey, value, hvalue, _, hintact.update_eq_ok_iff.mpr ⟨entry, hentry, rfl⟩,
      hput htable hkey hvalue hentry⟩

theorem Intact.applyItem_tally_eq_ok_iff (h : pipeline.Intact description)
    (hnames : description.names.Nodup) {given : Tally} :
    pipeline.applyItem (.tally name given) = .ok next ↔
      pipeline.Admits (.tally name given) ∧ next = pipeline.replay [.tally name given] := by
  rw [Pipeline.applyItem]
  split
  next store hstore =>
    -- There is no table of this name as well.
    have hput : pipeline.putStore name (store.loadTally given) = pipeline.replay [.tally name given] := by
      rw [← putStore_eq_replay hstore]
      · simp [Store.replay, records?, tally?, Store.loadTally]
      · intro found other hne
        exact found.replay_singleton_eq_self rfl (if_neg hne.symm)
      · intro table other htable
        exact table.replay_singleton_eq_self rfl (if_neg (h.ne_of_find? hnames hstore htable))
    rw [Except.ok.injEq, hput, eq_comm, iff_and_self]
    exact fun _ => .inl ⟨store, hstore⟩
  next table hnone htable =>
    have hput : pipeline.putTable name (table.loadTally given) = pipeline.replay [.tally name given] := by
      rw [← putTable_eq_replay htable]
      · rw [Table.replay, latest?_singleton, List.filterMap_cons_none rfl, tally?, if_pos rfl]
        rfl
      · intro store other hstore
        exact store.replay_singleton_eq_self rfl (if_neg (h.ne_of_find? hnames hstore htable).symm)
      · intro found other hne
        exact found.replay_singleton_eq_self rfl (if_neg hne.symm)
    rw [Except.ok.injEq, hput, eq_comm, iff_and_self]
    exact fun _ => .inr ⟨table, htable⟩
  next hstore htable =>
    refine iff_of_false (by simp) fun hadmits => ?_
    simp [Admits, hstore, htable] at hadmits

end Items

/-- An `item` is applied exactly if it matches the pipeline, and then as a whole. -/
theorem Intact.applyItem_eq_ok_iff (h : pipeline.Intact description) (hnames : description.names.Nodup)
    {item : SnapshotItem} {next : Pipeline} :
    pipeline.applyItem item = .ok next ↔ pipeline.Admits item ∧ next = pipeline.replay [item] := by
  cases item with
  | records name given => exact applyItem_records_eq_ok_iff
  | table name => exact applyItem_table_eq_ok_iff
  | entry name saved => exact h.applyItem_entry_eq_ok_iff
  | tally name given => exact h.applyItem_tally_eq_ok_iff hnames

/-! ## The items that are applied -/

/-- An `item` that matches one intact pipeline matches every `other` of the same description. -/
theorem Intact.admits_of_admits (h : pipeline.Intact description) (hother : other.Intact description)
    {item : SnapshotItem} (hadmits : pipeline.Admits item) : other.Admits item := by
  -- Items are checked against capacities and layouts, and these are given by the description.
  have hstores {name : String} {store : Store} (hstore : pipeline.stores.find? name = some store) :
      ∃ found, other.stores.find? name = some found ∧ found.capacity = store.capacity := by
    obtain ⟨described, hdescribed, hintact⟩ := h.exists_store hstore
    obtain ⟨found, hfound, hintact'⟩ := rel_some_left_iff.mp (hdescribed ▸ hother.stores name)
    exact ⟨found, hfound, hintact'.capacity_eq.trans hintact.capacity_eq.symm⟩
  have htables {name : String} {table : Table} (htable : pipeline.tables.find? name = some table) :
      ∃ found, other.tables.find? name = some found ∧ found.layout = table.layout := by
    obtain ⟨described, hdescribed, hintact⟩ := h.exists_table htable
    obtain ⟨found, hfound, hintact'⟩ := rel_some_left_iff.mp (hdescribed ▸ hother.tables name)
    exact ⟨found, hfound, hintact'.layout_eq.trans hintact.layout_eq.symm⟩
  cases item with
  | records name given =>
    obtain ⟨store, hstore, hlength, hlevels⟩ := hadmits
    obtain ⟨found, hfound, hcapacity⟩ := hstores hstore
    exact ⟨found, hfound, hlength.trans hcapacity.symm, hlevels⟩
  | table name =>
    obtain ⟨table, htable⟩ := hadmits
    obtain ⟨found, hfound, -⟩ := htables htable
    exact ⟨found, hfound⟩
  | entry name saved =>
    obtain ⟨table, htable, hvalid⟩ := hadmits
    obtain ⟨found, hfound, hlayout⟩ := htables htable
    exact ⟨found, hfound, hlayout ▸ hvalid⟩
  | tally name given =>
    rcases hadmits with ⟨store, hstore⟩ | ⟨table, htable⟩
    · obtain ⟨found, hfound, -⟩ := hstores hstore
      exact .inl ⟨found, hfound⟩
    · obtain ⟨found, hfound, -⟩ := htables htable
      exact .inr ⟨found, hfound⟩

/-- Those of `items` before the first one that does not match are `done`, and that one is refused. -/
theorem Intact.exists_applyItems (h : pipeline.Intact description) (hnames : description.names.Nodup)
    (items : List SnapshotItem) :
    ∃ done rest, items = done ++ rest ∧ (∀ item ∈ done, pipeline.Admits item) ∧
      (pipeline.applyItems items).1 = pipeline.replay done ∧
      ((rest = [] ∧ (pipeline.applyItems items).2 = .ok ()) ∨
        ∃ item later error, rest = item :: later ∧ ¬ pipeline.Admits item ∧
          (pipeline.replay done).applyItem item = .error error ∧
          (pipeline.applyItems items).2 = .error error) := by
  -- By induction on the items, from any pipeline, since each item that is applied leaves another one.
  induction items generalizing pipeline with
  | nil => exact ⟨[], [], rfl, by simp, replay_nil.symm, .inl ⟨rfl, rfl⟩⟩
  | cons item items ih =>
    rw [Pipeline.applyItems]
    cases hitem : pipeline.applyItem item with
    | error error =>
      have hrefused : ¬ pipeline.Admits item := by
        intro hadmits
        have happlied := (h.applyItem_eq_ok_iff hnames).mpr ⟨hadmits, rfl⟩
        cases hitem.symm.trans happlied
      exact ⟨[], item :: items, rfl, by simp, replay_nil.symm,
        .inr ⟨item, items, error, rfl, hrefused, by rw [replay_nil, hitem], rfl⟩⟩
    | ok applied =>
      have hnext := h.applyItem hitem
      obtain ⟨hadmits, rfl⟩ := (h.applyItem_eq_ok_iff hnames).mp hitem
      obtain ⟨done, rest, rfl, hdone, hreached, hend⟩ := ih hnext
      have happend : (pipeline.replay [item]).replay done = pipeline.replay (item :: done) :=
        (replay_append [item] done).symm
      rw [happend] at hreached hend
      refine ⟨item :: done, rest, rfl, ?_, hreached, hend.imp_right ?_⟩
      · -- Whether an item matches is the same before and after the first one.
        rw [List.forall_mem_cons]
        exact ⟨hadmits, fun other hother => hnext.admits_of_admits h (hdone other hother)⟩
      · rintro ⟨refused, later, error, hrest, hnot, herror, hresult⟩
        exact ⟨refused, later, error, hrest, fun hrefused => hnot (h.admits_of_admits hnext hrefused), herror,
          hresult⟩

/-- All `items` are applied if all of them match. -/
theorem Intact.applyItems_eq (h : pipeline.Intact description) (hnames : description.names.Nodup)
    {items : List SnapshotItem} (hall : ∀ item ∈ items, pipeline.Admits item) :
    pipeline.applyItems items = (pipeline.replay items, .ok ()) := by
  obtain ⟨done, rest, rfl, -, hreached, hend⟩ := h.exists_applyItems hnames items
  rcases hend with ⟨rfl, hok⟩ | ⟨item, later, error, rfl, hnot, -, -⟩
  · rw [List.append_nil] at hreached hok ⊢
    exact Prod.ext hreached hok
  · exact absurd (hall item (List.mem_append_right _ List.mem_cons_self)) hnot

/-- All `items` are applied only if all of them match. -/
theorem Intact.admits_of_applyItems (h : pipeline.Intact description) (hnames : description.names.Nodup)
    {items : List SnapshotItem} (hok : (pipeline.applyItems items).2 = .ok ()) :
    ∀ item ∈ items, pipeline.Admits item := by
  obtain ⟨done, rest, rfl, hdone, -, hend⟩ := h.exists_applyItems hnames items
  rcases hend with ⟨rfl, -⟩ | ⟨item, later, error, -, -, -, herror⟩
  · rwa [List.append_nil]
  · cases hok.symm.trans herror

/-- Replaying the same `items` on an intact pipeline a second time changes nothing. -/
theorem Intact.replay_replay (h : pipeline.Intact description) (items : List SnapshotItem) :
    (pipeline.replay items).replay items = pipeline.replay items := by
  apply ext_find?
  · intro name
    rw [find?_stores_replay, find?_stores_replay, Option.map_map]
    refine Option.map_congr fun store _ => ?_
    cases hrecords : latest? (records? name) items <;> cases htally : latest? (tally? name) items <;>
      simp [Store.replay, hrecords, htally]
  · intro name
    rw [find?_tables_replay, find?_tables_replay, Option.map_map]
    refine Option.map_congr fun table htable => ?_
    obtain ⟨described, -, hintact⟩ := h.exists_table htable
    exact hintact.replay_replay name items

/-- All that `snapshot` names is in `pipeline`, and all that it holds matches. -/
structure Matches (pipeline : Pipeline) (snapshot : Snapshot) : Prop where
  /-- Every store is there, with as many meters as there are records, and no record is overfull. -/
  stores : ∀ name records, snapshot.stores.find? name = some records →
    ∃ store, pipeline.stores.find? name = some store ∧ records.length = store.capacity ∧
      ∀ record ∈ records, record.withinCapacity
  /-- Every table is there, and its entries are valid. -/
  tables : ∀ name entries, snapshot.tables.find? name = some entries →
    ∃ table, pipeline.tables.find? name = some table ∧ ∀ saved ∈ entries, saved.IsValid table.layout
  /-- Every tally belongs to a store or a table. -/
  tallies : ∀ name tally, snapshot.tallies.find? name = some tally →
    (∃ store, pipeline.stores.find? name = some store) ∨ ∃ table, pipeline.tables.find? name = some table

/-- A `snapshot` matches exactly if all of its items do. -/
theorem matches_iff {snapshot : Snapshot} :
    pipeline.Matches snapshot ↔ ∀ item ∈ snapshot.items, pipeline.Admits item := by
  constructor
  · -- Each item comes from one binding of the snapshot.
    intro h item hitem
    cases item with
    | records name given => exact h.stores name given (Snapshot.records_mem_items_iff.mp hitem)
    | table name =>
      obtain ⟨entries, hentries⟩ := Snapshot.table_mem_items_iff.mp hitem
      obtain ⟨table, htable, -⟩ := h.tables name entries hentries
      exact ⟨table, htable⟩
    | entry name saved =>
      obtain ⟨entries, hentries, hsaved⟩ := Snapshot.entry_mem_items_iff.mp hitem
      obtain ⟨table, htable, hvalid⟩ := h.tables name entries hentries
      exact ⟨table, htable, hvalid saved hsaved⟩
    | tally name given => exact h.tallies name given (Snapshot.tally_mem_items_iff.mp hitem)
  · intro h
    refine ⟨fun name records hrecords => ?_, fun name entries hentries => ?_, fun name tally htally => ?_⟩
    · exact h _ (Snapshot.records_mem_items_iff.mpr hrecords)
    · obtain ⟨table, htable⟩ := h _ (Snapshot.table_mem_items_iff.mpr ⟨entries, hentries⟩)
      refine ⟨table, htable, fun saved hsaved => ?_⟩
      obtain ⟨found, hfound, hvalid⟩ := h _ (Snapshot.entry_mem_items_iff.mpr ⟨entries, hentries, hsaved⟩)
      cases htable.symm.trans hfound
      exact hvalid
    · exact h _ (Snapshot.tally_mem_items_iff.mpr htally)

/-- After `items`, the entry under `key` is the last one that they wrote there, or the old one if they wrote
none. -/
theorem Intact.exists_table_replay (h : pipeline.Intact description) (items : List SnapshotItem)
    {name : String} {table : Table} (htable : pipeline.tables.find? name = some table) (key : Bytes) :
    ∃ next, (pipeline.replay items).tables.find? name = some next ∧
      next.entryAt? key =
        ((items.filterMap (write? name table.layout)).reverse.lookup key).or (table.entryAt? key) := by
  obtain ⟨described, -, hintact⟩ := h.exists_table htable
  refine ⟨table.replay name items, by rw [find?_tables_replay, htable]; rfl, ?_⟩
  apply hintact.entryAt?_writeAll
  intro written hwritten
  exact hintact.layout_eq ▸ fits_of_mem_writes hwritten

/-- `snapshot` is put back item by item: its stores by name, then its tables by name, each with its entries in the
order of their list, and then its tallies by name. This goes up to the first item that does not match the pipeline.
What is reached is the pipeline with the items before that one applied, each as a whole, and nothing else changed.
An entry is the last one that was written under its key, or the old one if none was.

It is put back to the end exactly if all stores and tables that it names are there, and its records and
entries match them. To put it back once more changes nothing then. -/
theorem restore_applies_until_mismatch (description : Description) (start : Pipeline)
    (hstart : ofDescription description = .ok start) (history : List Operation) (snapshot : Snapshot) :
    let pipeline := (start.run history).2
    let result := pipeline.restore snapshot
    let items : List SnapshotItem :=
      (snapshot.stores.toList.map fun stored => .records stored.1 stored.2) ++
        (snapshot.tables.toList.flatMap fun saved => .table saved.1 :: saved.2.map (.entry saved.1)) ++
        snapshot.tallies.toList.map fun counted => .tally counted.1 counted.2
    (∃ done rest, items = done ++ rest ∧ (∀ item ∈ done, pipeline.Admits item) ∧
      result.1 = pipeline.replay done ∧
      ((rest = [] ∧ result.2 = .ok ()) ∨
        ∃ item later error, rest = item :: later ∧ ¬ pipeline.Admits item ∧
          result.1.applyItem item = .error error ∧ result.2 = .error error) ∧
      ∀ name table key, pipeline.tables.find? name = some table →
        ∃ next, result.1.tables.find? name = some next ∧
          next.entryAt? key =
            ((done.filterMap (write? name table.layout)).reverse.lookup key).or (table.entryAt? key)) ∧
    (result.2 = .ok () ↔ pipeline.Matches snapshot) ∧
    (result.2 = .ok () → result.1.restore snapshot = result) := by
  intro pipeline result items
  have hnames : description.names.Nodup :=
    (Description.validate_eq_ok_iff.mp (ofDescription_eq_ok_iff.mp hstart).1).2.1
  have hintact : pipeline.Intact description := (intact_of_ofDescription hstart).run history
  -- The loops are the list of items, and from here on there is only this list.
  have hloops : result = pipeline.applyItems items := restore_eq_applyItems pipeline snapshot
  clear_value result
  subst hloops
  refine ⟨?_, ?_, fun hok => ?_⟩
  · obtain ⟨done, rest, hitems, hdone, hreached, hend⟩ := hintact.exists_applyItems hnames items
    refine ⟨done, rest, hitems, hdone, hreached, ?_, fun name table key htable => ?_⟩
    · rw [← hreached] at hend
      exact hend
    · obtain ⟨next, hnext, hentry⟩ := hintact.exists_table_replay done htable key
      exact ⟨next, (congrArg (fun reached => reached.tables.find? name) hreached).trans hnext, hentry⟩
  · rw [matches_iff]
    constructor
    · exact hintact.admits_of_applyItems hnames
    · intro hall
      exact congrArg Prod.snd (hintact.applyItems_eq hnames hall)
  · -- The items match what was reached as well, and there they change nothing.
    have hall := hintact.admits_of_applyItems hnames hok
    have hresult := hintact.applyItems_eq hnames hall
    have hreached := hintact.applyItems items
    have hagain (item : SnapshotItem) (hitem : item ∈ items) :=
      hintact.admits_of_admits hreached (hall item hitem)
    rw [restore_eq_applyItems]
    exact (hreached.applyItems_eq hnames hagain).trans (by rw [hresult, hintact.replay_replay])

/-- A snapshot with a key of three digits is put back up to this key. The records come before it, and the other
entry and the tally after it. -/
theorem restore_applies_until_mismatch_odd_key :
    let history : List Operation :=
      [.store "m" (.configure 1 { peak := ⟨250000, 2500⟩, committed := ⟨100000, 1500⟩ }),
        .table "t" (.update [7] (Bytes.zeros 104)), .table "t" (.hit [7] 60 5)]
    let snapshot : Snapshot :=
      { stores := .ofList [("m", [{}, {}])]
        tables := .ofList [("t", [⟨"123", ""⟩, ⟨"07", ""⟩])]
        tallies := .ofList [("m", {})] }
    ∃ start, ofDescription .storeAndTable = .ok start ∧
      snapshot.items =
        [.records "m" [{}, {}], .table "t"] ++
          [.entry "t" ⟨"123", ""⟩, .entry "t" ⟨"07", ""⟩, .tally "m" {}] ∧
      (start.run history).2.restore snapshot =
        ((start.run history).2.replay [.records "m" [{}, {}], .table "t"],
          .error (.invalidConfig (.badKey "t" .oddLength))) ∧
      ¬ (start.run history).2.Matches snapshot := by
  intro history snapshot
  obtain ⟨start, hstart⟩ : ∃ start, ofDescription .storeAndTable = .ok start := ⟨_, rfl⟩
  obtain ⟨⟨done, rest, hitems, hdone, hreached, hend, -⟩, hmatches, -⟩ :=
    restore_applies_until_mismatch .storeAndTable start hstart history snapshot
  have herror :
      ((start.run history).2.restore snapshot).2 = .error (.invalidConfig (.badKey "t" .oddLength)) := by
    cases hstart
    decide +kernel
  have hlist : snapshot.items =
      [.records "m" [{}, {}], .table "t", .entry "t" ⟨"123", ""⟩, .entry "t" ⟨"07", ""⟩, .tally "m" {}] := by
    decide +kernel
  have hrecords : (start.run history).2.Admits (.records "m" [{}, {}]) := by
    have hcapacity : ((start.run history).2.stores.find? "m").map Store.capacity = some 2 := by
      cases hstart
      decide +kernel
    obtain ⟨store, hstore, htwo⟩ := Option.map_eq_some_iff.mp hcapacity
    exact ⟨store, hstore, htwo.symm, by decide⟩
  have htable : (start.run history).2.Admits (.table "t") := by
    have hsome : ((start.run history).2.tables.find? "t").isSome := by
      cases hstart
      decide +kernel
    exact Option.isSome_iff_exists.mp hsome
  have hodd : ¬ (start.run history).2.Admits (.entry "t" ⟨"123", ""⟩) := by
    rintro ⟨_, -, key, _, hkey, -⟩
    have hparse : Hex.parse "123" = .error .oddLength := by decide +kernel
    rw [hparse] at hkey
    cases hkey
  -- The records and the table match and the first entry does not, so `done` ends before this entry.
  have hsplit : done = [.records "m" [{}, {}], .table "t"] := by
    rcases hend with ⟨-, hok⟩ | ⟨item, later, error, rfl, hrefused, -, -⟩
    · rw [herror] at hok
      cases hok
    · have hparts := hlist.symm.trans hitems
      rcases done with _ | ⟨first, _ | ⟨second, _ | ⟨third, more⟩⟩⟩
      · cases hparts
        exact absurd hrecords hrefused
      · cases hparts
        exact absurd htable hrefused
      · cases hparts
        rfl
      · rw [List.cons_append, List.cons_append, List.cons_append] at hparts
        injection hparts with _ hparts
        injection hparts with _ hparts
        injection hparts with hthird _
        exact absurd (hdone third (by simp)) (hthird ▸ hodd)
  rw [hsplit] at hreached
  refine ⟨start, hstart, hlist, Prod.ext hreached herror, ?_⟩
  rw [← hmatches, herror]
  simp

end Pipeline

end TrafficMeter
