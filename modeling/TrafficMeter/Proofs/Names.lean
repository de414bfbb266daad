import TrafficMeter.Proofs.ByteOrder
import TrafficMeter.Proofs.Restore

/-!
# Names of stores and tables

In an accepted description every name stands for one store or one table. A pipeline of the description keeps
it so: whatever is asked of it, a name leads to the store or table that was described under it
(`Pipeline.Resolves`), and a snapshot holds each of them once, with all that is its own, in the order of the
bytes of the names (`Pipeline.Saved`). The lists of a description can be of any length and in any order. All
that is used of them is that no name occurs twice.

## Main results

* `Pipeline.Intact.resolves`, `Pipeline.Intact.saved`: an intact pipeline finds and saves everything under its
  name;
* `Pipeline.accepted_names_unambiguous`: this holds of every pipeline of an accepted description.
-/

namespace TrafficMeter

/-- `texts` are listed in the order of their bytes, each of them once. -/
def Utf8.InOrder (texts : List String) : Prop :=
  texts.Pairwise fun text other => Utf8.bytes text < Utf8.bytes other

theorem OrderedMap.inOrder_keys {β : Type} (m : OrderedMap String β) : Utf8.InOrder m.keys :=
  List.pairwise_map.mpr (m.increasing.imp Utf8.bytes_lt_iff.mpr)

/-- If nothing else in `list` has the name of `a`, then `a` is found by it. -/
theorem find?_eq_some_of_nodup {α : Type} {name : α → String} {list : List α}
    (hnodup : (list.map name).Nodup) {a : α} (ha : a ∈ list) :
    list.find? (fun b => name b = name a) = some a := by
  cases hfind : list.find? fun b => name b = name a with
  | none => exact absurd (decide_eq_true rfl) (List.find?_eq_none.mp hfind a ha)
  | some b =>
    have hname : name b = name a := by simpa using List.find?_some hfind
    rw [List.inj_on_of_nodup_map hnodup (List.mem_of_find?_eq_some hfind) ha hname]

namespace Description

variable {description : Description}

/-- A store is described under `name` exactly if a store has this name. -/
theorem isSome_store?_iff {name : String} :
    (description.store? name).isSome ↔ name ∈ description.stores.map StoreDescription.name := by
  simp [store?, List.find?_isSome]

/-- A table is described under `name` exactly if a table has this name. -/
theorem isSome_table?_iff {name : String} :
    (description.table? name).isSome ↔ name ∈ description.tables.map TableDescription.name := by
  simp [table?, List.find?_isSome]

end Description

namespace Pipeline

variable {description : Description} {pipeline : Pipeline}

/-- Every described store and table is found in `pipeline` under its name, as the one or as the other and as it
was described, and nothing is found under any other name. -/
structure Resolves (description : Description) (pipeline : Pipeline) : Prop where
  /-- The name of a store leads to this store and to no table. -/
  stores : ∀ described ∈ description.stores, ∃ store, pipeline.store described.name = .ok store ∧
    pipeline.table described.name = .error (.unknownObject described.name) ∧ store.name = described.name ∧
    store.capacity = described.capacity.toNat ∧ store.unit = described.unit
  /-- The name of a table leads to this table and to no store. -/
  tables : ∀ described ∈ description.tables, ∃ table, pipeline.table described.name = .ok table ∧
    pipeline.store described.name = .error (.unknownObject described.name) ∧ table.name = described.name ∧
    table.layout = described.layout ∧ table.unit = described.unit
  /-- Other names lead nowhere. -/
  others : ∀ name ∉ description.names, pipeline.store name = .error (.unknownObject name) ∧
    pipeline.table name = .error (.unknownObject name)

/-- The snapshot of `pipeline` has all that is described under its name, and only that. -/
structure Saved (description : Description) (pipeline : Pipeline) : Prop where
  /-- Records are saved under the names of the stores. -/
  stores_perm : pipeline.snapshot.stores.keys.Perm (description.stores.map StoreDescription.name)
  /-- Entries are saved under the names of the tables. -/
  tables_perm : pipeline.snapshot.tables.keys.Perm (description.tables.map TableDescription.name)
  /-- Tallies are saved under all names. -/
  tallies_perm : pipeline.snapshot.tallies.keys.Perm description.names
  /-- The names of the stores are in the order of their bytes. -/
  stores_ordered : Utf8.InOrder pipeline.snapshot.stores.keys
  /-- The names of the tables are in the order of their bytes. -/
  tables_ordered : Utf8.InOrder pipeline.snapshot.tables.keys
  /-- All names are in the order of their bytes. -/
  tallies_ordered : Utf8.InOrder pipeline.snapshot.tallies.keys
  /-- The records and the tally under the name of a store are those of the store. -/
  store_saved : ∀ name store, pipeline.store name = .ok store →
    pipeline.snapshot.stores.find? name = some store.records ∧
      pipeline.snapshot.tallies.find? name = some store.tally
  /-- The entries and the tally under the name of a table are those of the table. -/
  table_saved : ∀ name table, pipeline.table name = .ok table →
    pipeline.snapshot.tables.find? name =
        some (table.dump.map fun entry => ⟨Hex.format entry.1, Hex.format entry.2⟩) ∧
      pipeline.snapshot.tallies.find? name = some table.tally

theorem store_eq_error_iff {name : String} :
    pipeline.store name = .error (.unknownObject name) ↔ pipeline.stores.find? name = none := by
  rw [Pipeline.store]
  cases pipeline.stores.find? name <;> simp

theorem table_eq_error_iff {name : String} :
    pipeline.table name = .error (.unknownObject name) ↔ pipeline.tables.find? name = none := by
  rw [Pipeline.table]
  cases pipeline.tables.find? name <;> simp

/-- The names of the stores of an intact pipeline are those that are described. -/
theorem Intact.mem_keys_stores_iff (h : pipeline.Intact description) (name : String) :
    name ∈ pipeline.stores.keys ↔ name ∈ description.stores.map StoreDescription.name := by
  rw [OrderedMap.mem_keys_iff, ← Option.isSome_iff_exists, ← isSome_eq_of_rel (h.stores name),
    Description.isSome_store?_iff]

/-- The names of the tables of an intact pipeline are those that are described. -/
theorem Intact.mem_keys_tables_iff (h : pipeline.Intact description) (name : String) :
    name ∈ pipeline.tables.keys ↔ name ∈ description.tables.map TableDescription.name := by
  rw [OrderedMap.mem_keys_iff, ← Option.isSome_iff_exists, ← isSome_eq_of_rel (h.tables name),
    Description.isSome_table?_iff]

/-- The names of the tallies of an intact pipeline are all of `description.names`. -/
theorem Intact.mem_keys_tallies_iff (h : pipeline.Intact description) (hnames : description.names.Nodup)
    (name : String) : name ∈ pipeline.tallies.keys ↔ name ∈ description.names := by
  rw [Description.names, List.mem_append, ← h.mem_keys_stores_iff, ← h.mem_keys_tables_iff]
  simp only [OrderedMap.mem_keys_iff, ← Option.isSome_iff_exists, h.find?_tallies hnames, Option.isSome_or,
    Option.isSome_map, Bool.or_eq_true]

/-- If names are distinct, no table has the `name` of a store. -/
theorem Intact.find?_tables_eq_none (h : pipeline.Intact description) (hnames : description.names.Nodup)
    {name : String} {store : Store} (hstore : pipeline.stores.find? name = some store) :
    pipeline.tables.find? name = none :=
  Option.eq_none_iff_forall_ne_some.mpr fun _ htable => h.ne_of_find? hnames hstore htable rfl

/-- If names are distinct, no store has the `name` of a table. -/
theorem Intact.find?_stores_eq_none (h : pipeline.Intact description) (hnames : description.names.Nodup)
    {name : String} {table : Table} (htable : pipeline.tables.find? name = some table) :
    pipeline.stores.find? name = none :=
  Option.eq_none_iff_forall_ne_some.mpr fun _ hstore => h.ne_of_find? hnames hstore htable rfl

/-- An intact pipeline resolves the names of its `description`, if these are distinct. -/
theorem Intact.resolves (h : pipeline.Intact description) (hnames : description.names.Nodup) :
    pipeline.Resolves description where
  stores described hdescribed := by
    -- The first store that is described under this name is the only one.
    have hfind : description.store? described.name = some described :=
      find?_eq_some_of_nodup (List.Nodup.of_append_left hnames) hdescribed
    obtain ⟨store, hstore, hintact⟩ := rel_some_left_iff.mp (hfind ▸ h.stores described.name)
    have htable := h.find?_tables_eq_none hnames hstore
    exact ⟨store, store_eq_ok_iff.mpr hstore, table_eq_error_iff.mpr htable, hintact.name_eq,
      hintact.capacity_eq, hintact.unit_eq⟩
  tables described hdescribed := by
    have hfind : description.table? described.name = some described :=
      find?_eq_some_of_nodup (List.Nodup.of_append_right hnames) hdescribed
    obtain ⟨table, htable, hintact⟩ := rel_some_left_iff.mp (hfind ▸ h.tables described.name)
    have hstore := h.find?_stores_eq_none hnames htable
    exact ⟨table, table_eq_ok_iff.mpr htable, store_eq_error_iff.mpr hstore, hintact.name_eq,
      hintact.layout_eq, hintact.unit_eq⟩
  others name hname := by
    simp only [Description.names, List.mem_append, ← h.mem_keys_stores_iff, ← h.mem_keys_tables_iff, not_or,
      OrderedMap.mem_keys_iff, ← Option.isSome_iff_exists, Option.not_isSome_iff_eq_none] at hname
    exact ⟨store_eq_error_iff.mpr hname.1, table_eq_error_iff.mpr hname.2⟩

/-- The snapshot of an intact pipeline has all that is described, if the names are distinct. -/
theorem Intact.saved (h : pipeline.Intact description) (hnames : description.names.Nodup) :
    pipeline.Saved description where
  -- No list has a name twice, so it is enough that they have the same names.
  stores_perm := by
    rw [snapshot, OrderedMap.keys_mapValues]
    exact (List.perm_ext_iff_of_nodup pipeline.stores.nodup_keys (List.Nodup.of_append_left hnames)).mpr
      h.mem_keys_stores_iff
  tables_perm := by
    rw [snapshot, OrderedMap.keys_mapValues]
    exact (List.perm_ext_iff_of_nodup pipeline.tables.nodup_keys (List.Nodup.of_append_right hnames)).mpr
      h.mem_keys_tables_iff
  tallies_perm :=
    (List.perm_ext_iff_of_nodup pipeline.tallies.nodup_keys hnames).mpr (h.mem_keys_tallies_iff hnames)
  stores_ordered := pipeline.snapshot.stores.inOrder_keys
  tables_ordered := pipeline.snapshot.tables.inOrder_keys
  tallies_ordered := pipeline.snapshot.tallies.inOrder_keys
  store_saved name store hstore := by
    rw [store_eq_ok_iff] at hstore
    simp [snapshot, h.find?_tallies hnames, hstore]
  table_saved name table htable := by
    rw [table_eq_ok_iff] at htable
    -- The tally is that of the table, since no store has its name.
    have hstore := h.find?_stores_eq_none hnames htable
    simp [snapshot, h.find?_tallies hnames, hstore, htable]

/-- Accepted names are unambiguous. A `description` is accepted exactly if all of its names are distinct and not
empty, every store has a meter and every table has a meter in its entries. Every accepted description has a
pipeline, and whatever is then asked of it, it finds every described store and table, and nothing else, under its
own name, and a snapshot has them all, each with its own records, entries and tally, in the order of the bytes of
the names. -/
theorem accepted_names_unambiguous (description : Description) :
    (description.validate = .ok () ↔
      "" ∉ description.names ∧ description.names.Nodup ∧
        (∀ store ∈ description.stores, 1 ≤ store.capacity.toNat) ∧
          ∀ table ∈ description.tables, 1 ≤ table.layout.meters.toNat) ∧
      (description.validate = .ok () →
        ∃ start, ofDescription description = .ok start ∧
          ∀ operations, (start.run operations).2.Resolves description ∧
            (start.run operations).2.Saved description) := by
  refine ⟨?_, fun hvalid => ?_⟩
  · simp [Description.validate_eq_ok_iff, Nat.one_le_iff_ne_zero, ← UInt32.toNat_inj, ← UInt64.toNat_inj]
  · obtain ⟨start, hstart⟩ : ∃ start, ofDescription description = .ok start :=
      ⟨_, ofDescription_eq_ok_iff.mpr ⟨hvalid, rfl⟩⟩
    have hnames := (Description.validate_eq_ok_iff.mp hvalid).2.1
    refine ⟨start, hstart, fun operations => ?_⟩
    have hintact := (intact_of_ofDescription hstart).run operations
    exact ⟨hintact.resolves hnames, hintact.saved hnames⟩

/-- The names of two stores and two tables that are written with one to four bytes a character, and that are
not described in the order in which they are saved. -/
theorem accepted_names_unambiguous_beyond_ascii :
    let description : Description :=
      { stores := [{ name := "é", capacity := 1 }, { name := "z", capacity := 2, unit := .packets }]
        tables := [{ name := "😀", layout := { actionDataLength := 2, meters := 1 } },
          { name := "√", layout := { actionDataLength := 0, counter := some .bytes, meters := 2 } }] }
    let operations : List Operation :=
      [.store "z" (.execute 1 1500 10), .table "√" (.delete [7]), .store "😀" (.execute 0 60 20),
        .restore { stores := .ofList [("z", [{}, {}]), ("a", [])] }]
    description.validate = .ok () ∧
      ∃ start, ofDescription description = .ok start ∧ (start.run operations).2.Resolves description ∧
        (start.run operations).2.Saved description := by
  intro description operations
  have hvalid : description.validate = .ok () := rfl
  obtain ⟨start, hstart, hreached⟩ := (accepted_names_unambiguous description).2 hvalid
  exact ⟨hvalid, start, hstart, hreached operations⟩

end Pipeline

end TrafficMeter
