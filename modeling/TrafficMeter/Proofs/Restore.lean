import TrafficMeter.Proofs.Hex
import TrafficMeter.Proofs.Similar

/-!
# Snapshots lose nothing

A snapshot that is put back into a new pipeline of the same description makes it similar to the pipeline
that the snapshot was taken from, so that nothing that is asked later by name, index and key can tell the
two apart.

While items are applied, the new pipeline is on its way to the old one: `Toward` says that each part is as
in the old pipeline or is still to come among the remaining items. One item keeps this up with one item less
to come (`Toward.applyItem`), and nothing is left to come after the last (`Toward.similar`).

## Main definitions

* `Store.Toward`, `Table.Toward`, `Pipeline.Toward`: a part is on its way to its target, with some items to come.

## Main results

* `Pipeline.Intact.exists_restore`: a snapshot can be put into a new pipeline, which becomes similar to the old
  one;
* `Pipeline.restore_snapshot_lossless`: nothing that is asked later tells the two apart.
-/

namespace TrafficMeter

namespace Entry

/-- What is stored of `entry` is stored as a whole. -/
@[simp]
theorem stored_stored (entry : Entry) (layout : Layout) :
    (entry.stored layout).stored layout = entry.stored layout := by
  cases h : layout.counter with
  | none => simp [stored, h]
  | some kind => cases kind <;> cases hcounter : entry.counter <;> simp [stored, Counter.stored, h, hcounter]

end Entry

namespace Table

variable {timer : Timer} {description : TableDescription} {table : Table}

/-- What is stored under `key` is read back from its raw value. -/
theorem Intact.ofBytes_toBytes (h : table.Intact timer description) {key : Bytes} {entry : Entry}
    (hstored : table.stored? key = some entry) :
    Entry.ofBytes table.layout (entry.toBytes table.layout) = .ok entry ∧
      entry.stored table.layout = entry := by
  rw [stored?, entryAt?_eq_map_find?, Option.map_map] at hstored
  obtain ⟨⟨id, held⟩, hfound, rfl⟩ := Option.map_eq_some_iff.mp hstored
  have hfits := h.fits_found hfound
  rw [← h.layout_eq] at hfits
  exact ⟨by simpa using Entry.ofBytes_toBytes hfits, by simp⟩

/-- The dump of a table lists what is stored under its keys. -/
theorem mem_dump_iff_stored? {key value : Bytes} :
    (key, value) ∈ table.dump ↔
      ∃ entry, table.stored? key = some entry ∧ value = entry.toBytes table.layout := by
  rw [mem_dump_iff]
  simp [stored?, eq_comm]

end Table

namespace Snapshot

variable {snapshot : Snapshot} {name : String}

/-- `snapshot` has an item for the records of each store. -/
theorem records_mem_items_iff {records : List Record} :
    .records name records ∈ snapshot.items ↔ snapshot.stores.find? name = some records := by
  rw [OrderedMap.find?_eq_some_iff]
  simp [items]

/-- `snapshot` has an item for each table. -/
theorem table_mem_items_iff :
    .table name ∈ snapshot.items ↔ ∃ entries, snapshot.tables.find? name = some entries := by
  simp only [OrderedMap.find?_eq_some_iff]
  simp [items]

/-- `snapshot` has an item for each entry of each table. -/
theorem entry_mem_items_iff {saved : SavedEntry} :
    .entry name saved ∈ snapshot.items ↔
      ∃ entries, snapshot.tables.find? name = some entries ∧ saved ∈ entries := by
  simp only [OrderedMap.find?_eq_some_iff]
  simp [items]

/-- `snapshot` has an item for each tally. -/
theorem tally_mem_items_iff {tally : Tally} :
    .tally name tally ∈ snapshot.items ↔ snapshot.tallies.find? name = some tally := by
  rw [OrderedMap.find?_eq_some_iff]
  simp [items]

end Snapshot

namespace Pipeline

variable {description : Description} {pipeline : Pipeline}

/-- No store and table of an intact pipeline have the same name, if the `description` has none twice. -/
theorem Intact.ne_of_find? (h : pipeline.Intact description) (hnames : description.names.Nodup)
    {name other : String} {store : Store} {table : Table} (hstore : pipeline.stores.find? name = some store)
    (htable : pipeline.tables.find? other = some table) : name ≠ other := by
  rintro rfl
  obtain ⟨_, hdescribed, -⟩ := h.exists_store hstore
  obtain ⟨_, hdescribed', -⟩ := h.exists_table htable
  exact List.disjoint_of_nodup_append hnames (Description.mem_map_name_of_store? hdescribed)
    (Description.mem_map_name_of_table? hdescribed')

/-- The names of all stores and tables of an intact pipeline are distinct, if those of the `description` are. -/
theorem Intact.nodup_keys (h : pipeline.Intact description) (hnames : description.names.Nodup) :
    (pipeline.stores.keys ++ pipeline.tables.keys).Nodup := by
  refine List.Nodup.append pipeline.stores.nodup_keys pipeline.tables.nodup_keys fun name hstore htable => ?_
  obtain ⟨store, hstore⟩ := (pipeline.stores.mem_keys_iff name).mp hstore
  obtain ⟨table, htable⟩ := (pipeline.tables.mem_keys_iff name).mp htable
  exact h.ne_of_find? hnames hstore htable rfl

/-- The tallies of a snapshot are those of the stores and of the tables. -/
theorem Intact.find?_tallies (h : pipeline.Intact description) (hnames : description.names.Nodup)
    (name : String) :
    pipeline.tallies.find? name =
      ((pipeline.stores.find? name).map Store.tally).or ((pipeline.tables.find? name).map Table.tally) := by
  have hnodup := h.nodup_keys hnames
  rw [← pipeline.stores.keys_mapValues fun _ store => store.tally,
    ← pipeline.tables.keys_mapValues fun _ table => table.tally, OrderedMap.keys, OrderedMap.keys,
    ← List.map_append] at hnodup
  rw [tallies, OrderedMap.find?_ofList hnodup, List.find?_append, Option.map_or]
  exact congrArg₂ Option.or (pipeline.stores.find?_mapValues _ name) (pipeline.tables.find?_mapValues _ name)

/-- The items that write entries are those of what is stored in the tables. -/
theorem entry_mem_items_iff {name : String} {saved : SavedEntry} :
    .entry name saved ∈ pipeline.snapshot.items ↔
      ∃ table key entry, pipeline.tables.find? name = some table ∧ table.stored? key = some entry ∧
        saved = ⟨Hex.format key, Hex.format (entry.toBytes table.layout)⟩ := by
  have hentries : pipeline.snapshot.tables.find? name = (pipeline.tables.find? name).map fun table =>
      table.dump.map fun binding => ⟨Hex.format binding.1, Hex.format binding.2⟩ :=
    pipeline.tables.find?_mapValues _ name
  rw [Snapshot.entry_mem_items_iff, hentries]
  cases htable : pipeline.tables.find? name with
  | none => simp
  | some table => simp [Table.mem_dump_iff_stored?, eq_comm (a := saved)]

end Pipeline

/-- `store`, found under `name`, is on its way to `target`: its records and its tally are those of `target` or
still to come in `rest`, and all else is the same. -/
structure Store.Toward (rest : List SnapshotItem) (name : String) (target store : Store) : Prop where
  /-- All but records and tally is the same. -/
  frame_eq : { store with records := target.records, tally := target.tally } = target
  /-- It has as many meters. -/
  capacity_eq : store.capacity = target.capacity
  /-- The records are there or still to come. -/
  records_eq : store.records = target.records ∨ .records name target.records ∈ rest
  /-- The tally is there or still to come. -/
  tally_eq : store.tally = target.tally ∨ .tally name target.tally ∈ rest

/-- `table`, found under `name`, is on its way to `target`: its tally and what is stored under each key are those
of `target` or still to come in `rest`, and all else is the same. -/
structure Table.Toward (rest : List SnapshotItem) (name : String) (target table : Table) : Prop where
  /-- All but entries and tally is the same. -/
  frame_eq : { table.frame with tally := target.tally } = target.frame
  /-- The tally is there or still to come. -/
  tally_eq : table.tally = target.tally ∨ .tally name target.tally ∈ rest
  /-- What is stored under a key is there or still to come. -/
  stored_eq : ∀ key, table.stored? key = target.stored? key ∨
    ∃ entry, target.stored? key = some entry ∧
      .entry name ⟨Hex.format key, Hex.format (entry.toBytes target.layout)⟩ ∈ rest

section Progress

variable {item : SnapshotItem} {rest : List SnapshotItem} {name : String}

/-- What is `done` or comes in `item :: rest` is done or comes in `rest`, unless it is `item`. -/
theorem done_or_mem_of_ne {done : Prop} {other : SnapshotItem} (h : done ∨ other ∈ item :: rest)
    (hne : other ≠ item) : done ∨ other ∈ rest :=
  h.imp_right fun hmem => (List.mem_cons.mp hmem).resolve_left hne

/-- An `item` that does not concern a store may be taken away. -/
theorem Store.Toward.skip {target store : Store} (h : Store.Toward (item :: rest) name target store)
    (hrecords : .records name target.records ≠ item) (htally : .tally name target.tally ≠ item) :
    Store.Toward rest name target store :=
  ⟨h.frame_eq, h.capacity_eq, done_or_mem_of_ne h.records_eq hrecords, done_or_mem_of_ne h.tally_eq htally⟩

/-- An `item` that writes no entry of a table leaves those to come in `rest`. -/
theorem Table.Toward.stored_eq_of_ne {target table : Table}
    (h : Table.Toward (item :: rest) name target table) (hentry : ∀ saved, .entry name saved ≠ item)
    (key : Bytes) :
    table.stored? key = target.stored? key ∨
      ∃ entry, target.stored? key = some entry ∧
        .entry name ⟨Hex.format key, Hex.format (entry.toBytes target.layout)⟩ ∈ rest := by
  rcases h.stored_eq key with hdone | ⟨entry, hstored, hmem⟩
  · exact .inl hdone
  · exact .inr ⟨entry, hstored, (List.mem_cons.mp hmem).resolve_left (hentry _)⟩

/-- An `item` that does not concern a table may be taken away. -/
theorem Table.Toward.skip {target table : Table} (h : Table.Toward (item :: rest) name target table)
    (hentry : ∀ saved, .entry name saved ≠ item) (htally : .tally name target.tally ≠ item) :
    Table.Toward rest name target table :=
  ⟨h.frame_eq, done_or_mem_of_ne h.tally_eq htally, h.stored_eq_of_ne hentry⟩

/-- Writing the next `entry` under `key` puts it back. -/
theorem Table.Toward.write {timer : Timer} {description : TableDescription} {target table : Table}
    {key : Bytes} {value : String} {entry : Entry}
    (h : Table.Toward (.entry name ⟨Hex.format key, value⟩ :: rest) name target table)
    (hintact : table.Intact timer description) (hentry : target.stored? key = some entry)
    (hself : entry.stored target.layout = entry) : Table.Toward rest name target (table.write key entry) := by
  have hlayout : table.layout = target.layout := (congrArg Table.layout h.frame_eq :)
  have htally : (table.write key entry).tally = table.tally :=
    (congrArg Table.tally (frame_write key entry) :)
  refine ⟨by rw [frame_write, h.frame_eq], ?_, fun other => ?_⟩
  · rw [htally]
    exact done_or_mem_of_ne h.tally_eq (by simp)
  · rw [hintact.stored?_write, hlayout, hself]
    split
    next hother => exact .inl (by rw [hother, hentry])
    next hother =>
      rcases h.stored_eq other with hdone | ⟨found, hfound, hmem⟩
      · exact .inl hdone
      · -- The item that was applied is that of its own key, since different keys have different texts.
        refine .inr ⟨found, hfound, (List.mem_cons.mp hmem).resolve_left fun heq => hother ?_⟩
        simp only [SnapshotItem.entry.injEq, SavedEntry.mk.injEq, true_and] at heq
        exact Hex.format_injective heq.1

/-- The new store of a `description` is on its way to every intact `target` of the same description, with all to
come. -/
theorem Store.Intact.toward_storeOf {timer : Timer} {description : StoreDescription} {target : Store}
    (h : target.Intact timer description) (hrecords : .records name target.records ∈ rest)
    (htally : .tally name target.tally ∈ rest) :
    Store.Toward rest name target (Pipeline.storeOf timer description) := by
  refine ⟨?_, ?_, .inr hrecords, .inr htally⟩
  · rw [Pipeline.storeOf, Store.create, ← h.name_eq, ← h.unit_eq, ← h.timer_eq]
  · rw [h.capacity_eq]
    exact List.length_replicate

/-- The new table of a `description` is on its way to every intact `target` of the same description, with all to
come. -/
theorem Table.Intact.toward_tableOf {timer : Timer} {description : TableDescription} {target : Table}
    (h : target.Intact timer description) (htally : .tally name target.tally ∈ rest)
    (hentries : ∀ key entry, target.stored? key = some entry →
      .entry name ⟨Hex.format key, Hex.format (entry.toBytes target.layout)⟩ ∈ rest) :
    Table.Toward rest name target (Pipeline.tableOf timer description) := by
  refine ⟨?_, .inr htally, fun key => ?_⟩
  · rw [Pipeline.tableOf, Table.create, ← h.name_eq, ← h.layout_eq, ← h.unit_eq, ← h.timer_eq]
    rfl
  · cases hstored : target.stored? key with
    | none => exact .inl rfl
    | some entry => exact .inr ⟨entry, rfl, hentries key entry hstored⟩

end Progress

namespace Pipeline

/-- `pipeline` is on its way to `target`: each of its stores and tables is, with the items of `rest` to come. -/
structure Toward (target : Pipeline) (rest : List SnapshotItem) (pipeline : Pipeline) : Prop where
  /-- The stores are on their way. -/
  stores : ∀ name, Option.Rel (Store.Toward rest name) (target.stores.find? name) (pipeline.stores.find? name)
  /-- The tables are on their way. -/
  tables : ∀ name, Option.Rel (Table.Toward rest name) (target.tables.find? name) (pipeline.tables.find? name)

variable {description : Description} {target pipeline : Pipeline} {rest : List SnapshotItem}

/-- The `records` of a store are accepted, and this puts them back. -/
theorem Toward.applyRecords {name : String} {records : List Record}
    (h : target.Toward (.records name records :: rest) pipeline) (htarget : target.Intact description)
    (hitem : .records name records ∈ target.snapshot.items) :
    ∃ next, pipeline.applyItem (.records name records) = .ok next ∧ target.Toward rest next := by
  -- The item holds the records of the target, which are as many as before and not overfull.
  rw [Snapshot.records_mem_items_iff, snapshot, OrderedMap.find?_mapValues] at hitem
  obtain ⟨goal, hgoal, rfl⟩ := Option.map_eq_some_iff.mp hitem
  obtain ⟨store, hstore, htoward⟩ := rel_some_left_iff.mp (hgoal ▸ h.stores name)
  obtain ⟨_, -, hintact⟩ := htarget.exists_store hgoal
  have hrestore : store.restore goal.records = .ok { store with records := goal.records } :=
    Store.restore_eq_ok_iff.mpr ⟨htoward.capacity_eq.symm, hintact.withinCapacity, rfl⟩
  refine ⟨_, by rw [applyItem, store_eq_ok_iff.mpr hstore, ok_bind, hrestore]; rfl, ?_, fun other => ?_⟩
  · refine OrderedMap.rel_find?_modify h.stores hstore (fun found hfound hold => ?_)
      fun other found store' hne hold => hold.skip (by simp [hne]) (by simp)
    rw [hgoal] at hfound
    cases hfound
    exact ⟨hold.frame_eq, rfl, .inl rfl, done_or_mem_of_ne hold.tally_eq (by simp)⟩
  · exact rel_imp (h.tables other) fun _ _ _ hold => hold.skip (by simp) (by simp)

/-- A `saved` entry of a table is accepted, and this puts it back. -/
theorem Toward.applyEntry {name : String} {saved : SavedEntry}
    (h : target.Toward (.entry name saved :: rest) pipeline) (htarget : target.Intact description)
    (hpipeline : pipeline.Intact description) (hitem : .entry name saved ∈ target.snapshot.items) :
    ∃ next, pipeline.applyItem (.entry name saved) = .ok next ∧ target.Toward rest next := by
  -- The item is the raw form of what is stored in the target, so it is decoded to just that.
  obtain ⟨goal, key, entry, hgoal, hentry, rfl⟩ := entry_mem_items_iff.mp hitem
  obtain ⟨table, htable, htoward⟩ := rel_some_left_iff.mp (hgoal ▸ h.tables name)
  obtain ⟨_, -, hintact⟩ := htarget.exists_table hgoal
  obtain ⟨_, -, hintact'⟩ := hpipeline.exists_table htable
  obtain ⟨hraw, hself⟩ := hintact.ofBytes_toBytes hentry
  have hlayout : table.layout = goal.layout := (congrArg Table.layout htoward.frame_eq :)
  have hupdate : table.update key (entry.toBytes goal.layout) = .ok (table.write key entry) :=
    hintact'.update_eq_ok_iff.mpr ⟨entry, hlayout ▸ hraw, rfl⟩
  refine ⟨pipeline.putTable name (table.write key entry), ?_, fun other => ?_, ?_⟩
  · simp [applyItem, table_eq_ok_iff.mpr htable, Hex.parse_format, Except.mapError, hupdate]
  · exact rel_imp (h.stores other) fun _ _ _ hold => hold.skip (by simp) (by simp)
  · refine OrderedMap.rel_find?_modify h.tables htable (fun found hfound hold => ?_)
      fun other found table' hne hold => hold.skip (by simp [hne]) (by simp)
    rw [hgoal] at hfound
    cases hfound
    exact hold.write hintact' hentry hself

/-- A `tally` is accepted, and this puts it back. -/
theorem Toward.applyTally {name : String} {tally : Tally}
    (h : target.Toward (.tally name tally :: rest) pipeline) (htarget : target.Intact description)
    (hnames : description.names.Nodup) (hitem : .tally name tally ∈ target.snapshot.items) :
    ∃ next, pipeline.applyItem (.tally name tally) = .ok next ∧ target.Toward rest next := by
  rw [Snapshot.tally_mem_items_iff, snapshot, htarget.find?_tallies hnames] at hitem
  cases hgoal : target.stores.find? name with
  | some goal =>
    have htally : goal.tally = tally := by simpa [hgoal] using hitem
    obtain ⟨store, hstore, htoward⟩ := rel_some_left_iff.mp (hgoal ▸ h.stores name)
    refine ⟨pipeline.putStore name (store.loadTally tally), by simp [applyItem, hstore], ?_, fun other => ?_⟩
    · refine OrderedMap.rel_find?_modify h.stores hstore (fun found hfound hold => ?_)
        fun other found store' hne hold => hold.skip (by simp) (by simp [hne])
      rw [hgoal] at hfound
      cases hfound
      exact ⟨hold.frame_eq, hold.capacity_eq, done_or_mem_of_ne hold.records_eq (by simp), .inl htally.symm⟩
    · -- The tally is that of the store, since no table has the same name.
      refine rel_imp (h.tables other) fun _ _ hfound hold => hold.skip (by simp) ?_
      simp [(htarget.ne_of_find? hnames hgoal hfound).symm]
  | none =>
    have hstore := rel_none_left_iff.mp (hgoal ▸ h.stores name)
    obtain ⟨goal, hgoalTable, htally⟩ :
        ∃ goal, target.tables.find? name = some goal ∧ goal.tally = tally := by
      simpa [hgoal] using hitem
    obtain ⟨table, htable, htoward⟩ := rel_some_left_iff.mp (hgoalTable ▸ h.tables name)
    refine ⟨pipeline.putTable name (table.loadTally tally), by simp [applyItem, hstore, htable],
      fun other => ?_, ?_⟩
    · refine rel_imp (h.stores other) fun _ _ hfound hold => hold.skip (by simp) ?_
      simp [htarget.ne_of_find? hnames hfound hgoalTable]
    · refine OrderedMap.rel_find?_modify h.tables htable (fun found hfound hold => ?_)
        fun other found table' hne hold => hold.skip (by simp) (by simp [hne])
      rw [hgoalTable] at hfound
      cases hfound
      exact ⟨hold.frame_eq, .inl htally.symm, hold.stored_eq_of_ne (by simp)⟩

/-- Every `item` of the snapshot of `target` is accepted and leaves one item less to come. -/
theorem Toward.applyItem {item : SnapshotItem} (h : target.Toward (item :: rest) pipeline)
    (htarget : target.Intact description) (hpipeline : pipeline.Intact description)
    (hnames : description.names.Nodup) (hitem : item ∈ target.snapshot.items) :
    ∃ next, pipeline.applyItem item = .ok next ∧ target.Toward rest next := by
  cases item with
  | records name records => exact h.applyRecords htarget hitem
  | table name =>
    obtain ⟨entries, hentries⟩ := Snapshot.table_mem_items_iff.mp hitem
    rw [snapshot, OrderedMap.find?_mapValues] at hentries
    obtain ⟨goal, hgoal, -⟩ := Option.map_eq_some_iff.mp hentries
    obtain ⟨table, htable, -⟩ := rel_some_left_iff.mp (hgoal ▸ h.tables name)
    refine ⟨pipeline, by simp [Pipeline.applyItem, table_eq_ok_iff.mpr htable], fun other => ?_,
      fun other => ?_⟩
    · exact rel_imp (h.stores other) fun _ _ _ hold => hold.skip (by simp) (by simp)
    · exact rel_imp (h.tables other) fun _ _ _ hold => hold.skip (by simp) (by simp)
  | entry name saved => exact h.applyEntry htarget hpipeline hitem
  | tally name tally => exact h.applyTally htarget hnames hitem

/-- All `items` that are still to come are accepted, and nothing is to come afterwards. -/
theorem Toward.applyItems {items : List SnapshotItem} (h : target.Toward items pipeline)
    (htarget : target.Intact description) (hpipeline : pipeline.Intact description)
    (hnames : description.names.Nodup) (hitems : ∀ item ∈ items, item ∈ target.snapshot.items) :
    ∃ restored, pipeline.applyItems items = (restored, .ok ()) ∧ target.Toward [] restored := by
  -- Each item is accepted with the later ones still to come, so the work never stops early.
  induction items generalizing pipeline with
  | nil => exact ⟨pipeline, rfl, h⟩
  | cons item rest ih =>
    rw [List.forall_mem_cons] at hitems
    obtain ⟨next, hnext, htoward⟩ := h.applyItem htarget hpipeline hnames hitems.1
    obtain ⟨restored, hrestored, hdone⟩ := ih htoward (hpipeline.applyItem hnext) hitems.2
    refine ⟨restored, ?_, hdone⟩
    rw [Pipeline.applyItems, hnext]
    exact hrestored

/-- A `pipeline` for which nothing is to come is similar to its `target`. -/
theorem Toward.similar (h : target.Toward [] pipeline) : target.Similar pipeline := by
  refine ⟨OrderedMap.ext_find? fun name => ?_,
    fun name => rel_imp (h.tables name) fun goal table _ htoward => ?_⟩
  · -- Nothing is to come any more, so all that was done or to come is done.
    have hrel := h.stores name
    generalize target.stores.find? name = found, pipeline.stores.find? name = found' at hrel
    cases hrel with
    | none => rfl
    | some htoward =>
      have hrecords := htoward.records_eq.resolve_right (by simp)
      have htally := htoward.tally_eq.resolve_right (by simp)
      have hframe := htoward.frame_eq
      rw [← hrecords, ← htally] at hframe
      rw [← hframe]
  · have htally := htoward.tally_eq.resolve_right (by simp)
    have hframe := htoward.frame_eq
    rw [← htally] at hframe
    exact ⟨hframe.symm, fun key => ((htoward.stored_eq key).resolve_right (by simp)).symm⟩

/-- A new pipeline is on its way to every `target` of its `description`, with all items of the snapshot to come.
-/
theorem Intact.toward_of_ofDescription {start : Pipeline} (h : target.Intact description)
    (hstart : ofDescription description = .ok start) (hnames : description.names.Nodup) :
    target.Toward target.snapshot.items start := by
  refine ⟨fun name => ?_, fun name => ?_⟩
  · -- Where a store is described, the snapshot has its records and its tally.
    rw [find?_stores_of_ofDescription hstart]
    have hrel := h.stores name
    cases hdescribed : description.store? name with
    | none =>
      rw [hdescribed, rel_none_left_iff] at hrel
      rw [hrel]
      exact .none
    | some described =>
      rw [hdescribed, rel_some_left_iff] at hrel
      obtain ⟨goal, hgoal, hintact⟩ := hrel
      rw [hgoal]
      refine .some (hintact.toward_storeOf (Snapshot.records_mem_items_iff.mpr ?_)
        (Snapshot.tally_mem_items_iff.mpr ?_))
      · rw [snapshot, OrderedMap.find?_mapValues, hgoal, Option.map_some]
      · rw [snapshot, h.find?_tallies hnames, hgoal, Option.map_some, Option.some_or]
  · rw [find?_tables_of_ofDescription hstart]
    have hrel := h.tables name
    cases hdescribed : description.table? name with
    | none =>
      rw [hdescribed, rel_none_left_iff] at hrel
      rw [hrel]
      exact .none
    | some described =>
      rw [hdescribed, rel_some_left_iff] at hrel
      obtain ⟨goal, hgoal, hintact⟩ := hrel
      -- The tally under this name is that of the table, since no store has the name.
      have hstore : target.stores.find? name = none :=
        Option.eq_none_iff_forall_ne_some.mpr fun store hstore => h.ne_of_find? hnames hstore hgoal rfl
      rw [hgoal]
      refine .some (hintact.toward_tableOf (Snapshot.tally_mem_items_iff.mpr ?_) fun key entry hentry =>
        entry_mem_items_iff.mpr ⟨goal, key, entry, hgoal, hentry, rfl⟩)
      rw [snapshot, h.find?_tallies hnames, hstore, hgoal, Option.map_none, Option.none_or, Option.map_some]

/-- The snapshot of an intact `target` can be put into a new pipeline, which it makes similar to `target`. -/
theorem Intact.exists_restore {start : Pipeline} (h : target.Intact description)
    (hstart : ofDescription description = .ok start) :
    ∃ restored, start.restore target.snapshot = (restored, .ok ()) ∧ target.Similar restored ∧
      restored.Intact description := by
  have hnames := (Description.validate_eq_ok_iff.mp (ofDescription_eq_ok_iff.mp hstart).1).2.1
  have hnew := intact_of_ofDescription hstart
  obtain ⟨restored, hrestored, hdone⟩ :=
    (h.toward_of_ofDescription hstart hnames).applyItems h hnew hnames fun _ => id
  have hitems := hnew.applyItems target.snapshot.items
  rw [hrestored] at hitems
  exact ⟨restored, (restore_eq_applyItems ..).trans hrestored, hdone.similar, hitems⟩

/-- A snapshot loses nothing. Take any pipeline that was reached from a `description` by any operations, held
objects and refused restores included, and put its snapshot into a new pipeline of the same description. This
succeeds, the new pipeline has the same snapshot, and whatever is asked later by name, index and key of both is
answered the same and leaves the same snapshots. Only the halves of counters that are not stored may differ in
the answers. -/
theorem restore_snapshot_lossless (description : Description) (start : Pipeline)
    (hstart : ofDescription description = .ok start) (history : List Operation) :
    ∃ restored, start.restore (start.run history).2.snapshot = (restored, .ok ()) ∧
      restored.snapshot = (start.run history).2.snapshot ∧
      ∀ operations : List Operation, (∀ operation ∈ operations, operation.isNamed) →
        (restored.run operations).1.map (·.map Answer.stored) =
            ((start.run history).2.run operations).1.map (·.map Answer.stored) ∧
          (restored.run operations).2.snapshot = ((start.run history).2.run operations).2.snapshot := by
  have hreached := (intact_of_ofDescription hstart).run history
  obtain ⟨restored, hrestored, hsimilar, hintact⟩ := hreached.exists_restore hstart
  -- All that follows is about two similar pipelines.
  refine ⟨restored, hrestored, hsimilar.snapshot_eq.symm, fun operations hnamed => ?_⟩
  obtain ⟨hanswers, hlast⟩ := hsimilar.run hreached hintact hnamed
  exact ⟨hanswers.symm, hlast.snapshot_eq.symm⟩

/-- A pipeline with a key that was deleted and inserted again while its old object was still held. -/
theorem restore_snapshot_lossless_reinserted :
    let history : List Operation :=
      [.store "m" (.configure 1 { peak := ⟨250000, 2500⟩, committed := ⟨100000, 1500⟩ }),
        .store "m" (.execute 1 1500 10), .table "t" (.update [7] (Bytes.zeros 104)), .table "t" (.delete [7]),
        .table "t" (.update [7] (Bytes.zeros 104)), .table "t" (.countHeld 0 60), .table "t" (.hit [7] 61 6)]
    let later : List Operation :=
      [.table "t" (.lookup [7]), .table "t" (.hit [7] 60 7), .store "m" (.execute 1 1500 20), .snapshot]
    ∃ start restored, ofDescription .storeAndTable = .ok start ∧
      start.restore (start.run history).2.snapshot = (restored, .ok ()) ∧
      restored.snapshot = (start.run history).2.snapshot ∧
      (∀ operation ∈ later, operation.isNamed) ∧
      (restored.run later).1.map (·.map Answer.stored) =
        ((start.run history).2.run later).1.map (·.map Answer.stored) ∧
      (restored.run later).2.snapshot = ((start.run history).2.run later).2.snapshot := by
  intro history later
  obtain ⟨restored, hrestored, hsnapshot, hlater⟩ := restore_snapshot_lossless .storeAndTable _ rfl history
  exact ⟨_, restored, rfl, hrestored, hsnapshot, by decide, hlater later (by decide)⟩

end Pipeline

end TrafficMeter
