import TrafficMeter.Proofs.Description
import TrafficMeter.Proofs.Effect
import TrafficMeter.Proofs.Pace
import TrafficMeter.Proofs.Raw
import TrafficMeter.Proofs.SnapshotItem

/-!
# What every reachable pipeline keeps

Raw values and snapshots come from outside, and a restore can stop midway, but whatever is asked of a
pipeline, it stays intact: no bucket holds more tokens than fit into it, every store has as many meters as
at first, every entry has the parts that its layout asks for, and no store or table appears or goes away.

- `Record.withinCapacity_of_serve`: no request to a meter leaves it overfull;
- `Store.Intact`, `Table.Intact`, `Pipeline.Intact`: the invariant, with a step lemma for each;
- `Pipeline.Intact.run`: every run keeps the invariant.
-/

namespace TrafficMeter

namespace Bucket

/-- `bucket.refill now` is not overfull, whatever `bucket` held before. -/
theorem withinCapacity_refill (bucket : Bucket) (now : UInt64) : (bucket.refill now).withinCapacity := by
  have hlevel : (bucket.refill now).level.toNat ≤ (bucket.refill now).capacity.toNat := by
    rw [toNat_level_refill]
    exact Nat.min_le_left _ _
  simpa [withinCapacity, UInt64.le_iff_toNat_le] using hlevel

/-- A `bucket` that is not overfull can pay for a `size` that it covers and is then not overfull either. -/
theorem withinCapacity_spend {bucket : Bucket} {size : UInt64} (h : bucket.withinCapacity)
    (hcovers : bucket.covers size) : (bucket.spend size).withinCapacity := by
  have hlevel : bucket.level.toNat ≤ bucket.capacity.toNat := by
    simpa [withinCapacity, UInt64.le_iff_toNat_le] using h
  have hspend : (bucket.spend size).level.toNat ≤ (bucket.spend size).capacity.toNat := by
    rw [toNat_level_spend _ _ hcovers]
    exact (Nat.sub_le _ _).trans hlevel
  simpa [withinCapacity, UInt64.le_iff_toNat_le] using hspend

end Bucket

namespace Record

/-- `record` is within capacity if the buckets of both tiers are. -/
theorem withinCapacity_of_bucket {record : Record} (h : ∀ tier, (record.bucket tier).withinCapacity) :
    record.withinCapacity := by
  rw [withinCapacity, Bool.and_eq_true]
  exact ⟨h .peak, h .committed⟩

/-- The buckets of a marked record are not overfull, whatever they held before. -/
theorem withinCapacity_markFrom (record : Record) (incoming : Color) (size now : UInt64) :
    (record.markFrom incoming size now).2.withinCapacity := by
  refine withinCapacity_of_bucket fun tier => ?_
  have hbucket := record.bucket_receive ⟨incoming, size, now⟩ tier
  rw [receive] at hbucket
  rw [hbucket]
  exact Bucket.withinCapacity_spend (Bucket.withinCapacity_refill _ _) (record.covers_charge _ tier)

/-- The new `record` of a profile is full and not more than that. -/
theorem withinCapacity_of_toRecord {timer : Timer} {profile : Profile} {record : Record}
    (h : profile.toRecord timer = .ok record) : record.withinCapacity := by
  obtain ⟨hpeak, hcommitted⟩ := Profile.toRecord_eq_ok_iff.mp h
  obtain ⟨hpeakCapacity, hpeakLevel, -⟩ := Limit.toBucket_eq_ok hpeak
  obtain ⟨hcommittedCapacity, hcommittedLevel, -⟩ := Limit.toBucket_eq_ok hcommitted
  simp [withinCapacity, Bucket.withinCapacity, *]

/-- A meter that is not overfull is not overfull after any `request`. -/
theorem withinCapacity_of_serve {record served : Record} {unit : MeasureUnit} {timer : Timer}
    {request : Request} {answer : Answer} (hrecord : record.withinCapacity)
    (h : record.serve unit timer request = .ok (answer, served)) : served.withinCapacity := by
  -- A marked or new record is within capacity by its construction, and one that is written was checked.
  cases request with
  | execute incoming length now =>
    cases h
    exact withinCapacity_markFrom _ _ _ _
  | mark incoming size now =>
    cases h
    exact withinCapacity_markFrom _ _ _ _
  | configure profile =>
    obtain ⟨configured, hconfigured, hserved⟩ := map_eq_ok_iff.mp h
    cases hserved
    exact withinCapacity_of_toRecord hconfigured
  | read =>
    cases h
    exact hrecord
  | reset =>
    cases h
    rfl
  | readBytes =>
    cases h
    exact hrecord
  | writeBytes value =>
    obtain ⟨written, hwritten, hserved⟩ := map_eq_ok_iff.mp h
    cases hserved
    obtain ⟨-, hvalid, rfl⟩ := ofBytes_eq_ok_iff.mp hwritten
    exact hvalid

end Record

namespace Entry

variable {entry : Entry} {layout : Layout}

/-- The `entry` that is read from a value that is accepted fits the `layout`. -/
theorem fits_of_ofBytes {value : Bytes} (h : ofBytes layout value = .ok entry) : entry.Fits layout := by
  obtain ⟨hlength, hmeters, haction, hcounter⟩ := ofBytes_eq_ok_iff.mp h
  -- Every meter was read from its slot, and reading refuses an overfull record.
  obtain ⟨hslots, hraw⟩ := List.forall₂_iff_get.mp hmeters
  refine ⟨?_, fun record hrecord => ?_, ?_, ?_⟩
  · rw [← hslots, List.length_range]
  · obtain ⟨⟨slot, hslot⟩, rfl⟩ := List.get_of_mem hrecord
    obtain ⟨-, hwithin, heq⟩ := Record.ofBytes_eq_ok_iff.mp (hraw slot (hslots ▸ hslot) hslot)
    rwa [heq]
  · -- The length of the value was checked, so the data of the action is not cut short.
    have hroom := layout.le_actionLength.trans layout.actionLength_le_valueLength
    rw [haction, ActionRef.decode, Bytes.slice, List.length_take, List.length_drop, hlength]
    omega
  · rw [hcounter, Option.isSome_map]

/-- An entry that fits and is rewritten by `decoded` keeps nothing of what it `held`. -/
theorem revise_eq_self {held : Option Entry} {decoded : Entry} (hheld : ∀ entry ∈ held, entry.Fits layout)
    (hdecoded : decoded.Fits layout) : revise held decoded = decoded := by
  cases held with
  | none => rfl
  | some entry =>
    have hentry := hheld entry rfl
    exact rewrite_eq_self (hentry.isSome_counter.trans hdecoded.isSome_counter.symm)
      (hentry.length_meters.trans hdecoded.length_meters.symm)

/-- An `entry` still fits after a packet of any `length` was counted. -/
theorem Fits.count (h : entry.Fits layout) (length : UInt32) : (entry.count length).Fits layout :=
  ⟨h.length_meters, h.withinCapacity, h.length_data, by rw [Entry.count, Option.isSome_map, h.isSome_counter]⟩

/-- An `entry` still fits after the meter in `slot` was replaced by a `record` that is not overfull. -/
theorem Fits.putMeter (h : entry.Fits layout) (slot : Nat) {record : Record}
    (hrecord : record.withinCapacity) : (entry.putMeter slot record).Fits layout := by
  refine ⟨?_, fun other hother => ?_, h.length_data, h.isSome_counter⟩
  · rw [Entry.putMeter, List.length_set, h.length_meters]
  · rcases List.mem_or_eq_of_mem_set hother with hold | rfl
    · exact h.withinCapacity other hold
    · exact hrecord

/-- An `entry` still fits after a packet was marked on all meters. -/
theorem Fits.markAll (h : entry.Fits layout) (size now : UInt64) :
    (entry.markAll size now).2.Fits layout := by
  refine ⟨?_, fun record hrecord => ?_, h.length_data, h.isSome_counter⟩
  · simp [Entry.markAll, h.length_meters]
  · simp only [Entry.markAll, List.map_map, List.mem_map, Function.comp_apply] at hrecord
    obtain ⟨old, -, rfl⟩ := hrecord
    exact Record.withinCapacity_markFrom _ _ _ _

end Entry

namespace Store

/-- `store` is as the `description` says, and none of its meters is overfull. -/
structure Intact (timer : Timer) (description : StoreDescription) (store : Store) : Prop where
  /-- It has its name. -/
  name_eq : store.name = description.name
  /-- It counts in its unit. -/
  unit_eq : store.unit = description.unit
  /-- It encodes rates for its timer. -/
  timer_eq : store.timer = timer
  /-- It has all of its meters and no more. -/
  capacity_eq : store.capacity = description.capacity.toNat
  /-- No meter holds more tokens than fit into it. -/
  withinCapacity : ∀ record ∈ store.records, record.withinCapacity

variable {timer : Timer} {description : StoreDescription} {store : Store}

/-- The new store of a `description` is intact. -/
theorem intact_storeOf (timer : Timer) (description : StoreDescription) :
    (Pipeline.storeOf timer description).Intact timer description := by
  refine ⟨rfl, rfl, rfl, List.length_replicate, fun record hrecord => ?_⟩
  rw [List.eq_of_mem_replicate hrecord]
  rfl

/-- A store stays intact if all of its meters are replaced by as many `records` that are not overfull. -/
theorem Intact.withRecords (h : store.Intact timer description) {records : List Record}
    (hlength : records.length = store.capacity) (hrecords : ∀ record ∈ records, record.withinCapacity)
    (tally : Tally) : ({ store with records, tally } : Store).Intact timer description :=
  ⟨h.name_eq, h.unit_eq, h.timer_eq, hlength.trans h.capacity_eq, hrecords⟩

/-- Every successful `operation` keeps a store intact. -/
theorem Intact.effect (h : store.Intact timer description) {operation : Operation} {answer : Answer}
    {next : Store} (heffect : store.Effect operation answer next) : next.Intact timer description := by
  cases heffect with
  | serve _ hserve =>
    -- One meter was written, and the others are those of before.
    obtain ⟨record, served, hread, hrecord, rfl⟩ := serve_eq_ok_iff.mp hserve
    have hold := h.withinCapacity record (List.mem_of_getElem? (read_eq_ok_iff.mp hread))
    refine h.withRecords (List.length_set ..) (fun other hother => ?_) _
    rcases List.mem_or_eq_of_mem_set hother with hother | rfl
    · exact h.withinCapacity other hother
    · exact Record.withinCapacity_of_serve hold hrecord
  | restore hrestore =>
    obtain ⟨hlength, hrecords, rfl⟩ := restore_eq_ok_iff.mp hrestore
    exact h.withRecords hlength hrecords _
  | loadTally tally => exact h.withRecords rfl h.withinCapacity tally
  | view => exact h

/-- Every `operation` keeps a store intact. -/
theorem Intact.perform (h : store.Intact timer description) (operation : Operation) :
    (store.perform operation).2.Intact timer description :=
  perform_preserves h fun _ _ => h.effect

end Store

namespace Table

/-- `table` is as the `description` says, all of its objects fit its layout, and every key has an object of its
own. -/
structure Intact (timer : Timer) (description : TableDescription) (table : Table) : Prop where
  /-- It has its name. -/
  name_eq : table.name = description.name
  /-- It has its layout. -/
  layout_eq : table.layout = description.layout
  /-- It counts in its unit. -/
  unit_eq : table.unit = description.unit
  /-- It encodes rates for its timer. -/
  timer_eq : table.timer = timer
  /-- Every object, under a key or not, has the parts that the layout asks for. -/
  fits : ∀ entry ∈ table.objects, entry.Fits description.layout
  /-- The object of a key is in the object store. -/
  lookup_lt : ∀ key id, table.lookup? key = some id → id < table.objects.length
  /-- No two keys share an object. -/
  lookup_inj : ∀ key other id, table.lookup? key = some id → table.lookup? other = some id → key = other

variable {timer : Timer} {description : TableDescription} {table : Table}

/-- The new table of a `description` is intact. -/
theorem intact_tableOf (timer : Timer) (description : TableDescription) :
    (Pipeline.tableOf timer description).Intact timer description :=
  ⟨rfl, rfl, rfl, rfl, by simp [Pipeline.tableOf, create], by simp [Pipeline.tableOf, create, lookup?],
    by simp [Pipeline.tableOf, create, lookup?]⟩

/-- The `entry` that an object `id` holds fits the layout. -/
theorem Intact.fits_object (h : table.Intact timer description) {id : EntryId} {entry : Entry}
    (hentry : table.object? id = some entry) : entry.Fits description.layout :=
  h.fits entry (List.mem_of_getElem? hentry)

/-- The `entry` that is found under `key` fits the layout. -/
theorem Intact.fits_found (h : table.Intact timer description) {key : Bytes} {id : EntryId} {entry : Entry}
    (hfound : table.find? key = some (id, entry)) : entry.Fits description.layout :=
  h.fits_object (find?_eq_some_iff.mp hfound).2

/-- A `value` that is written under `key` replaces all that the entry there held. -/
theorem Intact.revise_eq_self (h : table.Intact timer description) (key : Bytes) {value : Bytes}
    {decoded : Entry} (hdecoded : Entry.ofBytes table.layout value = .ok decoded) :
    Entry.revise (table.entryAt? key) decoded = decoded := by
  refine Entry.revise_eq_self (fun entry hentry => ?_) (h.layout_eq ▸ Entry.fits_of_ofBytes hdecoded)
  obtain ⟨id, -, hobject⟩ := Option.bind_eq_some_iff.mp hentry
  exact h.fits_object hobject

/-- `value` is written under `key` exactly if it decodes to an entry, which is then the one under `key`, whether
a new object took it over or an object that was there was rewritten. -/
theorem Intact.update_eq_ok_iff (h : table.Intact timer description) {key value : Bytes} {next : Table} :
    table.update key value = .ok next ↔
      ∃ entry, Entry.ofBytes table.layout value = .ok entry ∧ next = table.write key entry := by
  rw [Table.update_eq_ok_iff]
  refine exists_congr fun entry => and_congr_right fun hentry => ?_
  rw [h.revise_eq_self key hentry]

/-- Setting the `tally` keeps a table intact. -/
theorem Intact.withTally (h : table.Intact timer description) (tally : Tally) :
    ({ table with tally } : Table).Intact timer description :=
  ⟨h.name_eq, h.layout_eq, h.unit_eq, h.timer_eq, h.fits, h.lookup_lt, h.lookup_inj⟩

/-- Rewriting the object `id` by an `entry` that fits keeps a table intact. -/
theorem Intact.putObject (h : table.Intact timer description) (id : EntryId) {entry : Entry}
    (hentry : entry.Fits description.layout) : (table.putObject id entry).Intact timer description := by
  refine ⟨h.name_eq, h.layout_eq, h.unit_eq, h.timer_eq, fun other hother => ?_, fun key found hfound => ?_,
    h.lookup_inj⟩
  · rcases List.mem_or_eq_of_mem_set hother with hold | rfl
    · exact h.fits other hold
    · exact hentry
  · rw [Table.putObject, List.length_set]
    exact h.lookup_lt key found hfound

/-- Writing an `entry` that fits under `key` keeps a table intact. -/
theorem Intact.write (h : table.Intact timer description) (key : Bytes) {entry : Entry}
    (hentry : entry.Fits description.layout) : (table.write key entry).Intact timer description := by
  rw [Table.write]
  split
  next id _ => exact h.putObject id hentry
  next =>
    -- A new object has a number that no key had before.
    have hcases {other : Bytes} {id : EntryId}
        (hid : (table.index.insert key table.objects.length).find? other = some id) :
        (other = key ∧ id = table.objects.length) ∨
          (table.lookup? other = some id ∧ id < table.objects.length) := by
      rw [UnorderedMap.find?_insert] at hid
      split at hid
      next hother => exact .inl ⟨hother, (Option.some.inj hid).symm⟩
      next => exact .inr ⟨hid, h.lookup_lt other id hid⟩
    refine ⟨h.name_eq, h.layout_eq, h.unit_eq, h.timer_eq, fun other hother => ?_, fun other id hid => ?_,
      fun other other' id hid hid' => ?_⟩
    · rcases List.mem_append.mp hother with hold | hlast
      · exact h.fits other hold
      · rwa [List.mem_singleton.mp hlast]
    · rw [List.length_append, List.length_singleton]
      rcases hcases hid with ⟨-, rfl⟩ | ⟨-, hlt⟩
      · exact Nat.lt_succ_self _
      · exact Nat.lt_succ_of_lt hlt
    · rcases hcases hid with ⟨rfl, rfl⟩ | ⟨hother, hlt⟩
      · rcases hcases hid' with ⟨rfl, -⟩ | ⟨-, hlt'⟩
        · rfl
        · exact absurd hlt' (Nat.lt_irrefl _)
      · rcases hcases hid' with ⟨-, heq⟩ | ⟨hother', -⟩
        · exact absurd heq (Nat.ne_of_lt hlt)
        · exact h.lookup_inj other other' id hother hother'

/-- Deleting `key` keeps a table intact. -/
theorem Intact.erase (h : table.Intact timer description) (key : Bytes) :
    ({ table with index := table.index.erase key } : Table).Intact timer description := by
  have hold {other : Bytes} {id : EntryId} (hid : (table.index.erase key).find? other = some id) :
      table.lookup? other = some id := by
    rw [UnorderedMap.find?_erase] at hid
    split at hid
    · cases hid
    · exact hid
  exact ⟨h.name_eq, h.layout_eq, h.unit_eq, h.timer_eq, h.fits,
    fun other id hid => h.lookup_lt other id (hold hid),
    fun other other' id hid hid' => h.lookup_inj other other' id (hold hid) (hold hid')⟩

/-- Every successful `operation` keeps a table intact. -/
theorem Intact.effect (h : table.Intact timer description) {operation : Operation} {answer : Answer}
    {next : Table} (heffect : table.Effect operation answer next) : next.Intact timer description := by
  cases heffect with
  | serve _ hserve =>
    obtain ⟨id, entry, record, served, hfound, hslot, hrecord, rfl⟩ := serve_eq_ok_iff.mp hserve
    have hentry := h.fits_found hfound
    have hold := hentry.withinCapacity record (List.mem_of_getElem? hslot)
    exact (h.putObject id (hentry.putMeter _ (Record.withinCapacity_of_serve hold hrecord))).withTally _
  | update hupdate =>
    obtain ⟨entry, hentry, rfl⟩ := h.update_eq_ok_iff.mp hupdate
    exact h.write _ (h.layout_eq ▸ Entry.fits_of_ofBytes hentry)
  | delete hdelete =>
    obtain ⟨-, -, rfl⟩ := delete_eq_ok_iff.mp hdelete
    exact h.erase _
  | hit hhit =>
    obtain ⟨id, entry, hfound, -, rfl⟩ := hit_eq_ok_iff.mp hhit
    exact (h.putObject id (((h.fits_found hfound).count _).markAll _ _)).withTally _
  | countHeld id length =>
    -- The object may have lost its key, but every object fits, with a key or without.
    rw [countObject]
    split
    next entry hentry => exact h.putObject id ((h.fits_object hentry).count length)
    next => exact h
  | markHeld hmark =>
    obtain ⟨entry, record, hentry, -, -, rfl⟩ := markObjectFrom?_eq_some_iff.mp hmark
    exact h.putObject _ ((h.fits_object hentry).putMeter _ (Record.withinCapacity_markFrom _ _ _ _))
  | markAbsent => exact h
  | loadTally tally => exact h.withTally tally
  | view => exact h

/-- Every `operation` keeps a table intact. -/
theorem Intact.perform (h : table.Intact timer description) (operation : Operation) :
    (table.perform operation).2.Intact timer description :=
  perform_preserves h fun _ _ => h.effect

end Table

namespace Pipeline

/-- `pipeline` has a store or table under a name exactly if the `description` has one, and all of them are
intact. -/
structure Intact (description : Description) (pipeline : Pipeline) : Prop where
  /-- The stores are those that are described. -/
  stores : ∀ name, Option.Rel (Store.Intact description.timer) (description.store? name)
    (pipeline.stores.find? name)
  /-- The tables are those that are described. -/
  tables : ∀ name, Option.Rel (Table.Intact description.timer) (description.table? name)
    (pipeline.tables.find? name)

variable {description : Description} {pipeline : Pipeline}

/-- The new pipeline of a `description` is intact. -/
theorem intact_of_ofDescription {start : Pipeline} (h : ofDescription description = .ok start) :
    start.Intact description := by
  refine ⟨fun name => ?_, fun name => ?_⟩
  · rw [find?_stores_of_ofDescription h]
    cases description.store? name with
    | none => exact .none
    | some store => exact .some (Store.intact_storeOf _ store)
  · rw [find?_tables_of_ofDescription h]
    cases description.table? name with
    | none => exact .none
    | some table => exact .some (Table.intact_tableOf _ table)

/-- Every store of an intact pipeline is described under its `name` and intact. -/
theorem Intact.exists_store (h : pipeline.Intact description) {name : String} {store : Store}
    (hstore : pipeline.stores.find? name = some store) :
    ∃ described, description.store? name = some described ∧ store.Intact description.timer described :=
  rel_some_right_iff.mp (hstore ▸ h.stores name)

/-- Every table of an intact pipeline is described under its `name` and intact. -/
theorem Intact.exists_table (h : pipeline.Intact description) {name : String} {table : Table}
    (htable : pipeline.tables.find? name = some table) :
    ∃ described, description.table? name = some described ∧ table.Intact description.timer described :=
  rel_some_right_iff.mp (htable ▸ h.tables name)

/-- Replacing a `store` by one that is as intact keeps a pipeline intact. -/
theorem Intact.putStore (h : pipeline.Intact description) {name : String} {store next : Store}
    (hstore : pipeline.stores.find? name = some store)
    (hnext : ∀ described, store.Intact description.timer described →
      next.Intact description.timer described) :
    (pipeline.putStore name next).Intact description :=
  ⟨OrderedMap.rel_find?_modify h.stores hstore (fun d _ => hnext d) fun _ _ _ _ => id, h.tables⟩

/-- Replacing a `table` by one that is as intact keeps a pipeline intact. -/
theorem Intact.putTable (h : pipeline.Intact description) {name : String} {table next : Table}
    (htable : pipeline.tables.find? name = some table)
    (hnext : ∀ described, table.Intact description.timer described →
      next.Intact description.timer described) :
    (pipeline.putTable name next).Intact description :=
  ⟨h.stores, OrderedMap.rel_find?_modify h.tables htable (fun d _ => hnext d) fun _ _ _ _ => id⟩

/-- Every `item` of a snapshot that is applied keeps a pipeline intact. -/
theorem Intact.applyItem (h : pipeline.Intact description) {item : SnapshotItem} {next : Pipeline}
    (hitem : pipeline.applyItem item = .ok next) : next.Intact description := by
  -- Each step does to one store or table what an operation can do to it.
  cases item with
  | records name records =>
    obtain ⟨store, hstore, hrest⟩ := bind_eq_ok_iff.mp hitem
    obtain ⟨restored, hrestored, hnext⟩ := bind_eq_ok_iff.mp hrest
    cases hnext
    exact h.putStore (store_eq_ok_iff.mp hstore) fun _ hold => hold.effect (.restore hrestored)
  | table name =>
    obtain ⟨table, -, hnext⟩ := bind_eq_ok_iff.mp hitem
    cases hnext
    exact h
  | entry name entry =>
    obtain ⟨table, htable, hrest⟩ := bind_eq_ok_iff.mp hitem
    obtain ⟨key, -, hrest⟩ := bind_eq_ok_iff.mp hrest
    obtain ⟨value, -, hrest⟩ := bind_eq_ok_iff.mp hrest
    obtain ⟨updated, hupdated, hnext⟩ := bind_eq_ok_iff.mp hrest
    cases hnext
    exact h.putTable (table_eq_ok_iff.mp htable) fun _ hold => hold.effect (.update hupdated)
  | tally name tally =>
    rw [Pipeline.applyItem] at hitem
    split at hitem
    next store hstore =>
      cases hitem
      exact h.putStore hstore fun _ hold => hold.effect (.loadTally tally)
    next table _ htable =>
      cases hitem
      exact h.putTable htable fun _ hold => hold.effect (.loadTally tally)
    next => cases hitem

/-- However far the `items` of a snapshot get, the pipeline stays intact. -/
theorem Intact.applyItems (h : pipeline.Intact description) (items : List SnapshotItem) :
    (pipeline.applyItems items).1.Intact description := by
  -- The first refused item ends the work with the pipeline that was reached, which is intact by induction.
  induction items generalizing pipeline with
  | nil => exact h
  | cons item rest ih =>
    rw [Pipeline.applyItems]
    split
    next applied happlied => exact ih (h.applyItem happlied)
    next => exact h

/-- However far `snapshot` is put back, the pipeline stays intact. -/
theorem Intact.restore (h : pipeline.Intact description) (snapshot : Snapshot) :
    (pipeline.restore snapshot).1.Intact description := by
  rw [restore_eq_applyItems]
  exact h.applyItems snapshot.items

/-- Every `operation` keeps a pipeline intact, whether or not it succeeds. -/
theorem Intact.perform (h : pipeline.Intact description) (operation : Operation) :
    (pipeline.perform operation).2.Intact description := by
  refine perform_preserves h (fun name request store _ hstore => ?_) (fun name request table _ htable => ?_)
    fun snapshot _ => h.restore snapshot
  · exact h.putStore hstore fun _ hold => hold.perform request
  · exact h.putTable htable fun _ hold => hold.perform request

/-- Every run of `operations` keeps a pipeline intact. -/
theorem Intact.run (h : pipeline.Intact description) (operations : List Operation) :
    (pipeline.run operations).2.Intact description :=
  runWith_preserves (P := Intact description) (fun _ operation hstate => Intact.perform hstate operation) h
    operations

/-- Whatever `operations` are asked of a pipeline, it keeps to its `description`. A name stands for a store or a
table exactly if the description says so, every store has its described number of meters, every entry object has
the parts that its layout asks for, and no bucket of a store or of an entry is overfull. -/
theorem intact_run (description : Description) (start : Pipeline)
    (hstart : ofDescription description = .ok start) (operations : List Operation) :
    (start.run operations).2.Intact description ∧
      (start.run operations).2.stores.keys = start.stores.keys ∧
      (start.run operations).2.tables.keys = start.tables.keys := by
  have hnew := intact_of_ofDescription hstart
  have hreached := hnew.run operations
  exact ⟨hreached, OrderedMap.keys_eq_of_rel hreached.stores hnew.stores,
    OrderedMap.keys_eq_of_rel hreached.tables hnew.tables⟩

/-- A run that deletes a key and goes on with its object, tries to write an overfull raw record and puts back
a snapshot that is refused midway. -/
theorem intact_run_refused_restore :
    let operations : List Operation :=
      [.store "m" (.configure 1 { peak := ⟨250000, 2500⟩, committed := ⟨100000, 1500⟩ }),
        .store "m" (.execute 1 1500 10), .store "m" (.markFrom 0 .yellow 5 3),
        .store "m" (.writeValue [1, 0, 0, 0] (Bytes.zeros 48 ++ [9] ++ Bytes.zeros 39)),
        .table "t" (.update [7] (Bytes.zeros 104)), .table "t" (.hit [7] 60 5), .table "t" (.delete [7]),
        .table "t" (.countHeld 0 60), .table "t" (.markHeld 0 0 .green 60 9),
        .restore { stores := .ofList [("m", [{}, {}])], tables := .ofList [("t", [⟨"07", "zz"⟩])] }]
    ∃ start, ofDescription .storeAndTable = .ok start ∧
      (start.run operations).2.Intact .storeAndTable ∧
      (start.run operations).2.stores.keys = start.stores.keys ∧
      (start.run operations).2.tables.keys = start.tables.keys :=
  ⟨_, rfl, intact_run .storeAndTable _ rfl _⟩

end Pipeline

end TrafficMeter
