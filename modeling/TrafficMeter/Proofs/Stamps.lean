import TrafficMeter.Proofs.Hex
import TrafficMeter.Proofs.Restore

/-!
# How late stamps can be

A meter is stamped with the time up to which it was refilled. New meters are stamped with zero, and marking a
packet moves a stamp at most to the time of the packet (`Bucket.stamp_refill_le`). So no meter is stamped later
than a limit (`StampedBy`) if no operation brings a later time, be it the time of a packet or a stamp in a raw
record, a raw value or a snapshot. What a snapshot brings is read off its records (`Snapshot.StoresStampedBy`)
and, in the layout of the description, off its values (`Snapshot.TablesStampedBy`).

## Main results

* `Store.StampedBy.perform`, `Table.StampedBy.perform`: one operation on a store or a table;
* `Pipeline.StoresStampedBy.perform`, `Pipeline.TablesStampedBy.perform`: one operation on a pipeline.
-/

namespace TrafficMeter

variable {limit : UInt64}

theorem forall_mem_set {α : Type} {P : α → Prop} {values : List α} {place : Nat} {value : α}
    (h : ∀ other ∈ values, P other) (hvalue : P value) : ∀ other ∈ values.set place value, P other := by
  intro other hother
  rcases List.mem_or_eq_of_mem_set hother with hold | rfl
  · exact h other hold
  · exact hvalue

/-! ### Meters -/

/-- A bucket is not refilled past the time `now` of a packet. -/
theorem Bucket.stamp_refill_le {bucket : Bucket} {now : UInt64} (h : bucket.stamp ≤ limit)
    (hnow : now ≤ limit) : (bucket.refill now).stamp ≤ limit := by
  rw [UInt64.le_iff_toNat_le] at h hnow ⊢
  -- Whole periods are added to the stamp, as many as fit in the time since.
  have hticks : bucket.ticks now * bucket.period.toNat ≤ now.toNat - bucket.stamp.toNat :=
    Nat.div_mul_le_self _ _
  rw [toNat_stamp_refill]
  omega

namespace Record

variable {record : Record}

/-- The stamps of both buckets are at most `limit`. -/
def StampedBy (limit : UInt64) (record : Record) : Prop :=
  ∀ tier, (record.bucket tier).stamp ≤ limit

theorem StampedBy.mono (h : record.StampedBy limit) {later : UInt64} (hlater : limit ≤ later) :
    record.StampedBy later :=
  fun tier => UInt64.le_trans (h tier) hlater

theorem stampedBy_default : ({} : Record).StampedBy limit := by
  intro tier
  cases tier <;> exact UInt64.zero_le

theorem StampedBy.markFrom (h : record.StampedBy limit) {now : UInt64} (hnow : now ≤ limit) (incoming : Color)
    (size : UInt64) : (record.markFrom incoming size now).2.StampedBy limit := by
  intro tier
  have hbucket := record.bucket_receive ⟨incoming, size, now⟩ tier
  rw [receive] at hbucket
  rw [hbucket]
  exact Bucket.stamp_refill_le (h tier) hnow

theorem stampedBy_of_toRecord {timer : Timer} {profile : Profile} (h : profile.toRecord timer = .ok record) :
    record.StampedBy limit := by
  obtain ⟨hpeak, hcommitted⟩ := Profile.toRecord_eq_ok_iff.mp h
  obtain ⟨-, -, hpeakStamp, -⟩ := Limit.toBucket_eq_ok hpeak
  obtain ⟨-, -, hcommittedStamp, -⟩ := Limit.toBucket_eq_ok hcommitted
  intro tier
  cases tier with
  | peak => exact hpeakStamp ▸ UInt64.zero_le
  | committed => exact hcommittedStamp ▸ UInt64.zero_le

end Record

/-- A request brings no time after `limit`. -/
def Request.StampedBy (limit : UInt64) : Request → Prop
  | .execute _ _ now => now ≤ limit
  | .mark _ _ now => now ≤ limit
  | .writeBytes value => ∀ record, Record.ofBytes value = .ok record → record.StampedBy limit
  | _ => True

theorem Record.StampedBy.serve {record served : Record} {unit : MeasureUnit} {timer : Timer} {request : Request}
    {answer : Answer} (h : record.StampedBy limit) (hrequest : request.StampedBy limit)
    (hserve : record.serve unit timer request = .ok (answer, served)) : served.StampedBy limit := by
  -- A new or reset meter has no stamp, and one that is written brings its own.
  cases request with
  | execute incoming length now =>
    cases hserve
    exact h.markFrom hrequest incoming _
  | mark incoming size now =>
    cases hserve
    exact h.markFrom hrequest incoming size
  | configure profile =>
    obtain ⟨configured, hconfigured, hserved⟩ := map_eq_ok_iff.mp hserve
    cases hserved
    exact stampedBy_of_toRecord hconfigured
  | reset =>
    cases hserve
    exact stampedBy_default
  | writeBytes value =>
    obtain ⟨written, hwritten, hserved⟩ := map_eq_ok_iff.mp hserve
    cases hserved
    exact hrequest _ hwritten
  | read | readBytes =>
    cases hserve
    exact h

/-! ### Stores -/

namespace Store

variable {store : Store} {operation : Operation}

/-- No meter of `store` is stamped later than `limit`. -/
def StampedBy (limit : UInt64) (store : Store) : Prop :=
  ∀ record ∈ store.records, record.StampedBy limit

/-- An operation brings no time after `limit`. -/
def Operation.StampedBy (limit : UInt64) : Operation → Prop
  | .restore restored => ∀ record ∈ restored, record.StampedBy limit
  | operation => ∀ target request, operation.request? = some (target, request) → request.StampedBy limit

theorem StampedBy.restore {records : List Record} {next : Store}
    (hrecords : ∀ record ∈ records, record.StampedBy limit) (hrestore : store.restore records = .ok next) :
    next.StampedBy limit := by
  obtain ⟨-, -, rfl⟩ := restore_eq_ok_iff.mp hrestore
  exact hrecords

theorem StampedBy.perform (h : store.StampedBy limit) (hoperation : operation.StampedBy limit) :
    (store.perform operation).2.StampedBy limit := by
  refine perform_preserves h fun answer next heffect => ?_
  cases heffect with
  | @serve _ index request _ _ hrequest hserve =>
    obtain ⟨record, served, hread, hserved, rfl⟩ := serve_eq_ok_iff.mp hserve
    have hrecord := h record (List.mem_of_getElem? (read_eq_ok_iff.mp hread))
    -- Only the restoring of records brings stamps in another way than by a request.
    have hstamped : request.StampedBy limit := by
      cases operation with
      | restore records => cases hrequest
      | _ => exact hoperation _ _ hrequest
    exact forall_mem_set h (hrecord.serve hstamped hserved)
  | restore hrestore => exact StampedBy.restore hoperation hrestore
  | loadTally | view => exact h

end Store

/-! ### Tables -/

/-- No meter of `entry` is stamped later than `limit`. -/
def Entry.StampedBy (limit : UInt64) (entry : Entry) : Prop :=
  ∀ record ∈ entry.meters, record.StampedBy limit

theorem Entry.StampedBy.count {entry : Entry} (h : entry.StampedBy limit) (length : UInt32) :
    (entry.count length).StampedBy limit := h

theorem Entry.StampedBy.putMeter {entry : Entry} (h : entry.StampedBy limit) (slot : Nat) {record : Record}
    (hrecord : record.StampedBy limit) : (entry.putMeter slot record).StampedBy limit :=
  forall_mem_set h hrecord

theorem Entry.StampedBy.markAll {entry : Entry} (h : entry.StampedBy limit) (size : UInt64) {now : UInt64}
    (hnow : now ≤ limit) : (entry.markAll size now).2.StampedBy limit := by
  intro record hrecord
  simp only [Entry.markAll, List.map_map, List.mem_map, Function.comp_apply] at hrecord
  obtain ⟨old, hold, rfl⟩ := hrecord
  exact (h old hold).markFrom hnow .green size

namespace Table

variable {table : Table} {operation : Operation}

/-- No meter of an object of `table` is stamped later than `limit`. -/
def StampedBy (limit : UInt64) (table : Table) : Prop :=
  ∀ entry ∈ table.objects, entry.StampedBy limit

/-- An operation on a table with this `layout` brings no time after `limit`. -/
def Operation.StampedBy (layout : Layout) (limit : UInt64) : Operation → Prop
  | .update _ value => ∀ written, Entry.ofBytes layout value = .ok written → written.StampedBy limit
  | .hit _ _ now => now ≤ limit
  | .markHeld _ _ _ _ now => now ≤ limit
  | operation => ∀ key slot request, operation.request? = some (key, slot, request) → request.StampedBy limit

theorem StampedBy.putObject (h : table.StampedBy limit) (id : EntryId) {entry : Entry}
    (hentry : entry.StampedBy limit) : (table.putObject id entry).StampedBy limit :=
  forall_mem_set h hentry

theorem StampedBy.write (h : table.StampedBy limit) (key : Bytes) {entry : Entry}
    (hentry : entry.StampedBy limit) : (table.write key entry).StampedBy limit := by
  rw [Table.write]
  split
  · exact h.putObject _ hentry
  · intro other hother
    rcases List.mem_append.mp hother with hold | hnew
    · exact h other hold
    · exact List.mem_singleton.mp hnew ▸ hentry

theorem StampedBy.of_object? (h : table.StampedBy limit) {id : EntryId} {entry : Entry}
    (hid : table.object? id = some entry) : entry.StampedBy limit :=
  h entry (List.mem_of_getElem? hid)

theorem StampedBy.of_stored? (h : table.StampedBy limit) {key : Bytes} {entry : Entry}
    (hstored : table.stored? key = some entry) : entry.StampedBy limit := by
  obtain ⟨held, hheld, rfl⟩ := Option.map_eq_some_iff.mp hstored
  obtain ⟨id, -, hid⟩ := Option.bind_eq_some_iff.mp hheld
  rw [Entry.StampedBy, Entry.meters_stored]
  exact h.of_object? hid

theorem StampedBy.perform (h : table.StampedBy limit) {timer : Timer} {description : TableDescription}
    (hintact : table.Intact timer description) (hoperation : operation.StampedBy table.layout limit) :
    (table.perform operation).2.StampedBy limit := by
  refine perform_preserves h fun answer next heffect => ?_
  -- Every meter that is written was there before, was marked at the time of the operation, or came with it.
  cases heffect with
  | @serve _ key slot request _ _ hrequest hserve =>
    obtain ⟨id, entry, record, served, hfound, hslot, hserved, rfl⟩ := serve_eq_ok_iff.mp hserve
    have hentry := h.of_object? (find?_eq_some_iff.mp hfound).2
    have hstamped : request.StampedBy limit := by
      cases operation with
      | update | hit | markHeld => cases hrequest
      | _ => exact hoperation _ _ _ hrequest
    have hrecord := hentry record (List.mem_of_getElem? hslot)
    exact h.putObject id (hentry.putMeter slot (hrecord.serve hstamped hserved))
  | update hupdate =>
    obtain ⟨entry, hentry, rfl⟩ := hintact.update_eq_ok_iff.mp hupdate
    exact h.write _ (hoperation entry hentry)
  | delete hdelete =>
    obtain ⟨_, -, rfl⟩ := delete_eq_ok_iff.mp hdelete
    exact h
  | @hit _ length _ _ _ hhit =>
    obtain ⟨id, entry, hfound, -, rfl⟩ := hit_eq_ok_iff.mp hhit
    have hentry := h.of_object? (find?_eq_some_iff.mp hfound).2
    exact h.putObject id ((hentry.count length).markAll _ hoperation)
  | countHeld id length =>
    rw [countObject]
    split
    next entry hentry => exact h.putObject id ((h.of_object? hentry).count length)
    next => exact h
  | markHeld hmark =>
    obtain ⟨entry, record, hentry, hslot, -, rfl⟩ := markObjectFrom?_eq_some_iff.mp hmark
    have hold := h.of_object? hentry
    have hrecord := hold record (List.mem_of_getElem? hslot)
    exact h.putObject _ (hold.putMeter _ (hrecord.markFrom hoperation _ _))
  | markAbsent | loadTally | view => exact h

end Table

/-! ### Snapshots and pipelines -/

/-- The raw value of `saved` can be read, and none of its meters is stamped later than `limit`. -/
def SavedEntry.StampedBy (layout : Layout) (limit : UInt64) (saved : SavedEntry) : Prop :=
  ∃ value entry, Hex.parse saved.value = .ok value ∧ Entry.ofBytes layout value = .ok entry ∧
    entry.StampedBy limit

namespace Snapshot

/-- No record of a store in `snapshot` is stamped later than `limit`. -/
def StoresStampedBy (limit : UInt64) (snapshot : Snapshot) : Prop :=
  ∀ name records, snapshot.stores.find? name = some records → ∀ record ∈ records, record.StampedBy limit

/-- The tables in `snapshot` are described, and no meter of their entries is stamped later than `limit`. -/
def TablesStampedBy (description : Description) (limit : UInt64) (snapshot : Snapshot) : Prop :=
  ∀ name entries, snapshot.tables.find? name = some entries →
    ∃ described, description.table? name = some described ∧
      ∀ saved ∈ entries, saved.StampedBy described.layout limit

end Snapshot

namespace Pipeline

variable {description : Description} {pipeline : Pipeline}

/-- No meter of a store of `pipeline` is stamped later than `limit`. -/
def StoresStampedBy (limit : UInt64) (pipeline : Pipeline) : Prop :=
  ∀ name store, pipeline.stores.find? name = some store → store.StampedBy limit

/-- No meter of a table of `pipeline` is stamped later than `limit`. -/
def TablesStampedBy (limit : UInt64) (pipeline : Pipeline) : Prop :=
  ∀ name table, pipeline.tables.find? name = some table → table.StampedBy limit

theorem storesStampedBy_of_ofDescription (h : ofDescription description = .ok pipeline) :
    pipeline.StoresStampedBy limit := by
  intro name store hstore
  rw [find?_stores_of_ofDescription h] at hstore
  obtain ⟨described, -, rfl⟩ := Option.map_eq_some_iff.mp hstore
  intro record hrecord
  rw [List.eq_of_mem_replicate hrecord]
  exact Record.stampedBy_default

theorem tablesStampedBy_of_ofDescription (h : ofDescription description = .ok pipeline) :
    pipeline.TablesStampedBy limit := by
  intro name table htable
  rw [find?_tables_of_ofDescription h] at htable
  obtain ⟨described, -, rfl⟩ := Option.map_eq_some_iff.mp htable
  intro entry hentry
  cases hentry

theorem StoresStampedBy.mono (h : pipeline.StoresStampedBy limit) {later : UInt64} (hlater : limit ≤ later) :
    pipeline.StoresStampedBy later :=
  fun name store hstore record hrecord => (h name store hstore record hrecord).mono hlater

theorem TablesStampedBy.mono (h : pipeline.TablesStampedBy limit) {later : UInt64} (hlater : limit ≤ later) :
    pipeline.TablesStampedBy later :=
  fun name table htable entry hentry record hrecord =>
    (h name table htable entry hentry record hrecord).mono hlater

theorem StoresStampedBy.putStore (h : pipeline.StoresStampedBy limit) (name : String) {store : Store}
    (hstore : store.StampedBy limit) : (pipeline.putStore name store).StoresStampedBy limit := by
  intro other found hfound
  rw [Pipeline.putStore, OrderedMap.find?_modify] at hfound
  split at hfound
  · obtain ⟨_, -, rfl⟩ := Option.map_eq_some_iff.mp hfound
    exact hstore
  · exact h other found hfound

theorem TablesStampedBy.putTable (h : pipeline.TablesStampedBy limit) (name : String) {table : Table}
    (htable : table.StampedBy limit) : (pipeline.putTable name table).TablesStampedBy limit := by
  intro other found hfound
  rw [Pipeline.putTable, OrderedMap.find?_modify] at hfound
  split at hfound
  · obtain ⟨_, -, rfl⟩ := Option.map_eq_some_iff.mp hfound
    exact htable
  · exact h other found hfound

/-- What each of `items` preserves where it is applied is preserved when all of them are applied in turn. -/
theorem applyItems_preserves {P : Pipeline → Prop} {items : List SnapshotItem} (h : P pipeline)
    (hitem : ∀ item ∈ items, ∀ before after, P before → before.applyItem item = .ok after → P after) :
    P (pipeline.applyItems items).1 := by
  induction items generalizing pipeline with
  | nil => exact h
  | cons item rest ih =>
    rw [List.forall_mem_cons] at hitem
    rw [applyItems]
    split
    next applied happlied => exact ih (hitem.1 pipeline applied h happlied) hitem.2
    next => exact h

theorem StoresStampedBy.restore (h : pipeline.StoresStampedBy limit) {snapshot : Snapshot}
    (hsnapshot : snapshot.StoresStampedBy limit) : (pipeline.restore snapshot).1.StoresStampedBy limit := by
  rw [restore_eq_applyItems]
  refine applyItems_preserves h fun item hmem before after hbefore happlied => ?_
  cases item with
  | records name records =>
    obtain ⟨store, -, hrest⟩ := bind_eq_ok_iff.mp happlied
    obtain ⟨restored, hrestored, hafter⟩ := bind_eq_ok_iff.mp hrest
    cases hafter
    -- The records of a snapshot take the place of all that the store had.
    have hrecords := hsnapshot name records (Snapshot.records_mem_items_iff.mp hmem)
    exact hbefore.putStore name (Store.StampedBy.restore hrecords hrestored)
  | table name =>
    obtain ⟨_, -, hafter⟩ := bind_eq_ok_iff.mp happlied
    cases hafter
    exact hbefore
  | entry name saved =>
    obtain ⟨_, -, hrest⟩ := bind_eq_ok_iff.mp happlied
    obtain ⟨_, -, hrest⟩ := bind_eq_ok_iff.mp hrest
    obtain ⟨_, -, hrest⟩ := bind_eq_ok_iff.mp hrest
    obtain ⟨_, -, hafter⟩ := bind_eq_ok_iff.mp hrest
    cases hafter
    exact hbefore
  | tally name tally =>
    rw [applyItem] at happlied
    split at happlied
    next store hstore =>
      cases happlied
      exact hbefore.putStore name (hbefore name store hstore)
    next =>
      cases happlied
      exact hbefore
    next => cases happlied

theorem TablesStampedBy.restore (h : pipeline.TablesStampedBy limit) (hintact : pipeline.Intact description)
    {snapshot : Snapshot} (hsnapshot : snapshot.TablesStampedBy description limit) :
    (pipeline.restore snapshot).1.TablesStampedBy limit := by
  -- The layouts of the tables are those of the description, since the pipeline stays intact.
  suffices hboth : (pipeline.restore snapshot).1.Intact description ∧
      (pipeline.restore snapshot).1.TablesStampedBy limit from hboth.2
  rw [restore_eq_applyItems]
  refine applyItems_preserves
    (P := fun pipeline => pipeline.Intact description ∧ pipeline.TablesStampedBy limit)
    ⟨hintact, h⟩ fun item hmem before after hbefore happlied => ⟨hbefore.1.applyItem happlied, ?_⟩
  obtain ⟨hbefore, hstamped⟩ := hbefore
  cases item with
  | records name records =>
    obtain ⟨_, -, hrest⟩ := bind_eq_ok_iff.mp happlied
    obtain ⟨_, -, hafter⟩ := bind_eq_ok_iff.mp hrest
    cases hafter
    exact hstamped
  | table name =>
    obtain ⟨_, -, hafter⟩ := bind_eq_ok_iff.mp happlied
    cases hafter
    exact hstamped
  | entry name saved =>
    obtain ⟨entries, hentries, hsaved⟩ := Snapshot.entry_mem_items_iff.mp hmem
    obtain ⟨described, hdescribed, hentriesStamped⟩ := hsnapshot name entries hentries
    obtain ⟨value, written, hvalue, hwritten, hwrittenStamped⟩ := hentriesStamped saved hsaved
    obtain ⟨table, htable, hrest⟩ := bind_eq_ok_iff.mp happlied
    obtain ⟨key, -, hrest⟩ := bind_eq_ok_iff.mp hrest
    obtain ⟨_, hparsed, hrest⟩ := bind_eq_ok_iff.mp hrest
    obtain ⟨updated, hupdated, hafter⟩ := bind_eq_ok_iff.mp hrest
    cases hafter
    rw [hvalue] at hparsed
    cases hparsed
    rw [table_eq_ok_iff] at htable
    -- The value is written in the layout in which the snapshot was read.
    obtain ⟨described', hdescribed', htableIntact⟩ := hbefore.exists_table htable
    cases hdescribed.symm.trans hdescribed'
    obtain ⟨entry, hentry, rfl⟩ := htableIntact.update_eq_ok_iff.mp hupdated
    rw [htableIntact.layout_eq, hwritten] at hentry
    cases hentry
    exact hstamped.putTable name ((hstamped name table htable).write key hwrittenStamped)
  | tally name tally =>
    rw [applyItem] at happlied
    split at happlied
    next =>
      cases happlied
      exact hstamped
    next table _ htable =>
      cases happlied
      exact hstamped.putTable name (hstamped name table htable)
    next => cases happlied

/-- An operation brings no time after `limit` to the stores. -/
def Operation.StoresStampedBy (limit : UInt64) : Operation → Prop
  | .store _ operation => operation.StampedBy limit
  | .restore restored => restored.StoresStampedBy limit
  | _ => True

/-- An operation brings no time after `limit` to the tables of `description`. -/
def Operation.TablesStampedBy (description : Description) (limit : UInt64) : Operation → Prop
  | .table name operation => ∀ described, description.table? name = some described →
      operation.StampedBy described.layout limit
  | .restore restored => restored.TablesStampedBy description limit
  | _ => True

theorem StoresStampedBy.perform (h : pipeline.StoresStampedBy limit) {operation : Operation}
    (hoperation : operation.StoresStampedBy limit) : (pipeline.perform operation).2.StoresStampedBy limit := by
  refine perform_preserves h (fun name request store heq hstore => ?_) (fun _ _ _ _ _ => h)
    fun snapshot heq => ?_
  · subst heq
    exact h.putStore name ((h name store hstore).perform hoperation)
  · subst heq
    exact h.restore hoperation

theorem TablesStampedBy.perform (h : pipeline.TablesStampedBy limit) (hintact : pipeline.Intact description)
    {operation : Operation} (hoperation : operation.TablesStampedBy description limit) :
    (pipeline.perform operation).2.TablesStampedBy limit := by
  refine perform_preserves h (fun _ _ _ _ _ => h) (fun name request table heq htable => ?_)
    fun snapshot heq => ?_
  · subst heq
    obtain ⟨described, hdescribed, htableIntact⟩ := hintact.exists_table htable
    have hstamped := hoperation described hdescribed
    rw [← htableIntact.layout_eq] at hstamped
    exact h.putTable name ((h name table htable).perform htableIntact hstamped)
  · subst heq
    exact h.restore hintact hoperation

theorem StoresStampedBy.snapshot (h : pipeline.StoresStampedBy limit) :
    pipeline.snapshot.StoresStampedBy limit := by
  intro name records hrecords
  have hfind : pipeline.snapshot.stores.find? name = (pipeline.stores.find? name).map Store.records :=
    pipeline.stores.find?_mapValues _ name
  rw [hfind] at hrecords
  obtain ⟨store, hstore, rfl⟩ := Option.map_eq_some_iff.mp hrecords
  exact h name store hstore

theorem TablesStampedBy.snapshot (h : pipeline.TablesStampedBy limit) (hintact : pipeline.Intact description) :
    pipeline.snapshot.TablesStampedBy description limit := by
  intro name entries hentries
  have hfind : pipeline.snapshot.tables.find? name = (pipeline.tables.find? name).map _ :=
    pipeline.tables.find?_mapValues _ name
  obtain ⟨table, htable, -⟩ := Option.map_eq_some_iff.mp (hfind.symm.trans hentries)
  obtain ⟨described, hdescribed, htableIntact⟩ := hintact.exists_table htable
  refine ⟨described, hdescribed, fun saved hsaved => ?_⟩
  -- A saved value is the one of an entry with its counter cut to its kind, which has the same meters.
  have hitem := Snapshot.entry_mem_items_iff.mpr ⟨entries, hentries, hsaved⟩
  obtain ⟨found, key, entry, hfound, hstored, rfl⟩ := entry_mem_items_iff.mp hitem
  cases htable.symm.trans hfound
  have hread := (htableIntact.ofBytes_toBytes hstored).1
  rw [← htableIntact.layout_eq]
  exact ⟨_, entry, Hex.parse_format _, hread, (h name table htable).of_stored? hstored⟩

end Pipeline

end TrafficMeter
