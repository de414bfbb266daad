import TrafficMeter.Proofs.Invariant

/-!
# Pipelines that cannot be told apart

Two tables are similar if they differ only in the numbers of their objects, in objects without a key and in
the halves of counters that their layout does not store. Operations that work by key cannot tell similar
tables apart: they answer the same, as far as it is stored, and leave similar tables
(`Table.Similar.attempt`). The same holds for pipelines with equal stores and similar tables, over whole
runs (`Pipeline.Similar.run`).

Every change of an entry that is found by its key is a `write` under that key, so one lemma about `write`
covers them all (`Table.Similar.write`).
-/

namespace TrafficMeter

namespace Entry

/-- Replacing the meter in `slot` does not matter to what is stored of the counter. -/
theorem stored_putMeter (entry : Entry) (layout : Layout) (slot : Nat) (record : Record) :
    (entry.putMeter slot record).stored layout = (entry.stored layout).putMeter slot record := by
  cases h : layout.counter <;> simp [stored, putMeter, h]

/-- What is stored of `entry` after a packet was counted depends only on what was stored before. -/
theorem stored_count (entry : Entry) (layout : Layout) (length : UInt32) :
    (entry.count length).stored layout = ((entry.stored layout).count length).stored layout := by
  cases h : layout.counter with
  | none => simp [stored, h]
  | some kind =>
    cases kind <;> cases hcounter : entry.counter <;>
      simp [stored, count, Counter.add, Counter.stored, h, hcounter]

/-- Marks do not matter to what is stored of the counter. -/
theorem stored_markAll (entry : Entry) (layout : Layout) (size now : UInt64) :
    (entry.markAll size now).2.stored layout = ((entry.stored layout).markAll size now).2 := by
  cases h : layout.counter <;> simp [stored, markAll, h]

end Entry

/-- An answer without the halves of counters that are not stored. -/
def Answer.stored : Answer → Answer
  | .entry layout found => .entry layout (found.stored layout)
  | answer => answer

/-- Two outcomes are the same error, or results that are related by `R`. -/
inductive Agree {α : Type} (R : α → α → Prop) : Except Error α → Except Error α → Prop
  /-- Both succeed. -/
  | ok {result result' : α} (hresult : R result result') : Agree R (.ok result) (.ok result')
  /-- Both fail. -/
  | error (error : Error) : Agree R (.error error) (.error error)

/-- Every `outcome` agrees with itself if every result is related to itself. -/
theorem Agree.of_refl {α : Type} {R : α → α → Prop} (h : ∀ result, R result result) (outcome : Except Error α) :
    Agree R outcome outcome := by
  cases outcome with
  | ok result => exact .ok (h result)
  | error error => exact .error error

/-- Every `outcome` agrees with itself. -/
theorem Agree.refl {α : Type} (outcome : Except Error α) : Agree Eq outcome outcome :=
  .of_refl (fun _ => rfl) outcome

/-- If `first` agrees with `second` and `second` with `third`, then `first` agrees with `third`. -/
theorem Agree.trans {α : Type} {R S T : α → α → Prop} {first second third : Except Error α}
    (hfirst : Agree R first second) (hsecond : Agree S second third)
    (h : ∀ a b c, R a b → S b c → T a c) : Agree T first third := by
  cases hfirst with
  | ok hresult =>
    cases hsecond with
    | ok hresult' => exact .ok (h _ _ _ hresult hresult')
  | error error =>
    cases hsecond with
    | error => exact .error error

/-- If two outcomes agree, then so does what comes next, if it does after all related results. -/
theorem Agree.bind {α β : Type} {R : α → α → Prop} {S : β → β → Prop} {first first' : Except Error α}
    (hfirst : Agree R first first') {next next' : α → Except Error β}
    (hnext : ∀ a a', R a a' → Agree S (next a) (next' a')) : Agree S (first >>= next) (first' >>= next') := by
  cases hfirst with
  | ok hresult => exact hnext _ _ hresult
  | error error => exact .error error

/-- Two answers are the same, as far as they are stored, and the states that come with them are related by `R`.
-/
def Alike {σ : Type} (R : σ → σ → Prop) (result result' : Answer × σ) : Prop :=
  result.1.stored = result'.1.stored ∧ R result.2 result'.2

/-- Outcomes that agree are settled alike. -/
theorem Agree.settle {σ : Type} {R : σ → σ → Prop} {left right : σ} (h : R left right)
    {outcome outcome' : Except Error (Answer × σ)} (hagree : Agree (Alike R) outcome outcome') :
    (settle left outcome).1.map Answer.stored = (settle right outcome').1.map Answer.stored ∧
      R (settle left outcome).2 (settle right outcome').2 := by
  cases hagree with
  | ok hresult => exact ⟨congrArg Except.ok hresult.1, hresult.2⟩
  | error error => exact ⟨rfl, h⟩

namespace Table

/-- What is stored of the entry under `key`. -/
def stored? (table : Table) (key : Bytes) : Option Entry :=
  (table.entryAt? key).map (·.stored table.layout)

/-- All of `table` but its entries. -/
def frame (table : Table) : Table :=
  { table with objects := [], index := .empty }

/-- The entry under `key` is the one that `find?` finds. -/
theorem entryAt?_eq_map_find? (table : Table) (key : Bytes) :
    table.entryAt? key = (table.find? key).map Prod.snd := by
  rw [entryAt?, find?]
  cases hid : table.lookup? key with
  | none => rfl
  | some id => cases hentry : table.object? id <;> simp [hentry]

variable {timer : Timer} {description : TableDescription} {table : Table}

/-- Rewriting the object `id` that is found under `key` is a write under `key`. -/
theorem putObject_eq_write {key : Bytes} {id : EntryId} {entry : Entry}
    (h : table.find? key = some (id, entry)) (written : Entry) :
    table.putObject id written = table.write key written := by
  simp [write, (find?_eq_some_iff.mp h).1]

/-- A write under `key` changes nothing but entries. -/
@[simp]
theorem frame_write (key : Bytes) (entry : Entry) : (table.write key entry).frame = table.frame := by
  rw [write]
  split <;> rfl

theorem layout_write (key : Bytes) (entry : Entry) : (table.write key entry).layout = table.layout :=
  (congrArg Table.layout (frame_write key entry) :)

/-- A write under `key` is seen under no `other` key. -/
theorem Intact.entryAt?_write (h : table.Intact timer description) (key : Bytes) (entry : Entry)
    (other : Bytes) :
    (table.write key entry).entryAt? other = if other = key then some entry else table.entryAt? other := by
  rw [Table.write]
  split
  next id hid =>
    have hlt := h.lookup_lt key id hid
    have hlookup : (table.putObject id entry).lookup? other = table.lookup? other := rfl
    rw [Table.entryAt?, hlookup]
    split
    next hother => simp [hother, hid, object?, Table.putObject, hlt]
    next hother =>
      cases hfound : table.lookup? other with
      | none => simp [Table.entryAt?, hfound]
      | some found =>
        -- No two keys share an object, so the object of the other key was not rewritten.
        have hne : id ≠ found := fun heq => hother (h.lookup_inj other key id (heq ▸ hfound) hid)
        simp [Table.entryAt?, hfound, object?, Table.putObject, List.getElem?_set_ne hne]
  next hnew =>
    rw [Table.entryAt?, lookup?, UnorderedMap.find?_insert]
    split
    next => simp [object?]
    next hother =>
      rw [← lookup?]
      cases hfound : table.lookup? other with
      | none => simp [Table.entryAt?, hfound]
      | some found =>
        -- The objects of before keep their numbers when a new one is added at the end.
        have hlt := h.lookup_lt other found hfound
        simp [Table.entryAt?, hfound, object?, List.getElem?_append_left hlt]

/-- After a write under `key`, what is stored of `entry` is stored there, and all else as before. -/
theorem Intact.stored?_write (h : table.Intact timer description) (key : Bytes) (entry : Entry)
    (other : Bytes) :
    (table.write key entry).stored? other =
      if other = key then some (entry.stored table.layout) else table.stored? other := by
  rw [stored?, layout_write, h.entryAt?_write]
  split <;> rfl

/-- After `key` was deleted, nothing is stored under it, and all else as before. -/
theorem stored?_erase (table : Table) (key other : Bytes) :
    ({ table with index := table.index.erase key } : Table).stored? other =
      if other = key then none else table.stored? other := by
  simp only [stored?, entryAt?, lookup?, UnorderedMap.find?_erase]
  split <;> rfl

/-- The key and the raw value of a `binding` of the index, if its object is there. -/
def raw? (table : Table) (binding : Bytes × EntryId) : Option (Bytes × Bytes) :=
  (table.object? binding.2).map fun entry => (binding.1, entry.toBytes table.layout)

/-- In whatever order the index is listed, its raw values are sorted into the dump. -/
theorem dump_eq_sortPairs {listing : Listing Bytes EntryId} (h : table.index = .ofListing listing) :
    table.dump = sortPairs (listing.toList.filterMap table.raw?) := by
  rw [dump, h]
  rfl

/-- A dump lists the raw values of all entries and nothing else. -/
theorem mem_dump_iff {key value : Bytes} :
    (key, value) ∈ table.dump ↔ (table.entryAt? key).map (·.toBytes table.layout) = some value := by
  obtain ⟨listing, hindex⟩ := table.index.exists_listing
  rw [dump_eq_sortPairs hindex, mem_sortPairs_iff, List.mem_filterMap]
  simp only [entryAt?, lookup?, hindex, Option.map_eq_some_iff, Option.bind_eq_some_iff,
    UnorderedMap.find?_ofListing_eq_some_iff]
  constructor
  · rintro ⟨⟨_, id⟩, hbinding, hraw⟩
    obtain ⟨entry, hentry, hpair⟩ := Option.map_eq_some_iff.mp hraw
    cases hpair
    exact ⟨entry, ⟨id, hbinding, hentry⟩, rfl⟩
  · rintro ⟨entry, ⟨id, hbinding, hentry⟩, rfl⟩
    exact ⟨(key, id), hbinding, Option.map_eq_some_iff.mpr ⟨entry, hentry, rfl⟩⟩

theorem map_fst_filterMap_raw? (table : Table) (bindings : List (Bytes × EntryId)) :
    ((bindings.filterMap table.raw?).map Prod.fst).Sublist (bindings.map Prod.fst) := by
  induction bindings with
  | nil => exact .slnil
  | cons binding rest ih =>
    cases hraw : table.raw? binding with
    | none =>
      rw [List.filterMap_cons_none hraw]
      exact ih.cons _
    | some pair =>
      obtain ⟨entry, -, rfl⟩ := Option.map_eq_some_iff.mp hraw
      rw [List.filterMap_cons_some hraw]
      exact ih.cons_cons _

/-- The keys of a dump are strictly increasing, because the index has each key once. -/
theorem increasing_dump (table : Table) : table.dump.Pairwise fun pair other => pair.1 < other.1 := by
  obtain ⟨listing, hindex⟩ := table.index.exists_listing
  rw [dump_eq_sortPairs hindex]
  exact increasing_sortPairs (listing.nodup.sublist (table.map_fst_filterMap_raw? _))

/-- The raw values of the entries, by key. -/
def values (table : Table) : OrderedMap Bytes Bytes :=
  ⟨table.dump, table.increasing_dump⟩

/-- The raw value under `key` is that of what is stored of its entry. -/
theorem find?_values (table : Table) (key : Bytes) :
    table.values.find? key = (table.stored? key).map (·.toBytes table.layout) := by
  refine Option.ext fun value => ?_
  have hstored : (table.stored? key).map (·.toBytes table.layout) =
      (table.entryAt? key).map (·.toBytes table.layout) := by
    simp [stored?, Function.comp_def]
  rw [OrderedMap.find?_eq_some_iff, hstored]
  exact mem_dump_iff

/-- The object that `key` leads to is there. -/
theorem Intact.exists_object (h : table.Intact timer description) {key : Bytes} {id : EntryId}
    (hid : table.lookup? key = some id) : ∃ entry, table.object? id = some entry :=
  ⟨_, List.getElem?_eq_getElem (h.lookup_lt key id hid)⟩

/-- A `key` without an entry leads to no object either, so it cannot be deleted. -/
theorem Intact.delete_of_none (h : table.Intact timer description) {key : Bytes}
    (hnone : table.find? key = none) : table.delete key = .error (.entryNotFound table.name key) := by
  cases hid : table.lookup? key with
  | none => simp [delete_eq, hid]
  | some id =>
    obtain ⟨entry, hentry⟩ := h.exists_object hid
    rw [find?_eq_some_iff.mpr ⟨hid, hentry⟩] at hnone
    cases hnone

/-- `left` and `right` differ only in the numbers of their objects, in objects without a key and in what is not
stored of counters. -/
structure Similar (left right : Table) : Prop where
  /-- All but the entries is the same. -/
  frame_eq : left.frame = right.frame
  /-- The same is stored under each key. -/
  stored_eq : ∀ key, left.stored? key = right.stored? key

variable {described : TableDescription} {left middle right : Table}

theorem Similar.refl (table : Table) : table.Similar table :=
  ⟨rfl, fun _ => rfl⟩

theorem Similar.symm (h : left.Similar right) : right.Similar left :=
  ⟨h.frame_eq.symm, fun key => (h.stored_eq key).symm⟩

theorem Similar.trans (h : left.Similar middle) (h' : middle.Similar right) : left.Similar right :=
  ⟨h.frame_eq.trans h'.frame_eq, fun key => (h.stored_eq key).trans (h'.stored_eq key)⟩

theorem Similar.name_eq (h : left.Similar right) : left.name = right.name :=
  (congrArg Table.name h.frame_eq :)

theorem Similar.layout_eq (h : left.Similar right) : left.layout = right.layout :=
  (congrArg Table.layout h.frame_eq :)

theorem Similar.unit_eq (h : left.Similar right) : left.unit = right.unit :=
  (congrArg Table.unit h.frame_eq :)

theorem Similar.timer_eq (h : left.Similar right) : left.timer = right.timer :=
  (congrArg Table.timer h.frame_eq :)

theorem Similar.tally_eq (h : left.Similar right) : left.tally = right.tally :=
  (congrArg Table.tally h.frame_eq :)

/-- Under `key` there is no entry in either of two similar tables, or the same is stored of both entries. -/
theorem Similar.find?_cases (h : left.Similar right) (key : Bytes) :
    (left.find? key = none ∧ right.find? key = none) ∨
      ∃ id entry id' entry', left.find? key = some (id, entry) ∧ right.find? key = some (id', entry') ∧
        entry.stored left.layout = entry'.stored left.layout := by
  have hstored := h.stored_eq key
  rw [stored?, stored?, entryAt?_eq_map_find?, entryAt?_eq_map_find?, ← h.layout_eq] at hstored
  cases hleft : left.find? key with
  | none => cases hright : right.find? key <;> simp_all
  | some found =>
    cases hright : right.find? key with
    | none => simp_all
    | some found' => exact .inr ⟨_, _, _, _, rfl, rfl, by simpa [hleft, hright] using hstored⟩

/-- Similar tables stay similar when the same `tally` is set in both. -/
theorem Similar.withTally (h : left.Similar right) (tally : Tally) :
    ({ left with tally } : Table).Similar { right with tally } :=
  ⟨congrArg (fun frame : Table => { frame with tally }) h.frame_eq, h.stored_eq⟩

/-- Similar tables stay similar when `key` is deleted from both. -/
theorem Similar.erase (h : left.Similar right) (key : Bytes) :
    ({ left with index := left.index.erase key } : Table).Similar
      { right with index := right.index.erase key } := by
  refine ⟨h.frame_eq, fun other => ?_⟩
  rw [stored?_erase, stored?_erase, h.stored_eq]

/-- Similar tables stay similar when entries of which the same is stored are written under `key`. -/
theorem Similar.write (h : left.Similar right)
    (hleft : left.Intact timer description) (hright : right.Intact timer described) (key : Bytes)
    {entry entry' : Entry} (hentry : entry.stored left.layout = entry'.stored left.layout) :
    (left.write key entry).Similar (right.write key entry') := by
  refine ⟨by rw [frame_write, frame_write, h.frame_eq], fun other => ?_⟩
  rw [hleft.stored?_write, hright.stored?_write, hentry, h.layout_eq, h.stored_eq]

/-- Similar tables have the same dump. -/
theorem Similar.dump_eq (h : left.Similar right) : left.dump = right.dump := by
  have hvalues : left.values = right.values := by
    refine OrderedMap.ext_find? fun key => ?_
    rw [find?_values, find?_values, h.stored_eq, h.layout_eq]
  exact congrArg OrderedMap.toList hvalues

/-- A `request` to a meter cannot tell similar tables apart. -/
theorem Similar.serve (h : left.Similar right)
    (hleft : left.Intact timer description) (hright : right.Intact timer described) (key : Bytes) (slot : Nat)
    (request : Request) :
    Agree (Alike Similar) (left.serve key slot request) (right.serve key slot request) := by
  rcases h.find?_cases key with ⟨hnone, hnone'⟩ | ⟨id, entry, id', entry', hfound, hfound', hentry⟩
  · simp only [Table.serve, requireMeter, require, hnone, hnone', h.name_eq, error_bind]
    exact .error _
  · -- All of the meters is stored, so both entries serve the request with the same record.
    have hmeters : entry.meters = entry'.meters := by simpa using congrArg Entry.meters hentry
    cases hslot : entry.meters[slot]? with
    | none =>
      simp only [Table.serve, requireMeter, require, hfound, hfound', hslot, ← hmeters, h.name_eq,
        h.layout_eq, ok_bind, throw_eq_error, error_bind]
      exact .error _
    | some record =>
      cases hserve : record.serve left.unit left.timer request with
      | error error =>
        simp only [Table.serve, requireMeter, require, hfound, hfound', hslot, ← hmeters, ← h.unit_eq,
          ← h.timer_eq, hserve, ok_bind, pure_eq_ok, error_bind]
        exact .error _
      | ok result =>
        obtain ⟨answer, served⟩ := result
        rw [serve_eq_ok_iff.mpr ⟨id, entry, record, served, hfound, hslot, hserve, rfl⟩,
          serve_eq_ok_iff.mpr ⟨id', entry', record, served, hfound', hmeters ▸ hslot,
            h.unit_eq ▸ h.timer_eq ▸ hserve, rfl⟩,
          putObject_eq_write hfound, putObject_eq_write hfound', h.tally_eq]
        refine .ok ⟨rfl, (h.write hleft hright key ?_).withTally _⟩
        rw [Entry.stored_putMeter, Entry.stored_putMeter, hentry]

/-- A `value` is written to both of two similar tables or to none. -/
theorem Similar.update (h : left.Similar right)
    (hleft : left.Intact timer description) (hright : right.Intact timer described) (key value : Bytes) :
    Agree Similar (left.update key value) (right.update key value) := by
  cases hentry : Entry.ofBytes left.layout value with
  | error error =>
    simp only [update_eq, hentry, ← h.layout_eq, error_bind]
    exact .error _
  | ok entry =>
    rw [hleft.update_eq_ok_iff.mpr ⟨entry, hentry, rfl⟩,
      hright.update_eq_ok_iff.mpr ⟨entry, h.layout_eq ▸ hentry, rfl⟩]
    exact .ok (h.write hleft hright key rfl)

/-- A packet that hits the entry under `key` cannot tell similar tables apart. -/
theorem Similar.hit (h : left.Similar right)
    (hleft : left.Intact timer description) (hright : right.Intact timer described) (key : Bytes)
    (length : UInt32) (now : UInt64) :
    Agree (Alike Similar) (left.attempt (.hit key length now)) (right.attempt (.hit key length now)) := by
  rcases h.find?_cases key with ⟨hnone, hnone'⟩ | ⟨id, entry, id', entry', hfound, hfound', hentry⟩
  · simp only [attempt, hit_eq, require, hnone, hnone', h.name_eq, error_bind]
    exact .error _
  · have haction : entry.action = entry'.action := by simpa using congrArg Entry.action hentry
    have hmeters : entry.meters = entry'.meters := by simpa using congrArg Entry.meters hentry
    set size := left.unit.size length with hsize
    have hcolors :
        ((entry.count length).markAll size now).1 = ((entry'.count length).markAll size now).1 := by
      simp [Entry.markAll, Entry.count, hmeters]
    rw [attempt, attempt, hit_eq_ok_iff.mpr ⟨id, entry, hfound, rfl, rfl⟩,
      hit_eq_ok_iff.mpr ⟨id', entry', hfound', rfl, rfl⟩, ← h.unit_eq, ← hsize, putObject_eq_write hfound,
      putObject_eq_write hfound', haction, hcolors, h.tally_eq]
    refine .ok ⟨rfl, (h.write hleft hright key ?_).withTally _⟩
    -- The counters may differ in the half that is not stored, and counting keeps the halves apart.
    rw [Entry.stored_markAll, Entry.stored_markAll, Entry.stored_count, hentry, ← Entry.stored_count]

/-- An `operation` by key cannot tell similar tables apart. -/
theorem Similar.attempt (h : left.Similar right)
    (hleft : left.Intact timer description) (hright : right.Intact timer described) {operation : Operation}
    (hkeyed : operation.isKeyed) :
    Agree (Alike Similar) (left.attempt operation) (right.attempt operation) := by
  -- Operations on one meter are requests. For the others there is an entry under their key in both tables, and
  -- the same is stored of both, or there is none in either.
  cases hrequest : operation.request? with
  | some found =>
    rw [attempt_eq_serve hrequest, attempt_eq_serve hrequest]
    exact h.serve hleft hright _ _ _
  | none =>
    cases operation with
    | update key value =>
      exact (h.update hleft hright key value).bind fun _ _ hupdated => .ok ⟨rfl, hupdated⟩
    | delete key =>
      rcases h.find?_cases key with ⟨hnone, hnone'⟩ | ⟨id, entry, id', entry', hfound, hfound', -⟩
      · rw [Table.attempt, Table.attempt, hleft.delete_of_none hnone, hright.delete_of_none hnone', h.name_eq]
        exact .error _
      · rw [Table.attempt, Table.attempt, delete_eq_ok_iff.mpr ⟨_, (find?_eq_some_iff.mp hfound).1, rfl⟩,
          delete_eq_ok_iff.mpr ⟨_, (find?_eq_some_iff.mp hfound').1, rfl⟩]
        exact .ok ⟨rfl, h.erase key⟩
    | lookup key =>
      rcases h.find?_cases key with ⟨hnone, hnone'⟩ | ⟨id, entry, id', entry', hfound, hfound', hentry⟩
      · simp only [Table.attempt, hnone, hnone']
        exact .ok ⟨rfl, h⟩
      · simp only [Table.attempt, hfound, hfound', ← h.layout_eq]
        exact .ok ⟨congrArg (Answer.entry left.layout) hentry, h⟩
    | entryValue key =>
      rcases h.find?_cases key with ⟨hnone, hnone'⟩ | ⟨id, entry, id', entry', hfound, hfound', hentry⟩
      · simp only [Table.attempt, entryValue, require, hnone, hnone', h.name_eq, error_bind]
        exact .error _
      · have hvalue : entry.toBytes left.layout = entry'.toBytes left.layout := by
          rw [← entry.toBytes_stored, hentry, Entry.toBytes_stored]
        simp only [Table.attempt, entryValue, require, hfound, hfound', ← h.layout_eq, hvalue, ok_bind,
          pure_eq_ok]
        exact .ok ⟨rfl, h⟩
    | dump =>
      rw [Table.attempt, Table.attempt, h.dump_eq]
      exact .ok ⟨rfl, h⟩
    | hit key length now => exact h.hit hleft hright key length now
    | tally =>
      rw [Table.attempt, Table.attempt, h.tally_eq]
      exact .ok ⟨rfl, h⟩
    | loadTally tally => exact .ok ⟨rfl, h.withTally tally⟩
    | countHeld id length => cases hkeyed
    | markHeld id slot incoming size now => cases hkeyed
    | _ => cases hrequest

end Table

namespace Pipeline

/-- `left` and `right` have the same stores and similar tables. -/
structure Similar (left right : Pipeline) : Prop where
  /-- The stores are the same. -/
  stores_eq : left.stores = right.stores
  /-- The tables of each name are similar. -/
  tables : ∀ name, Option.Rel Table.Similar (left.tables.find? name) (right.tables.find? name)

variable {description : Description} {pipeline left middle right : Pipeline}

/-- The store with this `name` is the same in similar pipelines. -/
theorem Similar.store_eq (h : left.Similar right) (name : String) : left.store name = right.store name := by
  rw [Pipeline.store, h.stores_eq]
  rfl

/-- The table with this `name` is missing in both of two similar pipelines, or the two are similar. -/
theorem Similar.find?_cases (h : left.Similar right) (name : String) :
    (left.tables.find? name = none ∧ right.tables.find? name = none) ∨
      ∃ table table', left.tables.find? name = some table ∧ right.tables.find? name = some table' ∧
        table.Similar table' := by
  have hrel := h.tables name
  generalize left.tables.find? name = found, right.tables.find? name = found' at hrel
  cases hrel with
  | some hsimilar => exact .inr ⟨_, _, rfl, rfl, hsimilar⟩
  | none => exact .inl ⟨rfl, rfl⟩

theorem Similar.refl (pipeline : Pipeline) : pipeline.Similar pipeline := by
  refine ⟨rfl, fun name => ?_⟩
  cases pipeline.tables.find? name with
  | none => exact .none
  | some table => exact .some (.refl table)

theorem Similar.symm (h : left.Similar right) : right.Similar left := by
  refine ⟨h.stores_eq.symm, fun name => ?_⟩
  rcases h.find?_cases name with ⟨hnone, hnone'⟩ | ⟨table, table', htable, htable', hsimilar⟩
  · rw [hnone, hnone']
    exact .none
  · rw [htable, htable']
    exact .some hsimilar.symm

theorem Similar.trans (h : left.Similar middle) (h' : middle.Similar right) : left.Similar right := by
  refine ⟨h.stores_eq.trans h'.stores_eq, fun name => ?_⟩
  have hrel := h'.tables name
  rcases h.find?_cases name with ⟨hnone, hnone'⟩ | ⟨table, table', htable, htable', hsimilar⟩
  · rw [hnone', rel_none_left_iff] at hrel
    rw [hnone, hrel]
    exact .none
  · rw [htable', rel_some_left_iff] at hrel
    obtain ⟨table'', htable'', hsimilar'⟩ := hrel
    rw [htable, htable'']
    exact .some (hsimilar.trans hsimilar')

/-- Similar pipelines stay similar when the store with this `name` is replaced in both by the same. -/
theorem Similar.putStore (h : left.Similar right) (name : String) (store : Store) :
    (left.putStore name store).Similar (right.putStore name store) :=
  ⟨by rw [Pipeline.putStore, Pipeline.putStore, h.stores_eq], h.tables⟩

/-- Similar pipelines stay similar when the table with this `name` is replaced in both by similar ones. -/
theorem Similar.putTable (h : left.Similar right) (name : String) {table table' : Table}
    (htable : table.Similar table') : (left.putTable name table).Similar (right.putTable name table') := by
  refine ⟨h.stores_eq, fun other => ?_⟩
  rw [Pipeline.putTable, Pipeline.putTable, OrderedMap.find?_modify, OrderedMap.find?_modify]
  have hrel := h.tables other
  generalize left.tables.find? other = found, right.tables.find? other = found' at hrel
  split
  next =>
    cases hrel with
    | some => exact .some htable
    | none => exact .none
  next => exact hrel

/-- Replacing the table with this `name` in two ways leaves similar pipelines exactly if the new tables are
similar. -/
theorem similar_putTable_iff {name : String} {table next next' : Table}
    (htable : pipeline.tables.find? name = some table) :
    (pipeline.putTable name next).Similar (pipeline.putTable name next') ↔ next.Similar next' := by
  constructor
  · intro hsimilar
    have hrel := hsimilar.tables name
    rw [find?_putTable_self htable, find?_putTable_self htable, rel_some_left_iff] at hrel
    obtain ⟨found, hfound, hnext⟩ := hrel
    rwa [← Option.some.inj hfound] at hnext
  · exact (Similar.refl pipeline).putTable name

/-- If `f` is the same for similar tables, then it is the same for all tables of similar pipelines. -/
theorem Similar.mapValues_eq {γ : Type} {f : Table → γ} (h : left.Similar right)
    (hf : ∀ name table table', left.tables.find? name = some table → right.tables.find? name = some table' →
      table.Similar table' → f table = f table') :
    (left.tables.mapValues fun _ => f) = right.tables.mapValues fun _ => f := by
  refine OrderedMap.ext_find? fun name => ?_
  rw [OrderedMap.find?_mapValues, OrderedMap.find?_mapValues]
  rcases h.find?_cases name with ⟨hnone, hnone'⟩ | ⟨table, table', htable, htable', hsimilar⟩
  · rw [hnone, hnone']
  · rw [htable, htable', Option.map_some, Option.map_some, hf name table table' htable htable' hsimilar]

/-- Similar pipelines have the same snapshot. -/
theorem Similar.snapshot_eq (h : left.Similar right) : left.snapshot = right.snapshot := by
  have htables : left.snapshot.tables = right.snapshot.tables := by
    refine h.mapValues_eq
      (f := fun table => table.dump.map fun binding =>
        SavedEntry.mk (Hex.format binding.1) (Hex.format binding.2))
      fun _ _ _ _ _ hsimilar => ?_
    rw [hsimilar.dump_eq]
  have htallies : left.tallies = right.tallies := by
    rw [tallies, tallies, h.stores_eq, h.mapValues_eq fun _ _ _ _ _ hsimilar => hsimilar.tally_eq]
  rw [snapshot, h.stores_eq, htallies]
  exact congrArg (fun tables => ({ right.snapshot with tables } : Snapshot)) htables

/-- An `item` of a snapshot cannot tell similar pipelines apart. -/
theorem Similar.applyItem (h : left.Similar right) (hleft : left.Intact description)
    (hright : right.Intact description) (item : SnapshotItem) :
    Agree Similar (left.applyItem item) (right.applyItem item) := by
  cases item with
  | records name records =>
    rw [Pipeline.applyItem, Pipeline.applyItem, h.store_eq]
    refine (Agree.refl _).bind fun store _ hstore => ?_
    subst hstore
    refine (Agree.refl _).bind fun restored _ hrestored => ?_
    subst hrestored
    exact .ok (h.putStore name restored)
  | table name =>
    rcases h.find?_cases name with ⟨hnone, hnone'⟩ | ⟨table, table', htable, htable', -⟩
    · simp only [Pipeline.applyItem, Pipeline.table, hnone, hnone', error_bind]
      exact .error _
    · simp only [Pipeline.applyItem, Pipeline.table, htable, htable', ok_bind, pure_eq_ok]
      exact .ok h
  | entry name entry =>
    rcases h.find?_cases name with ⟨hnone, hnone'⟩ | ⟨table, table', htable, htable', hsimilar⟩
    · simp only [Pipeline.applyItem, Pipeline.table, hnone, hnone', error_bind]
      exact .error _
    · obtain ⟨_, -, hintact⟩ := hleft.exists_table htable
      obtain ⟨_, -, hintact'⟩ := hright.exists_table htable'
      simp only [Pipeline.applyItem, Pipeline.table, htable, htable', ok_bind]
      refine (Agree.refl _).bind fun key _ hkey => ?_
      subst hkey
      refine (Agree.refl _).bind fun value _ hvalue => ?_
      subst hvalue
      exact (hsimilar.update hintact hintact' key value).bind fun _ _ hupdated =>
        .ok (h.putTable name hupdated)
  | tally name tally =>
    -- A store is preferred to a table of the same name, and the stores are the same.
    simp only [Pipeline.applyItem, ← h.stores_eq]
    cases hstore : left.stores.find? name with
    | some store => exact .ok (h.putStore name _)
    | none =>
      rcases h.find?_cases name with ⟨hnone, hnone'⟩ | ⟨table, table', htable, htable', hsimilar⟩
      · simp only [hnone, hnone']
        exact .error _
      · simp only [htable, htable']
        exact .ok (h.putTable name (hsimilar.withTally tally))

/-- Applying `items` of a snapshot cannot tell similar pipelines apart, even if it is refused midway. -/
theorem Similar.applyItems (h : left.Similar right) (hleft : left.Intact description)
    (hright : right.Intact description) (items : List SnapshotItem) :
    (left.applyItems items).2 = (right.applyItems items).2 ∧
      (left.applyItems items).1.Similar (right.applyItems items).1 := by
  induction items generalizing left right with
  | nil => exact ⟨rfl, h⟩
  | cons item rest ih =>
    have hagree := h.applyItem hleft hright item
    rw [Pipeline.applyItems, Pipeline.applyItems]
    -- Both go on with similar pipelines, or both stop here for the same reason.
    generalize hitem : left.applyItem item = outcome, hitem' : right.applyItem item = outcome' at hagree
    cases hagree with
    | ok happlied => exact ih happlied (hleft.applyItem hitem) (hright.applyItem hitem')
    | error error => exact ⟨rfl, h⟩

/-- An `operation` by name, index and key cannot tell similar pipelines apart. -/
theorem Similar.perform (h : left.Similar right) (hleft : left.Intact description)
    (hright : right.Intact description) {operation : Operation} (hnamed : operation.isNamed) :
    (left.perform operation).1.map Answer.stored = (right.perform operation).1.map Answer.stored ∧
      (left.perform operation).2.Similar (right.perform operation).2 := by
  cases operation with
  | store name operation =>
    -- Similar pipelines have the same stores, so here there is nothing to compare.
    cases hstore : right.store name with
    | error error =>
      rw [perform_store_of_error hstore, perform_store_of_error ((h.store_eq name).trans hstore)]
      exact ⟨rfl, h⟩
    | ok store =>
      rw [perform_store hstore, perform_store ((h.store_eq name).trans hstore)]
      exact ⟨rfl, h.putStore name _⟩
  | table name operation =>
    rcases h.find?_cases name with ⟨hnone, hnone'⟩ | ⟨table, table', htable, htable', hsimilar⟩
    · rw [perform_table_of_error (table_of_none hnone), perform_table_of_error (table_of_none hnone')]
      exact ⟨rfl, h⟩
    · obtain ⟨_, -, hintact⟩ := hleft.exists_table htable
      obtain ⟨_, -, hintact'⟩ := hright.exists_table htable'
      obtain ⟨hanswer, hnext⟩ := (hsimilar.attempt hintact hintact' hnamed).settle hsimilar
      rw [perform_table (table_eq_ok_iff.mpr htable), perform_table (table_eq_ok_iff.mpr htable'),
        Table.perform_eq_settle, Table.perform_eq_settle]
      exact ⟨hanswer, h.putTable name hnext⟩
  | snapshot =>
    have hanswer : (left.perform .snapshot).1 = (right.perform .snapshot).1 :=
      congrArg (fun snapshot => Except.ok (Answer.snapshot snapshot)) h.snapshot_eq
    exact ⟨congrArg (Except.map Answer.stored) hanswer, h⟩
  | restore snapshot =>
    obtain ⟨houtcome, hrestored⟩ := h.applyItems hleft hright snapshot.items
    rw [perform_restore, perform_restore, restore_eq_applyItems, restore_eq_applyItems, houtcome]
    exact ⟨rfl, hrestored⟩

/-- Runs of `operations` by name, index and key cannot tell similar pipelines apart. -/
theorem Similar.run (h : left.Similar right) (hleft : left.Intact description)
    (hright : right.Intact description) {operations : List Operation}
    (hnamed : ∀ operation ∈ operations, operation.isNamed) :
    (left.run operations).1.map (·.map Answer.stored) = (right.run operations).1.map (·.map Answer.stored) ∧
      (left.run operations).2.Similar (right.run operations).2 := by
  induction operations generalizing left right with
  | nil => exact ⟨rfl, h⟩
  | cons operation rest ih =>
    rw [List.forall_mem_cons] at hnamed
    obtain ⟨hanswer, hnext⟩ := h.perform hleft hright hnamed.1
    obtain ⟨hanswers, hlast⟩ := ih hnext (hleft.perform operation) (hright.perform operation) hnamed.2
    exact ⟨congrArg₂ List.cons hanswer hanswers, hlast⟩

end Pipeline

end TrafficMeter
