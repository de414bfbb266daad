import TrafficMeter.Proofs.Fault
import TrafficMeter.Proofs.Response

/-!
# Objects that are held

The entries of a table are objects, and who looked one up may hold it while its key is rewritten or deleted.
An operation reaches at most one object (`Table.target?`), by the number that is held or by the key that leads
to it, and makes something of it that depends on the entry only (`Table.reach`). All other objects are as
before (`Table.object?_perform`).

A key keeps its object until it is deleted, and an object whose key was deleted gets no key again. So an object
and its key belong together exactly as long as the key was not deleted (`Table.Intact.lookup?_run_iff`).

## Main definitions

* `Table.Shared`, `Table.Detached`: an object is the entry under a key, or it is apart from its table;
* `Table.Orphan`: no key leads to an object.

## Main results

* `Table.object?_perform`, `Table.lookup?_perform`: what one operation does to objects and to keys;
* `Table.key_and_holder_share_until_delete`: what follows for runs.
-/

namespace TrafficMeter

/-- A snapshot does not show that the table with this `name` was replaced by one with the same dump and tally. -/
theorem Pipeline.snapshot_putTable {pipeline : Pipeline} {name : String} {table next : Table}
    (h : pipeline.tables.find? name = some table) (hdump : next.dump = table.dump)
    (htally : next.tally = table.tally) : (pipeline.putTable name next).snapshot = pipeline.snapshot := by
  have htallies : (pipeline.putTable name next).tallies = pipeline.tallies := by
    simp only [tallies, putTable, OrderedMap.mapValues_modify (f := fun _ table => table.tally) h htally]
  rw [snapshot, htallies]
  simp only [putTable]
  rw [OrderedMap.mapValues_modify h]
  · rfl
  · rw [hdump]

namespace Table

variable {timer : Timer} {description : TableDescription} {table : Table} {key : Bytes} {id : EntryId}
  {entry : Entry} {operation : Operation}

/-- The key that an operation names. -/
def Operation.key? : Operation → Option Bytes
  | .update key _ => some key
  | .delete key => some key
  | .lookup key => some key
  | .entryValue key => some key
  | .execute key .. => some key
  | .executeFrom key .. => some key
  | .hit key .. => some key
  | .configure key .. => some key
  | .read key _ => some key
  | .reset key _ => some key
  | _ => none

/-- The object that an operation works on because it is held. -/
def Operation.held? : Operation → Option EntryId
  | .countHeld id _ => some id
  | .markHeld id .. => some id
  | _ => none

/-- The object that `operation` reaches: the one under its key, or the one that is held. -/
def target? (table : Table) (operation : Operation) : Option EntryId :=
  operation.held?.or (operation.key?.bind table.lookup?)

/-- What an operation makes of the `entry` that it reaches. -/
def reach (table : Table) (entry : Entry) : Operation → Entry
  | .countHeld _ length => entry.count length
  | .markHeld _ slot incoming size now =>
    match entry.meters[slot]? with
    | some record => entry.putMeter slot (record.markFrom incoming size now).2
    | none => entry
  | operation =>
    match operation.call? with
    | some (key, call) =>
      match table.respond key (some entry) call with
      | .ok response => response.entry
      | .error _ => entry
    | none => entry

theorem target?_of_held? (h : operation.held? = some id) : table.target? operation = some id := by
  rw [target?, h, Option.some_or]

theorem target?_of_key? (h : operation.key? = some key) : table.target? operation = table.lookup? key := by
  cases operation <;> cases h <;> rfl

theorem target?_of_call? {call : Call} (h : operation.call? = some (key, call)) :
    table.target? operation = table.lookup? key := by
  cases operation <;> cases h <;> rfl

theorem reach_of_respond {call : Call} {response : Response} (hcall : operation.call? = some (key, call))
    (h : table.respond key (some entry) call = .ok response) :
    table.reach entry operation = response.entry := by
  cases operation <;> cases hcall <;> simp [reach, Operation.call?, Operation.request?, h]

theorem reach_of_respond_error {call : Call} {error : Error} (hcall : operation.call? = some (key, call))
    (h : table.respond key (some entry) call = .error error) : table.reach entry operation = entry := by
  cases operation <;> cases hcall <;> simp [reach, Operation.call?, Operation.request?, h]

/-! ### One operation -/

theorem perform_update {value : Bytes} {written : Entry} (h : Entry.ofBytes table.layout value = .ok written) :
    table.perform (.update key value) =
      (.ok .done, table.write key (Entry.revise (table.entryAt? key) written)) := by
  rw [perform_eq_settle, attempt, update_eq_ok_iff.mpr ⟨written, h, rfl⟩]
  rfl

theorem lookup?_write (table : Table) (key : Bytes) (entry : Entry) (other : Bytes) :
    (table.write key entry).lookup? other =
      if other = key then some ((table.lookup? key).getD table.objects.length) else table.lookup? other := by
  rw [write]
  split
  next id hid =>
    -- A known key is rewritten in place, so the index is as before.
    show table.lookup? other = _
    by_cases hother : other = key
    · rw [if_pos hother, hother, hid, Option.getD_some]
    · rw [if_neg hother]
  next hnew => rw [lookup?, UnorderedMap.find?_insert, hnew, Option.getD_none, ← lookup?]

/-- A write under `key` rewrites the object of `key`, and no other that was there. -/
theorem object?_write (h : id < table.objects.length) (key : Bytes) (entry : Entry) :
    (table.write key entry).object? id =
      if table.lookup? key = some id then some entry else table.object? id := by
  rw [write]
  split
  next found hfound =>
    rw [hfound, object?, putObject, List.getElem?_set]
    by_cases heq : found = id
    · simp [heq, h]
    · simp [heq, object?]
  next hnew =>
    -- A new object stands behind those of before.
    rw [hnew, object?, List.getElem?_append_left h]
    simp [object?]

theorem object?_putObject (h : table.object? id = some entry) (other : EntryId) (written : Entry) :
    (table.putObject other written).object? id = some (if other = id then written else entry) := by
  obtain ⟨hlt, hentry⟩ := List.getElem?_eq_some_iff.mp h
  rw [object?, putObject, List.getElem?_set]
  by_cases heq : other = id
  · simp [heq, hlt]
  · simp [heq, List.getElem?_eq_getElem hlt, hentry]

theorem lt_of_object? (h : table.object? id = some entry) : id < table.objects.length :=
  (List.getElem?_eq_some_iff.mp h).1

/-- An `operation` that neither holds an object nor asks something of an entry leaves all objects alone. -/
theorem objects_perform (hcall : operation.call? = none) (hheld : operation.held? = none) :
    (table.perform operation).2.objects = table.objects := by
  refine perform_preserves (P := fun next => next.objects = table.objects) rfl fun answer next heffect => ?_
  cases heffect with
  | serve hrequest =>
    -- A request to a meter is asked of an entry.
    cases operation <;> cases hrequest <;> cases hcall
  | delete hdelete =>
    obtain ⟨_, -, rfl⟩ := delete_eq_ok_iff.mp hdelete
    rfl
  | loadTally => rfl
  | view => rfl
  | markAbsent => rfl
  | update | hit => cases hcall
  | countHeld | markHeld => cases hheld

theorem reach_eq_self (hcall : operation.call? = none) (hheld : operation.held? = none) (entry : Entry) :
    table.reach entry operation = entry := by
  cases operation with
  | countHeld | markHeld => cases hheld
  | delete | lookup | entryValue | dump | tally | loadTally => rfl
  | _ => cases hcall

/-- What is done with a held object `id` reaches it, whether or not it has a key. -/
theorem perform_of_held? (hheld : operation.held? = some id) (h : table.object? id = some entry) :
    (table.perform operation).2 = table.putObject id (table.reach entry operation) := by
  cases operation with
  | countHeld held length =>
    cases hheld
    show table.countObject id length = _
    rw [countObject, h]
    rfl
  | markHeld held slot incoming size now =>
    cases hheld
    cases hslot : entry.meters[slot]? with
    | some record =>
      have hmark : table.markObjectFrom? id slot incoming size now = some (_, _) :=
        markObjectFrom?_eq_some_iff.mpr ⟨entry, record, h, hslot, rfl, rfl⟩
      simp only [perform_eq_settle, attempt, hmark, reach, hslot]
      rfl
    | none =>
      -- Without a meter in this place the object is put back as it is.
      have hmark : table.markObjectFrom? id slot incoming size now = none := by
        simp [markObjectFrom?, h, hslot]
      obtain ⟨hlt, rfl⟩ := List.getElem?_eq_some_iff.mp h
      simp only [perform_eq_settle, attempt, hmark, reach, hslot, putObject, List.set_getElem_self]
      rfl
  | _ => cases hheld

/-- A number `id` that no object has yet cannot be held. -/
theorem perform_of_held?_of_none (hheld : operation.held? = some id) (h : table.object? id = none) :
    (table.perform operation).2 = table := by
  cases operation with
  | countHeld held length =>
    cases hheld
    show table.countObject id length = table
    rw [countObject, h]
  | markHeld held slot incoming size now =>
    cases hheld
    have hmark : table.markObjectFrom? id slot incoming size now = none := by simp [markObjectFrom?, h]
    simp only [perform_eq_settle, attempt, hmark]
    rfl
  | _ => cases hheld

/-- What is asked of the entry under `key` changes the object of `key` and no other. -/
theorem object?_perform_of_call? {call : Call} (hcall : operation.call? = some (key, call))
    (h : table.object? id = some entry) :
    (table.perform operation).2.object? id =
      some (if table.lookup? key = some id then table.reach entry operation else entry) := by
  rw [perform_eq_settle_respond hcall]
  cases hresponse : table.respond key (table.entryAt? key) call with
  | error error =>
    show table.object? id = _
    rw [h]
    by_cases hid : table.lookup? key = some id
    · -- The entry under the key is the object, and it refused what was asked.
      rw [entryAt?, hid, Option.bind_some, h] at hresponse
      rw [if_pos hid, reach_of_respond_error hcall hresponse]
    · rw [if_neg hid]
  | ok response =>
    show (table.write key response.entry).object? id = _
    rw [object?_write (lt_of_object? h)]
    by_cases hid : table.lookup? key = some id
    · rw [entryAt?, hid, Option.bind_some, h] at hresponse
      rw [if_pos hid, if_pos hid, reach_of_respond hcall hresponse]
    · rw [if_neg hid, if_neg hid, h]

/-- An `operation` changes the object that it reaches and no other. -/
theorem object?_perform (h : table.object? id = some entry) (operation : Operation) :
    (table.perform operation).2.object? id =
      some (if table.target? operation = some id then table.reach entry operation else entry) := by
  -- What an operation reaches is told by the way it names it: by a number that is held, by a key, or not at all.
  cases hheld : operation.held? with
  | some other =>
    simp only [target?_of_held? hheld, Option.some.injEq]
    cases hfound : table.object? other with
    | none =>
      have hne : other ≠ id := fun heq => by simp [heq, h] at hfound
      rw [perform_of_held?_of_none hheld hfound, if_neg hne, h]
    | some found =>
      rw [perform_of_held? hheld hfound, object?_putObject h]
      by_cases heq : other = id
      · subst heq
        rw [h, Option.some.injEq] at hfound
        rw [hfound]
      · rw [if_neg heq, if_neg heq]
  | none =>
    cases hcall : operation.call? with
    | some found =>
      obtain ⟨key, call⟩ := found
      rw [object?_perform_of_call? hcall h, target?_of_call? hcall]
    | none =>
      rw [object?, objects_perform hcall hheld, ← object?, h, reach_eq_self hcall hheld, ite_self]

/-- Unless it is deleted, `key` leads to where it led before, or it is new and leads to a new object. -/
theorem lookup?_perform (table : Table) (hkey : operation ≠ .delete key) :
    (table.perform operation).2.lookup? key = table.lookup? key ∨
      table.lookup? key = none ∧ (table.perform operation).2.lookup? key = some table.objects.length := by
  refine perform_preserves (P := fun next => next.lookup? key = table.lookup? key ∨
    table.lookup? key = none ∧ next.lookup? key = some table.objects.length) (.inl rfl) ?_
  intro answer next heffect
  -- The index changes only where a key is written or deleted.
  cases heffect with
  | serve _ hserve =>
    obtain ⟨_, _, _, _, -, -, -, rfl⟩ := serve_eq_ok_iff.mp hserve
    exact .inl rfl
  | @update other value _ hupdate =>
    obtain ⟨entry, -, rfl⟩ := update_eq_ok_iff.mp hupdate
    rw [lookup?_write]
    by_cases hother : key = other
    · subst hother
      cases hid : table.lookup? key with
      | some id => simp
      | none => simp
    · exact .inl (if_neg hother)
  | @delete other _ hdelete =>
    obtain ⟨_, -, rfl⟩ := delete_eq_ok_iff.mp hdelete
    have hne : key ≠ other := fun heq => hkey (heq ▸ rfl)
    left
    rw [lookup?, UnorderedMap.find?_erase, if_neg hne, ← lookup?]
  | hit hhit =>
    obtain ⟨_, _, -, -, rfl⟩ := hit_eq_ok_iff.mp hhit
    exact .inl rfl
  | countHeld =>
    rw [countObject]
    split <;> exact .inl rfl
  | markHeld hmark =>
    obtain ⟨_, _, -, -, -, rfl⟩ := markObjectFrom?_eq_some_iff.mp hmark
    exact .inl rfl
  | markAbsent => exact .inl rfl
  | loadTally => exact .inl rfl
  | view => exact .inl rfl

theorem lookup?_perform_of_some (h : table.lookup? key = some id) (hkey : operation ≠ .delete key) :
    (table.perform operation).2.lookup? key = some id := by
  rcases table.lookup?_perform hkey with hsame | ⟨hnone, -⟩
  · rw [hsame, h]
  · rw [h] at hnone
    cases hnone

/-- A deleted `key` leads nowhere. -/
theorem lookup?_delete (table : Table) (key : Bytes) :
    (table.perform (.delete key)).2.lookup? key = none := by
  rw [perform_eq_settle, attempt, delete_eq]
  split
  next =>
    show (table.index.erase key).find? key = none
    rw [UnorderedMap.find?_erase, if_pos rfl]
  next hid => exact Option.not_isSome_iff_eq_none.mp hid

/-! ### Objects without a key -/

/-- No key leads to the object `id`. -/
def Orphan (table : Table) (id : EntryId) : Prop :=
  ∀ key, table.lookup? key ≠ some id

theorem Orphan.target?_ne (h : table.Orphan id) (hheld : operation.held? ≠ some id) :
    table.target? operation ≠ some id := by
  intro htarget
  rw [target?, Option.or_eq_some_iff, Option.bind_eq_some_iff] at htarget
  rcases htarget with hid | ⟨-, key, -, hid⟩
  · exact hheld hid
  · exact h key hid

/-- An object `id` without a key gets none again, since new keys get new objects. -/
theorem Orphan.perform (h : table.Orphan id) (hid : id < table.objects.length) (operation : Operation) :
    (table.perform operation).2.Orphan id := by
  intro key hkey
  by_cases hdelete : operation = .delete key
  · rw [hdelete, lookup?_delete] at hkey
    cases hkey
  · rcases table.lookup?_perform hdelete with hsame | ⟨-, hnew⟩
    · exact h key (hsame ▸ hkey)
    · rw [hnew, Option.some.injEq] at hkey
      exact absurd hkey (Nat.ne_of_gt hid)

/-- After `key` was deleted, no key leads to the object that it led to. -/
theorem Intact.orphan_delete (h : table.Intact timer description) (hid : table.lookup? key = some id) :
    (table.perform (.delete key)).2.Orphan id := by
  intro other hother
  by_cases hkey : other = key
  · rw [hkey, lookup?_delete] at hother
    cases hother
  · have hne : Operation.delete key ≠ .delete other := fun heq => hkey (Operation.delete.inj heq).symm
    rcases table.lookup?_perform hne with hsame | ⟨-, hnew⟩
    · exact hkey (h.lookup_inj other key id (hsame ▸ hother) hid)
    · rw [hnew, Option.some.injEq] at hother
      exact absurd hother (Nat.ne_of_gt (h.lookup_lt key id hid))

/-! ### Runs -/

theorem Intact.run (h : table.Intact timer description) (operations : List Operation) :
    (table.run operations).2.Intact timer description :=
  runWith_preserves (fun _ operation hintact => hintact.perform operation) h operations

theorem exists_object?_run (h : table.object? id = some entry) (operations : List Operation) :
    ∃ last, (table.run operations).2.object? id = some last :=
  runWith_preserves (P := fun state => ∃ last, Table.object? state id = some last)
    (fun _ operation ⟨_, hlast⟩ => ⟨_, object?_perform hlast operation⟩) ⟨entry, h⟩ operations

theorem Orphan.run (h : table.Orphan id) (hid : table.object? id = some entry) (operations : List Operation) :
    (table.run operations).2.Orphan id := by
  induction operations generalizing table entry with
  | nil => exact h
  | cons operation rest ih => exact ih (h.perform (lt_of_object? hid) operation) (object?_perform hid operation)

/-- As long as it is not deleted, `key` keeps its object. -/
theorem lookup?_run_of_not_mem (hid : table.lookup? key = some id) {operations : List Operation}
    (hdelete : .delete key ∉ operations) : (table.run operations).2.lookup? key = some id := by
  induction operations generalizing table with
  | nil => exact hid
  | cons operation rest ih =>
    rw [List.mem_cons, not_or] at hdelete
    exact ih (lookup?_perform_of_some hid (Ne.symm hdelete.1)) hdelete.2

/-- Once `key` was deleted, its object `id` has no key. -/
theorem Intact.orphan_of_delete_mem (h : table.Intact timer description) (hid : table.lookup? key = some id)
    {operations : List Operation} (hdelete : .delete key ∈ operations) :
    (table.run operations).2.Orphan id := by
  induction operations generalizing table with
  | nil => cases hdelete
  | cons operation rest ih =>
    show ((table.perform operation).2.run rest).2.Orphan id
    by_cases hfirst : operation = .delete key
    · -- Here the object loses its key. Whatever comes after, it gets none again.
      subst hfirst
      obtain ⟨entry, hentry⟩ := h.exists_object hid
      exact (h.orphan_delete hid).run (object?_perform hentry _) rest
    · have hrest : .delete key ∈ rest := (List.mem_cons.mp hdelete).resolve_left (Ne.symm hfirst)
      exact ih (h.perform operation) (lookup?_perform_of_some hid hfirst) hrest

/-- The object `id` belongs to `key` exactly as long as `key` was not deleted. -/
theorem Intact.lookup?_run_iff (h : table.Intact timer description) (hid : table.lookup? key = some id)
    (operations : List Operation) :
    (table.run operations).2.lookup? key = some id ↔ .delete key ∉ operations := by
  refine ⟨fun hlookup hdelete => ?_, lookup?_run_of_not_mem hid⟩
  exact h.orphan_of_delete_mem hid hdelete key hlookup

/-! ### What a holder sees -/

/-- The object `id` is the entry under `key`, so that it makes no difference which of them is used. -/
structure Shared (table : Table) (key : Bytes) (id : EntryId) : Prop where
  /-- The entry under the key is the object, and it is there. -/
  entry : ∃ entry, table.object? id = some entry ∧ table.find? key = some (id, entry)
  /-- What is done by the key is seen on the object. -/
  byKey : ∀ operation entry, operation.key? = some key → table.object? id = some entry →
    (table.perform operation).2.object? id = some (table.reach entry operation)
  /-- An entry that is written under the key becomes the object, with its action, counter and meters. -/
  byUpdate : ∀ value written, Entry.ofBytes table.layout value = .ok written →
    (table.perform (.update key value)).2.object? id = some written ∧
      (table.perform (.update key value)).2.lookup? key = some id
  /-- What is done with the object is seen under the key. -/
  byHolder : ∀ operation entry, operation.held? = some id → table.entryAt? key = some entry →
    (table.perform operation).2.entryAt? key = some (table.reach entry operation)

/-- The object `id` is not in `table`, so that what is done with one is not seen in the other. -/
structure Detached (table : Table) (id : EntryId) : Prop where
  /-- No key leads to the object. -/
  orphan : table.Orphan id
  /-- What is done with the object is not seen in the table, in its dump and in snapshots. -/
  byHolder : ∀ operation, operation.held? = some id →
    (∀ key, (table.perform operation).2.find? key = table.find? key) ∧
      (table.perform operation).2.dump = table.dump ∧
      ∀ (pipeline : Pipeline) (name : String), pipeline.tables.find? name = some table →
        (pipeline.perform (.table name operation)).2.snapshot = pipeline.snapshot
  /-- All else that is done with the table does not change the object. -/
  byTable : ∀ operation, operation.held? ≠ some id →
    (table.perform operation).2.object? id = table.object? id

theorem reach_update {value : Bytes} {written : Entry} (h : Entry.ofBytes table.layout value = .ok written)
    (entry : Entry) (key : Bytes) :
    table.reach entry (.update key value) = Entry.revise (some entry) written := by
  have hresponse : table.respond key (some entry) (.update value) =
      .ok { answer := .done, entry := Entry.revise (some entry) written } := by
    rw [respond, h]
    rfl
  exact reach_of_respond rfl hresponse

/-- A `key` that leads to the object `id` shares it. -/
theorem Intact.shared (h : table.Intact timer description) (hid : table.lookup? key = some id) :
    table.Shared key id := by
  obtain ⟨found, hfound⟩ := h.exists_object hid
  have hkeeps : ∀ operation : Operation, operation ≠ .delete key →
      (table.perform operation).2.entryAt? key = (table.perform operation).2.object? id := by
    intro operation hdelete
    rw [entryAt?, lookup?_perform_of_some hid hdelete, Option.bind_some]
  refine ⟨⟨found, hfound, find?_eq_some_iff.mpr ⟨hid, hfound⟩⟩, ?_, ?_, ?_⟩
  · -- What is asked under the key reaches the object.
    intro operation entry hkey hentry
    rw [object?_perform hentry, target?_of_key? hkey, if_pos hid]
  · intro value written hwritten
    refine ⟨?_, lookup?_perform_of_some hid (by simp)⟩
    have hentry : table.entryAt? key = some found := by rw [entryAt?, hid, Option.bind_some, hfound]
    rw [object?_perform hfound, target?_of_key? rfl, if_pos hid, reach_update hwritten, ← hentry,
      h.revise_eq_self key hwritten]
  · -- What the holder does is seen under the key, which is not deleted by it.
    intro operation entry hheld hentry
    have hdelete : operation ≠ .delete key := by
      rintro rfl
      cases hheld
    rw [entryAt?, hid, Option.bind_some] at hentry
    rw [hkeeps operation hdelete, object?_perform hentry, target?_of_held? hheld, if_pos rfl]

/-- An object `id` without a key is apart from its table. -/
theorem Orphan.detached (h : table.Orphan id) (hid : table.object? id = some entry) : table.Detached id := by
  have hothers : ∀ written key other, table.lookup? key = some other →
      (table.putObject id written).object? other = table.object? other := by
    intro written key other hother
    have hne : id ≠ other := fun heq => h key (heq ▸ hother)
    rw [object?, putObject, List.getElem?_set_ne hne, ← object?]
  refine ⟨h, ?_, ?_⟩
  · intro operation hheld
    set next := table.reach entry operation
    have hperform : (table.perform operation).2 = table.putObject id next := perform_of_held? hheld hid
    -- The dump lists what the keys lead to, and no key leads to the object.
    have hentries (key : Bytes) : (table.putObject id next).entryAt? key = table.entryAt? key := by
      show (table.lookup? key).bind _ = (table.lookup? key).bind _
      cases hother : table.lookup? key with
      | none => rfl
      | some other => exact hothers next key other hother
    have hdump : (table.putObject id next).dump = table.dump :=
      Similar.dump_eq ⟨rfl, fun key => congrArg _ (hentries key)⟩
    refine ⟨fun key => ?_, by rw [hperform, hdump], fun pipeline name htable => ?_⟩
    · rw [hperform, find?, find?]
      show (table.lookup? key >>= _) = _
      cases hother : table.lookup? key with
      | none => rfl
      | some other => simp only [Option.bind_eq_bind, Option.bind_some, hothers next key other hother]
    · have htally : (table.perform operation).2.tally = table.tally := by
        rw [hperform]
        rfl
      rw [Pipeline.perform_table (Pipeline.table_eq_ok_iff.mpr htable)]
      exact Pipeline.snapshot_putTable htable (by rw [hperform, hdump]) htally
  · intro operation hheld
    rw [object?_perform hid, if_neg (h.target?_ne hheld), hid]

/-- Keys and holders share an object until its key is deleted. In every run of `operations` from a table that can
be reached, keys never share an object, and a new key gets an object that nobody can hold yet. An object `id`
that was found under `key` belongs to it exactly as long as `key` was not deleted: until then it is the entry
under `key`, and from then on it is apart from the table. -/
theorem key_and_holder_share_until_delete (table : Table) (hreach : table.Reachable) (key : Bytes)
    (id : EntryId) (hfound : table.lookup? key = some id) (operations : List Operation) :
    let last := (table.run operations).2
    (∀ key other id, last.lookup? key = some id → last.lookup? other = some id → key = other) ∧
    (∀ other, (last.perform (.delete other)).2.lookup? other = none) ∧
    (∀ other value written, last.lookup? other = none → Entry.ofBytes last.layout value = .ok written →
      ∃ fresh, (last.perform (.update other value)).2.lookup? other = some fresh ∧
        last.object? fresh = none ∧ fresh ≠ id) ∧
    (last.lookup? key = some id ↔ .delete key ∉ operations) ∧
    (.delete key ∉ operations → last.Shared key id) ∧
    (.delete key ∈ operations → last.Detached id) := by
  intro last
  obtain ⟨timer, description, hintact⟩ := hreach.intact
  obtain ⟨entry, hentry⟩ := hintact.exists_object hfound
  have hlast : last.Intact timer description := hintact.run operations
  obtain ⟨held, hheld⟩ : ∃ held, last.object? id = some held := exists_object?_run hentry operations
  refine ⟨hlast.lookup_inj, last.lookup?_delete, ?_, hintact.lookup?_run_iff hfound operations, ?_, ?_⟩
  · -- The new object is the next one in line, so that nobody can hold it.
    intro other value written hnone hwritten
    refine ⟨last.objects.length, ?_, List.getElem?_eq_none (le_refl _), Nat.ne_of_gt (lt_of_object? hheld)⟩
    rw [perform_update hwritten, lookup?_write, if_pos rfl, hnone, Option.getD_none]
  · intro hdelete
    exact hlast.shared (lookup?_run_of_not_mem hfound hdelete)
  · intro hdelete
    exact (hintact.orphan_of_delete_mem hfound hdelete).detached hheld

/-- An entry is looked up, its key is deleted and written again. A packet that its holder counts is in no
dump. -/
theorem key_and_holder_share_until_delete_rewritten :
    let table := ((create "t" ⟨0, some .packets, 0⟩ .bytes (.ofResolution 1)).perform
      (.update [7] (Bytes.zeros 16))).2
    let last := (table.run [.delete [7], .update [7] (Bytes.zeros 16)]).2
    table.Reachable ∧ table.lookup? [7] = some 0 ∧ last.lookup? [7] = some 1 ∧
      (last.perform (.countHeld 0 60)).2.dump = last.dump := by
  intro table last
  have hreach : table.Reachable := .perform (.create ..) _
  have hfound : table.lookup? [7] = some 0 := by decide +kernel
  have hdetached : last.Detached 0 :=
    (key_and_holder_share_until_delete table hreach [7] 0 hfound _).2.2.2.2.2 (by decide)
  exact ⟨hreach, hfound, by decide +kernel, (hdetached.byHolder _ rfl).2.1⟩

end Table

end TrafficMeter
