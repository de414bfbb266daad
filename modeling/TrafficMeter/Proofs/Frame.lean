import TrafficMeter.Proofs.Operation
import TrafficMeter.Proofs.Raw
import TrafficMeter.Proofs.Routine
import TrafficMeter.Proofs.UnorderedMap

/-!
# Operations that fail change nothing

Every operation on a store or a table is a routine that works in place. This is where the routines are opened.
For each of them there is a lemma with the value that it computes (`Store.restore_eq`, `Table.update_eq` and so
on), and a proof that it is atomic: nothing is written before everything was checked. Together they say that to
perform an operation is to attempt it and to put the old state back if it was refused
(`Store.perform_eq_settle`, `Table.perform_eq_settle`). All later modules use these.

Three routines are not of the simple form. `Store.Routine.restore` and `Entry.rewrite` write one meter after the
other, and `Table.Routine.delete` removes a key before it knows whether the key was there.
-/

namespace TrafficMeter

/-- Setting the elements after `before` one by one replaces them all. -/
theorem foldl_set_zipIdx {α : Type} (news : List α) (before olds : List α) (h : news.length = olds.length) :
    (news.zipIdx before.length).foldl (fun list new => list.set new.2 new.1) (before ++ olds) =
      before ++ news := by
  induction news generalizing before olds with
  | nil => simpa using h.symm
  | cons new rest ih =>
    obtain ⟨old, others, rfl⟩ := List.exists_cons_of_length_eq_add_one h.symm
    have hstep : (before ++ old :: others).set before.length new = (before ++ [new]) ++ others := by
      simp [List.set_append_right]
    have hlength : before.length + 1 = (before ++ [new]).length := by simp
    rw [List.zipIdx_cons, List.foldl_cons, hstep, hlength, ih _ _ (by simpa using h)]
    simp

/-- A loop of `modify` makes the changes one after the other. -/
theorem Routine.perform_forM_modify {σ α : Type} (f : α → σ → σ) (list : List α) (state : σ) :
    (list.forM fun a => (modify (f a) : Routine σ PUnit)).perform state =
      (.ok (), list.foldl (fun state a => f a state) state) := by
  induction list generalizing state with
  | nil => rfl
  | cons head rest ih => exact (perform_bind_of_ok rfl).trans (ih _)

namespace Store

variable (store : Store)

/-! ### Values -/

theorem markFrom_eq (index : UInt32) (incoming : Color) (size now : UInt64) :
    store.markFrom index incoming size now = do
      let record ← store.read index
      let marked := record.markFrom incoming size now
      return (marked.1, store.put index marked.2) := by
  rw [markFrom, Routine.markFrom]
  cases hread : store.read index <;> simp [hread]

theorem executeFrom_eq (index : UInt32) (incoming : Color) (length : UInt32) (now : UInt64) :
    store.executeFrom index incoming length now = do
      let record ← store.read index
      let marked := record.markFrom incoming (store.unit.size length) now
      return (marked.1, { store.put index marked.2 with tally := store.tally.add marked.1 }) := by
  cases hread : store.read index <;> simp [executeFrom, Routine.executeFrom, Routine.markFrom, hread, put]

theorem configure_eq (index : UInt32) (profile : Profile) :
    store.configure index profile = do
      let _ ← store.read index
      let record ← profile.toRecord store.timer
      return store.put index record := by
  rw [configure, Routine.after, Routine.configure]
  cases hread : store.read index <;> cases hrecord : profile.toRecord store.timer <;> simp [hread, hrecord]

theorem reset_eq (index : UInt32) :
    store.reset index = do
      let _ ← store.read index
      return store.put index {} := by
  rw [reset, Routine.after, Routine.reset]
  cases hread : store.read index <;> simp [hread]

theorem writeValue_eq (key value : Bytes) :
    store.writeValue key value = do
      let index ← indexOfKey key
      let _ ← store.read index
      let record ← Record.ofBytes value
      return store.put index record := by
  rw [writeValue, Routine.after, Routine.writeValue]
  cases hkey : indexOfKey key with
  | error error => simp
  | ok index =>
    cases hread : store.read index <;> cases hrecord : Record.ofBytes value <;> simp [hread]

/-- Writing `records` one after the other replaces all meters, if there are as many. -/
theorem perform_restore_loop {records : List Record} (h : records.length = store.capacity) :
    (records.zipIdx.forM fun new => (modify fun store : Store =>
      { store with records := store.records.set new.2 new.1 } : Routine Store PUnit)).perform store =
      (.ok (), { store with records }) := by
  have hstore : records.zipIdx.foldl (fun (store : Store) (new : Record × Nat) =>
        { store with records := store.records.set new.2 new.1 }) store =
      { store with records := records.zipIdx.foldl (fun list new => list.set new.2 new.1) store.records } :=
    List.foldl_hom (fun list => { store with records := list }) fun _ _ => rfl
  rw [Routine.perform_forM_modify, hstore]
  exact congrArg (fun list => (Except.ok (), { store with records := list }))
    (foldl_set_zipIdx records [] store.records h)

theorem length_eq_of_checkRecords {records : List Record} (h : store.checkRecords records = .ok ()) :
    records.length = store.capacity := by
  by_contra hne
  simp [checkRecords, hne] at h

theorem restore_eq (records : List Record) :
    store.restore records = do
      store.checkRecords records
      return { store with records } := by
  cases hcheck : store.checkRecords records with
  | error error => simp [restore, Routine.restore, Routine.after, hcheck]
  | ok =>
    have hloop := Routine.attempt_of_ok (store.perform_restore_loop (store.length_eq_of_checkRecords hcheck))
    simp only [restore, Routine.restore, Routine.after, Routine.attempt_bind, Routine.attempt_get, ok_bind,
      Routine.attempt_lift, hcheck, map_ok]
    exact congrArg (Except.map Prod.snd) hloop

/-! ### Frames -/

theorem atomic_markFrom (index : UInt32) (incoming : Color) (size now : UInt64) :
    (Routine.markFrom index incoming size now).Atomic :=
  Routine.readOnly_get.bind fun _ => (Routine.readOnly_lift _).bind fun _ =>
    ((Routine.total_modify _).bind fun _ => Routine.total_pure _).atomic

theorem atomic_executeFrom (index : UInt32) (incoming : Color) (length : UInt32) (now : UInt64) :
    (Routine.executeFrom index incoming length now).Atomic :=
  Routine.readOnly_get.bind fun _ => (atomic_markFrom index incoming _ now).bind fun _ =>
    (Routine.total_modify _).bind fun _ => Routine.total_pure _

theorem atomic_configure (index : UInt32) (profile : Profile) : (Routine.configure index profile).Atomic :=
  Routine.readOnly_get.bind fun _ => (Routine.readOnly_lift _).bind fun _ => Routine.readOnly_get.bind fun _ =>
    (Routine.readOnly_lift _).bind fun _ => (Routine.total_modify _).atomic

theorem atomic_reset (index : UInt32) : (Routine.reset index).Atomic :=
  Routine.readOnly_get.bind fun _ => (Routine.readOnly_lift _).bind fun _ => (Routine.total_modify _).atomic

theorem atomic_writeValue (key value : Bytes) : (Routine.writeValue key value).Atomic :=
  (Routine.readOnly_lift _).bind fun _ => Routine.readOnly_get.bind fun _ => (Routine.readOnly_lift _).bind fun _ =>
    (Routine.readOnly_lift _).bind fun _ => (Routine.total_modify _).atomic

/-- All of `records` are checked before the first one is written, and the loop that writes them cannot fail. -/
theorem atomic_restore (records : List Record) : (Routine.restore records).Atomic :=
  Routine.readOnly_get.bind fun _ => (Routine.readOnly_lift _).bind fun _ =>
    (Routine.total_forM (fun _ => Routine.total_modify _) _).atomic

theorem atomic_routine (operation : Operation) : operation.routine.Atomic := by
  cases operation with
  | execute index length now => exact (atomic_executeFrom index .green length now).map _
  | executeFrom index incoming length now => exact (atomic_executeFrom index incoming length now).map _
  | markFrom index incoming size now => exact (atomic_markFrom index incoming size now).map _
  | configure index profile => exact (atomic_configure index profile).map _
  | reset index => exact (atomic_reset index).map _
  | writeValue key value => exact (atomic_writeValue key value).map _
  | restore records => exact (atomic_restore records).map _
  | loadTally tally => exact (Routine.total_modify _).atomic.map _
  | read | readValue =>
    exact Routine.readOnly_get.bind fun _ => (Routine.readOnly_lift _).bind fun _ => (Routine.total_pure _).atomic
  | records | tally => exact Routine.readOnly_get.bind fun _ => (Routine.total_pure _).atomic

/-- The answer to an operation on `store` and the store after it, as a value. -/
def attempt (store : Store) : Operation → Except Error (Answer × Store)
  | .execute index length now => do
    let (color, next) ← store.execute index length now
    return (.color color, next)
  | .executeFrom index incoming length now => do
    let (color, next) ← store.executeFrom index incoming length now
    return (.color color, next)
  | .markFrom index incoming size now => do
    let (color, next) ← store.markFrom index incoming size now
    return (.color color, next)
  | .configure index profile => return (.done, ← store.configure index profile)
  | .read index => return (.record (← store.read index), store)
  | .reset index => return (.done, ← store.reset index)
  | .readValue key => return (.bytes (← store.readValue key), store)
  | .writeValue key value => return (.done, ← store.writeValue key value)
  | .records => return (.records store.records, store)
  | .restore records => return (.done, ← store.restore records)
  | .tally => return (.tally store.tally, store)
  | .loadTally tally => return (.done, store.loadTally tally)

/-- `store.attempt operation` is what the routine of `operation` computes. -/
theorem attempt_routine (operation : Operation) : operation.routine.attempt store = store.attempt operation := by
  cases operation with
  | execute | executeFrom | markFrom => exact Routine.attempt_map ..
  | configure | reset | writeValue | restore => exact Routine.attempt_map_unit ..
  | read index => cases h : store.read index <;> simp [Operation.routine, attempt, h]
  | readValue key => cases h : store.readValue key <;> simp [Operation.routine, attempt, h]
  | records => rfl
  | tally => rfl
  | loadTally tally => rfl

/-- To perform an `operation` on `store` is to attempt it. If it is refused, `store` is as it was. -/
theorem perform_eq_settle (operation : Operation) :
    store.perform operation = settle store (store.attempt operation) := by
  rw [perform, (atomic_routine operation).perform_eq_settle, attempt_routine]

theorem perform_eq_self_of_error {store : Store} {operation : Operation} {error : Error}
    (h : (store.perform operation).1 = .error error) : (store.perform operation).2 = store := by
  rw [perform_eq_settle] at h ⊢
  exact settle_eq_self h

end Store

namespace Entry

variable {layout : Layout} {entry decoded : Entry} {value : Bytes}

/-- The parts of `entry` after it was rewritten by `decoded`. -/
theorem rewrite_eq (entry decoded : Entry) :
    entry.rewrite decoded =
      { action := decoded.action
        counter := entry.counter.map fun held => decoded.counter.getD held
        meters := decoded.meters.zipIdx.foldl (fun list new => list.set new.2 new.1) entry.meters } := by
  have hloop (start : Entry) (news : List (Record × Nat)) :
      news.foldl (fun (rewritten : Entry) (new : Record × Nat) =>
          { rewritten with meters := rewritten.meters.set new.2 new.1 }) start =
        { start with meters := news.foldl (fun list new => list.set new.2 new.1) start.meters } :=
    List.foldl_hom (fun list => { start with meters := list }) fun _ _ => rfl
  refine (hloop _ decoded.meters.zipIdx).trans ?_
  cases hcounter : entry.counter <;> cases hdecoded : decoded.counter <;> simp

/-- An `entry` that is rewritten by `decoded`, which has the same parts, becomes `decoded`, whatever it held. -/
theorem rewrite_eq_self (hcounter : entry.counter.isSome = decoded.counter.isSome)
    (hmeters : entry.meters.length = decoded.meters.length) : entry.rewrite decoded = decoded := by
  have hset := foldl_set_zipIdx decoded.meters [] entry.meters hmeters.symm
  rw [List.length_nil, List.nil_append, List.nil_append] at hset
  rw [rewrite_eq, hset]
  obtain ⟨action, counter, meters⟩ := decoded
  cases hheld : entry.counter <;> cases counter <;> simp_all

/-- What `update` makes of the entry that is `held` under a key, if any: it is rewritten by the decoded one. -/
def revise (held : Option Entry) (decoded : Entry) : Entry :=
  (held.map fun entry => entry.rewrite decoded).getD decoded

@[simp]
theorem revise_none (decoded : Entry) : revise none decoded = decoded := rfl

/-- A decoded value has a counter exactly if `layout` has one, so a new entry takes over all of it. -/
theorem ofDecoded_eq_self (h : ofBytes layout value = .ok decoded) : ofDecoded layout decoded = decoded := by
  obtain ⟨-, -, -, hcounter⟩ := ofBytes_eq_ok_iff.mp h
  obtain ⟨action, counter, meters⟩ := decoded
  cases hcounter
  cases hkind : layout.counter <;> simp [ofDecoded, hkind]

end Entry

namespace Table

variable (table : Table)

/-- The entry under `key`. -/
def entryAt? (table : Table) (key : Bytes) : Option Entry :=
  (table.lookup? key).bind table.object?

/-- `table` with `entry` under `key`. The object of a present key is rewritten, and an absent key gets a new
object. -/
def write (table : Table) (key : Bytes) (entry : Entry) : Table :=
  match table.lookup? key with
  | some id => table.putObject id entry
  | none =>
    { table with
      objects := table.objects ++ [entry]
      index := table.index.insert key table.objects.length }

/-! ### Values -/

theorem update_eq (key value : Bytes) :
    table.update key value = do
      let decoded ← Entry.ofBytes table.layout value
      return table.write key (Entry.revise (table.entryAt? key) decoded) := by
  cases hdecoded : Entry.ofBytes table.layout value with
  | error error => simp [update, Routine.after, Routine.update, hdecoded]
  | ok decoded =>
    cases hid : table.lookup? key with
    | none =>
      simp [update, Routine.after, Routine.update, hdecoded, hid, write, entryAt?,
        Entry.ofDecoded_eq_self hdecoded]
    | some id =>
      -- The object is modified where it stands. A number without an object would have nothing to modify.
      have hobjects : table.objects.modify id (fun held => held.rewrite decoded) =
          table.objects.set id (Entry.revise (table.entryAt? key) decoded) := by
        cases hentry : table.object? id with
        | none =>
          have hle := List.getElem?_eq_none_iff.mp hentry
          rw [List.modify_eq_self hle, List.set_eq_of_length_le hle]
        | some entry =>
          rw [entryAt?, hid, Option.bind_some, hentry, List.modify_eq_set_getElem?]
          have hget : table.objects[id]? = some entry := hentry
          simp [hget, Entry.revise]
      simp [update, Routine.after, Routine.update, hdecoded, hid, write, putObject, hobjects]

theorem delete_eq (key : Bytes) :
    table.delete key =
      if (table.lookup? key).isSome then .ok { table with index := table.index.erase key }
      else .error (.entryNotFound table.name key) := by
  cases hid : table.lookup? key <;> simp [delete, Routine.after, Routine.delete, hid]

theorem executeFrom_eq (key : Bytes) (slot : Nat) (incoming : Color) (length : UInt32) (now : UInt64) :
    table.executeFrom key slot incoming length now = do
      let found ← table.requireMeter key slot
      let marked := found.2.2.markFrom incoming (table.unit.size length) now
      return (marked.1, { table.putObject found.1 (found.2.1.putMeter slot marked.2) with
        tally := table.tally.add marked.1 }) := by
  cases hmeter : table.requireMeter key slot <;>
    simp [executeFrom, Routine.executeFrom, hmeter, putObject]

theorem hit_eq (key : Bytes) (length : UInt32) (now : UInt64) :
    table.hit key length now = do
      let found ← table.require key
      let marked := (found.2.count length).markAll (table.unit.size length) now
      return ({ action := found.2.action, colors := marked.1 },
        { table.putObject found.1 marked.2 with tally := table.tally.addAll marked.1 }) := by
  cases hfound : table.require key <;> simp [Table.hit, Routine.hit, hfound, putObject]

theorem configure_eq (key : Bytes) (slot : Nat) (profile : Profile) :
    table.configure key slot profile = do
      let found ← table.requireMeter key slot
      let record ← profile.toRecord table.timer
      return table.putObject found.1 (found.2.1.putMeter slot record) := by
  cases hmeter : table.requireMeter key slot <;> cases hrecord : profile.toRecord table.timer <;>
    simp [configure, Routine.after, Routine.configure, hmeter, hrecord]

theorem reset_eq (key : Bytes) (slot : Nat) :
    table.reset key slot = do
      let found ← table.requireMeter key slot
      return table.putObject found.1 (found.2.1.putMeter slot {}) := by
  cases hmeter : table.requireMeter key slot <;> simp [reset, Routine.after, Routine.reset, hmeter]

/-! ### Frames -/

/-- `value` is decoded to its last meter before the first section of an entry is written. -/
theorem atomic_update (key value : Bytes) : (Routine.update key value).Atomic := by
  refine Routine.readOnly_get.bind fun table => (Routine.readOnly_lift _).bind fun decoded => ?_
  split
  next => exact (Routine.total_set _).atomic
  next => exact (Routine.total_set _).atomic

/-- `key` is removed before it is known whether it was there. If it was not, this did nothing. -/
theorem atomic_delete (key : Bytes) : (Routine.delete key).Atomic := by
  intro table error reached hperform
  rw [Routine.delete, Routine.perform_get_bind, Routine.perform_set_bind] at hperform
  split at hperform
  next habsent =>
    cases hperform
    have herase := UnorderedMap.erase_eq_self (Option.isNone_iff_eq_none.mp habsent)
    rw [herase]
  next => cases hperform

theorem atomic_executeFrom (key : Bytes) (slot : Nat) (incoming : Color) (length : UInt32) (now : UInt64) :
    (Routine.executeFrom key slot incoming length now).Atomic :=
  Routine.readOnly_get.bind fun _ => (Routine.readOnly_lift _).bind fun _ =>
    ((Routine.total_modify _).bind fun _ => (Routine.total_modify _).bind fun _ => Routine.total_pure _).atomic

theorem atomic_hit (key : Bytes) (length : UInt32) (now : UInt64) : (Routine.hit key length now).Atomic :=
  Routine.readOnly_get.bind fun _ => (Routine.readOnly_lift _).bind fun _ =>
    ((Routine.total_modify _).bind fun _ => (Routine.total_modify _).bind fun _ =>
      (Routine.total_modify _).bind fun _ => Routine.total_pure _).atomic

theorem atomic_configure (key : Bytes) (slot : Nat) (profile : Profile) :
    (Routine.configure key slot profile).Atomic :=
  Routine.readOnly_get.bind fun _ => (Routine.readOnly_lift _).bind fun _ =>
    (Routine.readOnly_lift _).bind fun _ => (Routine.total_modify _).atomic

theorem atomic_reset (key : Bytes) (slot : Nat) : (Routine.reset key slot).Atomic :=
  Routine.readOnly_get.bind fun _ => (Routine.readOnly_lift _).bind fun _ => (Routine.total_modify _).atomic

theorem atomic_routine (operation : Operation) : operation.routine.Atomic := by
  cases operation with
  | update key value => exact (atomic_update key value).map _
  | delete key => exact (atomic_delete key).map _
  | execute key slot length now => exact (atomic_executeFrom key slot .green length now).map _
  | executeFrom key slot incoming length now => exact (atomic_executeFrom key slot incoming length now).map _
  | hit key length now => exact (atomic_hit key length now).map _
  | configure key slot profile => exact (atomic_configure key slot profile).map _
  | reset key slot => exact (atomic_reset key slot).map _
  | loadTally | countHeld => exact (Routine.total_modify _).atomic.map _
  | entryValue | read =>
    exact Routine.readOnly_get.bind fun _ => (Routine.readOnly_lift _).bind fun _ => (Routine.total_pure _).atomic
  | dump | tally => exact Routine.readOnly_get.bind fun _ => (Routine.total_pure _).atomic
  | lookup key =>
    refine Routine.readOnly_get.bind fun table => ?_
    split <;> exact (Routine.total_pure _).atomic
  | markHeld id slot incoming size now =>
    refine Routine.readOnly_get.bind fun table => ?_
    split
    next => exact ((Routine.total_set _).bind fun _ => Routine.total_pure _).atomic
    next => exact (Routine.total_pure _).atomic

/-- The answer to an operation on `table` and the table after it, as a value. -/
def attempt (table : Table) : Operation → Except Error (Answer × Table)
  | .update key value => return (.done, ← table.update key value)
  | .delete key => return (.done, ← table.delete key)
  | .lookup key =>
    match table.find? key with
    | some (_, entry) => .ok (.entry table.layout entry, table)
    | none => .ok (.absent, table)
  | .entryValue key => return (.bytes (← table.entryValue key), table)
  | .dump => return (.entries table.dump, table)
  | .execute key slot length now => do
    let (color, next) ← table.execute key slot length now
    return (.color color, next)
  | .executeFrom key slot incoming length now => do
    let (color, next) ← table.executeFrom key slot incoming length now
    return (.color color, next)
  | .hit key length now => do
    let (hit, next) ← table.hit key length now
    return (.hit hit, next)
  | .configure key slot profile => return (.done, ← table.configure key slot profile)
  | .read key slot => return (.record (← table.read key slot), table)
  | .reset key slot => return (.done, ← table.reset key slot)
  | .tally => return (.tally table.tally, table)
  | .loadTally tally => return (.done, table.loadTally tally)
  | .countHeld id length => return (.done, table.countObject id length)
  | .markHeld id slot incoming size now =>
    match table.markObjectFrom? id slot incoming size now with
    | some (color, next) => .ok (.color color, next)
    | none => .ok (.absent, table)

/-- `table.attempt operation` is what the routine of `operation` computes. -/
theorem attempt_routine (operation : Operation) : operation.routine.attempt table = table.attempt operation := by
  cases operation with
  | execute | executeFrom | hit => exact Routine.attempt_map ..
  | update | delete | configure | reset => exact Routine.attempt_map_unit ..
  | read key slot => cases h : table.read key slot <;> simp [Operation.routine, attempt, h]
  | entryValue key => cases h : table.entryValue key <;> simp [Operation.routine, attempt, h]
  | lookup key => cases h : table.find? key <;> simp [Operation.routine, attempt, h]
  | markHeld id slot incoming size now =>
    cases h : table.markObjectFrom? id slot incoming size now <;> simp [Operation.routine, attempt, h]
  | dump => rfl
  | tally => rfl
  | loadTally tally => rfl
  | countHeld id length => rfl

/-- To perform an `operation` on `table` is to attempt it. If it is refused, `table` is as it was. -/
theorem perform_eq_settle (operation : Operation) :
    table.perform operation = settle table (table.attempt operation) := by
  rw [perform, (atomic_routine operation).perform_eq_settle, attempt_routine]

theorem perform_eq_self_of_error {table : Table} {operation : Operation} {error : Error}
    (h : (table.perform operation).1 = .error error) : (table.perform operation).2 = table := by
  rw [perform_eq_settle] at h ⊢
  exact settle_eq_self h

end Table

end TrafficMeter
