import TrafficMeter.Proofs.Frame
import TrafficMeter.Proofs.Marking

/-!
# Effects of operations

Most operations of stores and tables reach one meter, ask something of it and write it back. What is asked
of the meter does not depend on where it is kept, so it is described once: `Record.serve` says what a
request answers and how it changes the record, and `attempt_eq_serve` of stores and of tables say that their
operations find the record, serve the request and put the new record in its place.

The relations `Effect` list everything that a successful operation can do. Invariants follow from them
without a look at the operations themselves.
-/

namespace TrafficMeter

/-- What can be asked of one meter. -/
inductive Request where
  /-- Meter a packet of a length in bytes. -/
  | execute (incoming : Color) (length : UInt32) (now : UInt64)
  /-- Mark a packet of a size in tokens. -/
  | mark (incoming : Color) (size now : UInt64)
  /-- Take over a new profile. -/
  | configure (profile : Profile)
  /-- Be read. -/
  | read
  /-- Become unconfigured. -/
  | reset
  /-- Be read in raw form. -/
  | readBytes
  /-- Be replaced by a raw record. -/
  | writeBytes (value : Bytes)
deriving DecidableEq

/-- What `record` answers to a request, and the record that it is afterwards. -/
def Record.serve (record : Record) (unit : MeasureUnit) (timer : Timer) :
    Request → Except Error (Answer × Record)
  | .execute incoming length now =>
    let (color, next) := record.markFrom incoming (unit.size length) now
    .ok (.color color, next)
  | .mark incoming size now =>
    let (color, next) := record.markFrom incoming size now
    .ok (.color color, next)
  | .configure profile => (profile.toRecord timer).map (.done, ·)
  | .read => .ok (.record record, record)
  | .reset => .ok (.done, {})
  | .readBytes => .ok (.bytes record.toBytes, record)
  | .writeBytes value => (Record.ofBytes value).map (.done, ·)

/-- The `tally` after `request` was answered. Only metered packets are counted. -/
def Request.tally (request : Request) (answer : Answer) (tally : Tally) : Tally :=
  match request, answer with
  | .execute .., .color color => tally.add color
  | _, _ => tally

namespace Store

/-- Serves `request` on the meter of `index`. -/
def serve (store : Store) (index : UInt32) (request : Request) : Except Error (Answer × Store) := do
  let record ← store.read index
  let (answer, next) ← record.serve store.unit store.timer request
  return (answer, { store.put index next with tally := request.tally answer store.tally })

/-- The meter that an operation reaches, unless its key is malformed, and what it asks of it. There is none if
the operation is about the whole store. -/
def Operation.request? : Operation → Option (Except Error UInt32 × Request)
  | .execute index length now => some (.ok index, .execute .green length now)
  | .executeFrom index incoming length now => some (.ok index, .execute incoming length now)
  | .markFrom index incoming size now => some (.ok index, .mark incoming size now)
  | .configure index profile => some (.ok index, .configure profile)
  | .read index => some (.ok index, .read)
  | .reset index => some (.ok index, .reset)
  | .readValue key => some (indexOfKey key, .readBytes)
  | .writeValue key value => some (indexOfKey key, .writeBytes value)
  | .records => none
  | .restore _ => none
  | .tally => none
  | .loadTally _ => none

/-- A meter is read from `index` exactly if it stands there. -/
theorem read_eq_ok_iff {store : Store} {index : UInt32} {record : Record} :
    store.read index = .ok record ↔ store.records[index.toNat]? = some record := by
  rw [read]
  cases h : store.records[index.toNat]? <;> simp

/-- Writing back the `record` that was read changes nothing. -/
theorem put_eq_self {store : Store} {index : UInt32} {record : Record}
    (h : store.read index = .ok record) : store.put index record = store := by
  obtain ⟨hlt, rfl⟩ := List.getElem?_eq_some_iff.mp (read_eq_ok_iff.mp h)
  rw [put, List.set_getElem_self]

/-- The record `written` at `index` is read back there. -/
theorem read_put_self {store : Store} {index : UInt32} {record : Record} (h : store.read index = .ok record)
    (written : Record) : (store.put index written).read index = .ok written := by
  have hlt := (List.getElem?_eq_some_iff.mp (read_eq_ok_iff.mp h)).1
  rw [read_eq_ok_iff]
  exact List.getElem?_set_self hlt

/-- Writing the meter of `index` leaves the meter of any `other` index alone. -/
theorem read_put_of_ne (store : Store) {index other : UInt32} (h : other ≠ index) (written : Record) :
    (store.put index written).read other = store.read other := by
  have hne : index.toNat ≠ other.toNat := fun heq => h (UInt32.toNat_inj.mp heq.symm)
  simp [read, put, capacity, List.getElem?_set_ne hne]

/-- A `request` is served exactly if its meter is there and serves it. The new record takes its place, and no
other part of the store changes but the tally. -/
theorem serve_eq_ok_iff {store : Store} {index : UInt32} {request : Request} {answer : Answer}
    {next : Store} :
    store.serve index request = .ok (answer, next) ↔
      ∃ record served, store.read index = .ok record ∧
        record.serve store.unit store.timer request = .ok (answer, served) ∧
        next = { store.put index served with tally := request.tally answer store.tally } := by
  simp only [serve, bind_eq_ok_iff, pure_eq_ok, Except.ok.injEq, Prod.mk.injEq, Prod.exists]
  constructor
  · rintro ⟨record, hread, _, served, hserve, rfl, rfl⟩
    exact ⟨record, served, hread, hserve, rfl⟩
  · rintro ⟨record, served, hread, hserve, rfl⟩
    exact ⟨record, hread, answer, served, hserve, rfl, rfl⟩

/-- An `operation` that reaches a meter finds it and serves its `request`. -/
theorem attempt_eq_serve {store : Store} {operation : Operation} {target : Except Error UInt32}
    {request : Request} (h : operation.request? = some (target, request)) :
    store.attempt operation = target >>= fun index => store.serve index request := by
  -- This is the only place where the operations on one meter are opened.
  cases operation with
  | execute index length now =>
    cases h
    cases hread : store.read index <;>
      simp [attempt, execute, executeFrom_eq, serve, Record.serve, Request.tally, hread]
  | executeFrom index incoming length now =>
    cases h
    cases hread : store.read index <;>
      simp [attempt, executeFrom_eq, serve, Record.serve, Request.tally, hread]
  | markFrom index incoming size now =>
    cases h
    cases hread : store.read index <;>
      simp [attempt, markFrom_eq, serve, Record.serve, Request.tally, put, hread]
  | configure index profile =>
    cases h
    cases hread : store.read index <;> cases hrecord : profile.toRecord store.timer <;>
      simp [attempt, configure_eq, serve, Record.serve, Request.tally, put, hread, hrecord]
  | read index =>
    cases h
    cases hread : store.read index <;>
      simp [attempt, serve, Record.serve, Request.tally, hread, put_eq_self]
  | reset index =>
    cases h
    cases hread : store.read index <;>
      simp [attempt, reset_eq, serve, Record.serve, Request.tally, put, hread]
  | readValue key =>
    cases h
    cases hkey : indexOfKey key with
    | error error => simp [attempt, readValue, hkey]
    | ok index =>
      cases hread : store.read index <;>
        simp [attempt, readValue, serve, Record.serve, Request.tally, hkey, hread, put_eq_self]
  | writeValue key value =>
    cases h
    cases hkey : indexOfKey key with
    | error error => simp [attempt, writeValue_eq, hkey]
    | ok index =>
      cases hread : store.read index <;> cases hrecord : Record.ofBytes value <;>
        simp [attempt, writeValue_eq, serve, Record.serve, Request.tally, put, hkey, hread, hrecord]
  | records => cases h
  | restore records => cases h
  | tally => cases h
  | loadTally tally => cases h

/-- All meters are replaced exactly if there are as many new `records` and none of them is overfull. -/
theorem restore_eq_ok_iff {store next : Store} {records : List Record} :
    store.restore records = .ok next ↔
      records.length = store.capacity ∧ (∀ record ∈ records, record.withinCapacity) ∧
        next = { store with records } := by
  have hvalid : records.forM Record.validate = .ok () ↔ ∀ record ∈ records, record.withinCapacity := by
    simp only [forM_eq_ok_iff, Record.validate_eq_ok_iff]
  rw [← hvalid, restore_eq, checkRecords]
  by_cases hlength : records.length = store.capacity
  · cases records.forM Record.validate <;> simp [hlength, eq_comm]
  · simp [hlength]

/-- The operation looks at the whole store and changes nothing. -/
def Operation.isView : Operation → Bool
  | .records => true
  | .tally => true
  | _ => false

/-- What a successful operation can do to `store`: with which answers it leads to which stores. -/
inductive Effect (store : Store) : Operation → Answer → Store → Prop
  /-- It served a request to one meter. -/
  | serve {operation : Operation} {index : UInt32} {request : Request} {answer : Answer} {next : Store}
      (hrequest : operation.request? = some (.ok index, request))
      (hserve : store.serve index request = .ok (answer, next)) : Effect store operation answer next
  /-- It replaced all meters. -/
  | restore {records : List Record} {next : Store} (hrestore : store.restore records = .ok next) :
      Effect store (.restore records) .done next
  /-- It set the tally. -/
  | loadTally (tally : Tally) : Effect store (.loadTally tally) .done (store.loadTally tally)
  /-- It only looked at the store. -/
  | view {operation : Operation} {answer : Answer} (hview : operation.isView) :
      Effect store operation answer store

/-- Every successful `operation` has an `Effect`. -/
theorem effect_of_attempt {store next : Store} {operation : Operation} {answer : Answer}
    (h : store.attempt operation = .ok (answer, next)) : store.Effect operation answer next := by
  cases hrequest : operation.request? with
  | some found =>
    obtain ⟨target, request⟩ := found
    rw [attempt_eq_serve hrequest, bind_eq_ok_iff] at h
    obtain ⟨index, rfl, hserve⟩ := h
    exact .serve hrequest hserve
  | none =>
    cases operation with
    | restore records =>
      obtain ⟨restored, hrestore, hnext⟩ := bind_eq_ok_iff.mp h
      cases hnext
      exact .restore hrestore
    | loadTally tally =>
      cases h
      exact .loadTally tally
    | records =>
      cases h
      exact .view rfl
    | tally =>
      cases h
      exact .view rfl
    | _ => cases hrequest

/-- What holds of `store` and after every `Effect` on it holds after every operation. -/
theorem perform_preserves {P : Store → Prop} {store : Store} (h : P store) {operation : Operation}
    (heffect : ∀ answer next, store.Effect operation answer next → P next) :
    P (store.perform operation).2 := by
  rw [perform_eq_settle]
  exact settle_preserves h fun answer next hok => heffect answer next (effect_of_attempt hok)

end Store

namespace Table

/-- Serves `request` on the meter in `slot` of the entry under `key`. -/
def serve (table : Table) (key : Bytes) (slot : Nat) (request : Request) :
    Except Error (Answer × Table) := do
  let (id, entry, record) ← table.requireMeter key slot
  let (answer, next) ← record.serve table.unit table.timer request
  return (answer,
    { table.putObject id (entry.putMeter slot next) with tally := request.tally answer table.tally })

/-- The meter that an operation reaches, by key and slot, and what it asks of it. There is none if the
operation is about a whole entry, the whole table or a held object. -/
def Operation.request? : Operation → Option (Bytes × Nat × Request)
  | .execute key slot length now => some (key, slot, .execute .green length now)
  | .executeFrom key slot incoming length now => some (key, slot, .execute incoming length now)
  | .configure key slot profile => some (key, slot, .configure profile)
  | .read key slot => some (key, slot, .read)
  | .reset key slot => some (key, slot, .reset)
  | _ => none

/-- An `entry` is found under `key` exactly if `key` leads to an object `id` that holds it. -/
theorem find?_eq_some_iff {table : Table} {key : Bytes} {id : EntryId} {entry : Entry} :
    table.find? key = some (id, entry) ↔ table.lookup? key = some id ∧ table.object? id = some entry := by
  simp only [find?, Option.bind_eq_bind, Option.bind_eq_some_iff, Option.pure_def, Option.some.injEq,
    Prod.mk.injEq]
  constructor
  · rintro ⟨_, hid, _, hentry, rfl, rfl⟩
    exact ⟨hid, hentry⟩
  · rintro ⟨hid, hentry⟩
    exact ⟨id, hid, entry, hentry, rfl, rfl⟩

/-- `require` gives what `find?` finds. -/
theorem require_eq_ok_iff {table : Table} {key : Bytes} {found : EntryId × Entry} :
    table.require key = .ok found ↔ table.find? key = some found := by
  rw [require]
  cases h : table.find? key <;> simp

/-- The meter that `requireMeter` gives stands in `slot` of the entry that is found under `key`. -/
theorem requireMeter_eq_ok_iff {table : Table} {key : Bytes} {slot : Nat} {id : EntryId} {entry : Entry}
    {record : Record} :
    table.requireMeter key slot = .ok (id, entry, record) ↔
      table.find? key = some (id, entry) ∧ entry.meters[slot]? = some record := by
  rw [requireMeter, bind_eq_ok_iff]
  constructor
  · rintro ⟨⟨id', entry'⟩, hfound, hmeter⟩
    cases hslot : entry'.meters[slot]? with
    | none => simp [hslot] at hmeter
    | some record' =>
      simp only [hslot, pure_eq_ok, Except.ok.injEq, Prod.mk.injEq] at hmeter
      obtain ⟨rfl, rfl, rfl⟩ := hmeter
      exact ⟨require_eq_ok_iff.mp hfound, hslot⟩
  · rintro ⟨hfound, hslot⟩
    exact ⟨(id, entry), require_eq_ok_iff.mpr hfound, by simp [hslot]⟩

/-- Writing the meter in `slot` back into its place changes nothing. -/
theorem putObject_putMeter_eq_self {table : Table} {key : Bytes} {slot : Nat} {id : EntryId} {entry : Entry}
    {record : Record} (h : table.requireMeter key slot = .ok (id, entry, record)) :
    table.putObject id (entry.putMeter slot record) = table := by
  obtain ⟨hfound, hslot⟩ := requireMeter_eq_ok_iff.mp h
  obtain ⟨hid, rfl⟩ := List.getElem?_eq_some_iff.mp (find?_eq_some_iff.mp hfound).2
  obtain ⟨hlt, rfl⟩ := List.getElem?_eq_some_iff.mp hslot
  rw [Entry.putMeter, List.set_getElem_self, putObject, List.set_getElem_self]

/-- An `operation` that reaches a meter finds it and serves its `request`. -/
theorem attempt_eq_serve {table : Table} {operation : Operation} {key : Bytes} {slot : Nat}
    {request : Request} (h : operation.request? = some (key, slot, request)) :
    table.attempt operation = table.serve key slot request := by
  -- Only the five operations on one meter have a request.
  cases operation with
  | execute key slot length now =>
    cases h
    cases hmeter : table.requireMeter key slot <;>
      simp [attempt, execute, executeFrom_eq, serve, Record.serve, Request.tally, hmeter]
  | executeFrom key slot incoming length now =>
    cases h
    cases hmeter : table.requireMeter key slot <;>
      simp [attempt, executeFrom_eq, serve, Record.serve, Request.tally, hmeter]
  | configure key slot profile =>
    cases h
    cases hmeter : table.requireMeter key slot <;> cases hrecord : profile.toRecord table.timer <;>
      simp [attempt, configure_eq, serve, Record.serve, Request.tally, putObject, hmeter, hrecord]
  | read key slot =>
    cases h
    cases hmeter : table.requireMeter key slot with
    | error error => simp [attempt, read, serve, hmeter]
    | ok found =>
      -- The meter that was read is put back as it was.
      have hself := putObject_putMeter_eq_self hmeter
      simp [attempt, read, serve, Record.serve, Request.tally, hmeter, hself]
  | reset key slot =>
    cases h
    cases hmeter : table.requireMeter key slot <;>
      simp [attempt, reset_eq, serve, Record.serve, Request.tally, putObject, hmeter]
  | _ => cases h

/-- A `request` is served exactly if its meter is there and serves it. The new record takes its place, and no
other part of the table changes but the tally. -/
theorem serve_eq_ok_iff {table next : Table} {key : Bytes} {slot : Nat} {request : Request}
    {answer : Answer} :
    table.serve key slot request = .ok (answer, next) ↔
      ∃ id entry record served, table.find? key = some (id, entry) ∧ entry.meters[slot]? = some record ∧
        record.serve table.unit table.timer request = .ok (answer, served) ∧
        next = { table.putObject id (entry.putMeter slot served) with
          tally := request.tally answer table.tally } := by
  simp only [serve, bind_eq_ok_iff, pure_eq_ok, Except.ok.injEq, Prod.mk.injEq, Prod.exists]
  constructor
  · rintro ⟨id, entry, record, hmeter, _, served, hserve, rfl, rfl⟩
    obtain ⟨hfound, hslot⟩ := requireMeter_eq_ok_iff.mp hmeter
    exact ⟨id, entry, record, served, hfound, hslot, hserve, rfl⟩
  · rintro ⟨id, entry, record, served, hfound, hslot, hserve, rfl⟩
    exact ⟨id, entry, record, requireMeter_eq_ok_iff.mpr ⟨hfound, hslot⟩, answer, served, hserve, rfl, rfl⟩

/-- `value` is written exactly if it is the value of an entry. This entry revises the one under `key`, if there
is one. -/
theorem update_eq_ok_iff {table next : Table} {key value : Bytes} :
    table.update key value = .ok next ↔
      ∃ decoded, Entry.ofBytes table.layout value = .ok decoded ∧
        next = table.write key (Entry.revise (table.entryAt? key) decoded) := by
  rw [update_eq, bind_eq_ok_iff]
  simp only [pure_eq_ok, Except.ok.injEq, eq_comm (b := next)]

/-- `key` is deleted exactly if it is there. -/
theorem delete_eq_ok_iff {table next : Table} {key : Bytes} :
    table.delete key = .ok next ↔
      ∃ id, table.lookup? key = some id ∧ next = { table with index := table.index.erase key } := by
  rw [delete_eq]
  cases table.lookup? key <;> simp [eq_comm]

/-- A packet hits the entry under `key` exactly if there is one. It is counted and marked on all meters. -/
theorem hit_eq_ok_iff {table next : Table} {key : Bytes} {length : UInt32} {now : UInt64} {hit : Hit} :
    table.hit key length now = .ok (hit, next) ↔
      ∃ id entry, table.find? key = some (id, entry) ∧
        hit = ⟨entry.action, ((entry.count length).markAll (table.unit.size length) now).1⟩ ∧
        next = { table.putObject id ((entry.count length).markAll (table.unit.size length) now).2 with
          tally := table.tally.addAll hit.colors } := by
  simp only [hit_eq, bind_eq_ok_iff, require_eq_ok_iff, pure_eq_ok, Except.ok.injEq, Prod.mk.injEq,
    Prod.exists]
  constructor
  · rintro ⟨id, entry, hfound, rfl, rfl⟩
    exact ⟨id, entry, hfound, rfl, rfl⟩
  · rintro ⟨id, entry, hfound, rfl, rfl⟩
    exact ⟨id, entry, hfound, rfl, rfl⟩

/-- A mark is made on a held object `id` exactly if the object has a meter in `slot`. -/
theorem markObjectFrom?_eq_some_iff {table next : Table} {id : EntryId} {slot : Nat} {incoming color : Color}
    {size now : UInt64} :
    table.markObjectFrom? id slot incoming size now = some (color, next) ↔
      ∃ entry record, table.object? id = some entry ∧ entry.meters[slot]? = some record ∧
        color = (record.markFrom incoming size now).1 ∧
        next = table.putObject id (entry.putMeter slot (record.markFrom incoming size now).2) := by
  simp only [markObjectFrom?, Option.bind_eq_bind, Option.bind_eq_some_iff, Option.pure_def,
    Option.some.injEq, Prod.mk.injEq]
  constructor
  · rintro ⟨entry, hentry, record, hrecord, rfl, rfl⟩
    exact ⟨entry, record, hentry, hrecord, rfl, rfl⟩
  · rintro ⟨entry, record, hentry, hrecord, rfl, rfl⟩
    exact ⟨entry, hentry, record, hrecord, rfl, rfl⟩

/-- The operation looks at an entry or the whole table and changes nothing. -/
def Operation.isView : Operation → Bool
  | .lookup _ => true
  | .entryValue _ => true
  | .dump => true
  | .tally => true
  | _ => false

/-- What a successful operation can do to `table`: with which answers it leads to which tables. -/
inductive Effect (table : Table) : Operation → Answer → Table → Prop
  /-- It served a request to one meter of an entry. -/
  | serve {operation : Operation} {key : Bytes} {slot : Nat} {request : Request} {answer : Answer}
      {next : Table} (hrequest : operation.request? = some (key, slot, request))
      (hserve : table.serve key slot request = .ok (answer, next)) : Effect table operation answer next
  /-- It wrote a value. -/
  | update {key value : Bytes} {next : Table} (hupdate : table.update key value = .ok next) :
      Effect table (.update key value) .done next
  /-- It deleted a key. -/
  | delete {key : Bytes} {next : Table} (hdelete : table.delete key = .ok next) :
      Effect table (.delete key) .done next
  /-- It let a packet hit an entry. -/
  | hit {key : Bytes} {length : UInt32} {now : UInt64} {hit : Hit} {next : Table}
      (hhit : table.hit key length now = .ok (hit, next)) : Effect table (.hit key length now) (.hit hit) next
  /-- It counted a packet on a held object. -/
  | countHeld (id : EntryId) (length : UInt32) :
      Effect table (.countHeld id length) .done (table.countObject id length)
  /-- It marked a packet on a held object. -/
  | markHeld {id : EntryId} {slot : Nat} {incoming color : Color} {size now : UInt64} {next : Table}
      (hmark : table.markObjectFrom? id slot incoming size now = some (color, next)) :
      Effect table (.markHeld id slot incoming size now) (.color color) next
  /-- It found no such meter in a held object. -/
  | markAbsent {id : EntryId} {slot : Nat} {incoming : Color} {size now : UInt64}
      (hmark : table.markObjectFrom? id slot incoming size now = none) :
      Effect table (.markHeld id slot incoming size now) .absent table
  /-- It set the tally. -/
  | loadTally (tally : Tally) : Effect table (.loadTally tally) .done (table.loadTally tally)
  /-- It only looked at the table. -/
  | view {operation : Operation} {answer : Answer} (hview : operation.isView) :
      Effect table operation answer table

/-- Every successful `operation` has an `Effect`. -/
theorem effect_of_attempt {table next : Table} {operation : Operation} {answer : Answer}
    (h : table.attempt operation = .ok (answer, next)) : table.Effect operation answer next := by
  -- Operations on one meter share an effect, and each of the others has its own.
  cases hrequest : operation.request? with
  | some found =>
    obtain ⟨key, slot, request⟩ := found
    rw [attempt_eq_serve hrequest] at h
    exact .serve hrequest h
  | none =>
    cases operation with
    | update key value =>
      obtain ⟨updated, hupdate, hnext⟩ := bind_eq_ok_iff.mp h
      cases hnext
      exact .update hupdate
    | delete key =>
      obtain ⟨deleted, hdelete, hnext⟩ := bind_eq_ok_iff.mp h
      cases hnext
      exact .delete hdelete
    | lookup key =>
      rw [attempt] at h
      split at h <;> (cases h; exact .view rfl)
    | entryValue key =>
      obtain ⟨value, -, hnext⟩ := bind_eq_ok_iff.mp h
      cases hnext
      exact .view rfl
    | dump =>
      cases h
      exact .view rfl
    | hit key length now =>
      obtain ⟨⟨hit, hitNext⟩, hhit, hnext⟩ := bind_eq_ok_iff.mp h
      cases hnext
      exact .hit hhit
    | tally =>
      cases h
      exact .view rfl
    | loadTally tally =>
      cases h
      exact .loadTally tally
    | countHeld id length =>
      cases h
      exact .countHeld id length
    | markHeld id slot incoming size now =>
      rw [attempt] at h
      split at h
      next color marked hmark =>
        cases h
        exact .markHeld hmark
      next hmark =>
        cases h
        exact .markAbsent hmark
    | _ => cases hrequest

/-- What holds of `table` and after every `Effect` on it holds after every operation. -/
theorem perform_preserves {P : Table → Prop} {table : Table} (h : P table) {operation : Operation}
    (heffect : ∀ answer next, table.Effect operation answer next → P next) :
    P (table.perform operation).2 := by
  rw [perform_eq_settle]
  exact settle_preserves h fun answer next hok => heffect answer next (effect_of_attempt hok)

end Table

end TrafficMeter
