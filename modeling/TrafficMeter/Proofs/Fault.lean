import TrafficMeter.Proofs.Invariant
import TrafficMeter.Proofs.LayoutWord

/-!
# Which operations are refused

`Store.fault?` and `Table.fault?` tell in advance whether an operation is refused, and with which error, from
the operation and the state alone. What an operation points to is looked at before what it brings along, and of
what it brings along the first thing that is wrong is reported: the length before the levels, the peak tier
before the committed one, and one meter before the next.

`refusal` is the error of an outcome. The lemmas about it say where the error of each step of an operation
comes from, and they are put together as the operations are made of these steps.

## Main definitions

* `Store.fault?`, `Table.fault?`: what is wrong with an operation;
* `Table.Reachable`: the tables that there can be;
* `TurnsOut`: how an operation with a certain fault turns out.

## Main results

* `Store.refusal_attempt`, `Table.Intact.refusal_attempt`: the error of an operation is its fault;
* `refused_exactly_for_fault`: and then nothing changes.
-/

namespace TrafficMeter

section Refusal

variable {ε α β : Type}

/-- The error of an outcome, if it is one. -/
def refusal : Except ε α → Option ε
  | .ok _ => none
  | .error error => some error

@[simp]
theorem refusal_ok (value : α) : refusal (.ok value : Except ε α) = none := rfl

@[simp]
theorem refusal_error (error : ε) : refusal (.error error : Except ε α) = some error := rfl

@[simp]
theorem refusal_map (f : α → β) (outcome : Except ε α) : refusal (outcome.map f) = refusal outcome := by
  cases outcome <;> rfl

/-- Of two steps the error of `first` counts, and otherwise that of what comes `next`. -/
theorem refusal_bind {first : Except ε α} {next : α → Except ε β} {fault? : Option ε}
    (h : ∀ a, first = .ok a → refusal (next a) = fault?) :
    refusal (first >>= next) = (refusal first).or fault? := by
  cases first with
  | ok a => exact h a rfl
  | error error => rfl

/-- A second step that cannot fail adds no error. -/
theorem refusal_bind_ok {first : Except ε α} {next : α → Except ε β}
    (h : ∀ a, first = .ok a → refusal (next a) = none) : refusal (first >>= next) = refusal first := by
  rw [refusal_bind h, Option.or_none]

/-- Of checks that are made one after the other on a `list`, the first error counts. -/
theorem refusal_forM (check : α → Except ε Unit) (list : List α) :
    refusal (list.forM check) = list.findSome? fun a => refusal (check a) := by
  induction list with
  | nil => rfl
  | cons head rest ih =>
    rw [List.forM, refusal_bind fun _ _ => ih, List.findSome?_cons]
    cases refusal (check head) <;> rfl

/-- Of results that are computed one after the other on a `list`, the first error counts. -/
theorem refusal_mapM {f : α → Except ε β} {fault? : α → Option ε} {list : List α}
    (h : ∀ a ∈ list, refusal (f a) = fault? a) : refusal (list.mapM f) = list.findSome? fault? := by
  induction list with
  | nil => rfl
  | cons head rest ih =>
    obtain ⟨hhead, hrest⟩ := List.forall_mem_cons.mp h
    -- What comes after the head fails as the rest of the list does, whatever the head gave.
    have hnext (first : β) : refusal (do return first :: (← rest.mapM f)) = rest.findSome? fault? :=
      (refusal_bind_ok fun _ _ => rfl).trans (ih hrest)
    rw [List.mapM_cons, refusal_bind fun first _ => hnext first, hhead, List.findSome?_cons]
    cases fault? head <;> rfl

end Refusal

/-- The `bucket` of a `tier` is at fault if it holds more than fits into it. -/
def Bucket.fault? (bucket : Bucket) (tier : Tier) : Option Error :=
  if bucket.level ≤ bucket.capacity then none
  else some (.invalidConfig (.overfull tier bucket.level bucket.capacity))

/-- The `limit` of a `tier` is at fault if its rate needs a period or a quantum that is no word. -/
def Limit.fault? (limit : Limit) (timer : Timer) (tier : Tier) : Option Error :=
  let pace := Pace.choose timer.resolution.toNat limit.rate.toNat
  if pace.1 < UInt64.size ∧ pace.2 < UInt64.size then none
  else some (.rateOverflow tier limit.rate timer.resolution)

namespace Record

/-- What is wrong with `record`: the peak bucket is looked at before the committed one. -/
def fault? (record : Record) : Option Error :=
  (record.peak.fault? .peak).or (record.committed.fault? .committed)

/-- What is wrong with a raw record: its length is looked at before its levels. -/
def rawFault? (bytes : Bytes) : Option Error :=
  if bytes.length = byteLength then (decode bytes).fault?
  else some (.invalidLength .record byteLength bytes.length)

/-- `validate` refuses a `record` for an overfull bucket. -/
theorem refusal_validate (record : Record) : refusal record.validate = record.fault? := by
  simp only [validate, fault?, Bucket.fault?, Bucket.withinCapacity, decide_eq_true_eq, ite_not]
  split
  · split <;> rfl
  · rfl

/-- `ofBytes` refuses a raw record for its length or its levels. -/
theorem refusal_ofBytes (bytes : Bytes) : refusal (ofBytes bytes) = rawFault? bytes := by
  rw [ofBytes, rawFault?]
  by_cases hlength : bytes.length = byteLength
  · simp only [hlength, ne_eq, not_true, if_false, if_true, pure_eq_ok]
    exact (refusal_bind_ok fun _ _ => rfl).trans (refusal_validate _)
  · simp [hlength]

end Record

namespace Profile

/-- What is wrong with `profile`: the peak limit is looked at before the committed one. -/
def fault? (profile : Profile) (timer : Timer) : Option Error :=
  (profile.peak.fault? timer .peak).or (profile.committed.fault? timer .committed)

/-- `toRecord` refuses a `profile` for a rate that overflows. -/
theorem refusal_toRecord (profile : Profile) (timer : Timer) :
    refusal (profile.toRecord timer) = profile.fault? timer := by
  have hbucket (limit : Limit) (tier : Tier) :
      refusal (limit.toBucket timer tier) = limit.fault? timer tier := by
    rw [Limit.toBucket, refusal_bind_ok fun _ _ => rfl]
    simp only [Pace.ofRate, Limit.fault?]
    split <;> rfl
  -- The committed limit is judged without regard to the bucket that the peak limit gave.
  have hcommitted (peak : Bucket) :
      refusal (do
        let committed ← profile.committed.toBucket timer .committed
        return ({ peak, committed } : Record)) = profile.committed.fault? timer .committed :=
    (refusal_bind_ok fun _ _ => rfl).trans (hbucket _ _)
  rw [toRecord, refusal_bind fun peak _ => hcommitted peak, hbucket, fault?]

end Profile

/-- What is wrong with what a request brings along. -/
def Request.fault? (timer : Timer) : Request → Option Error
  | .configure profile => profile.fault? timer
  | .writeBytes value => Record.rawFault? value
  | _ => none

/-- A meter refuses a `request` for what it brings along, whatever the state of the meter. -/
theorem Record.refusal_serve (record : Record) (unit : MeasureUnit) (timer : Timer) (request : Request) :
    refusal (record.serve unit timer request) = request.fault? timer := by
  cases request with
  | configure profile => rw [serve, refusal_map, Profile.refusal_toRecord, Request.fault?]
  | writeBytes value => rw [serve, refusal_map, Record.refusal_ofBytes, Request.fault?]
  | _ => rfl

namespace Store

variable (store : Store)

/-- `index` is at fault if `store` has no meter there. -/
def indexFault? (index : UInt32) : Option Error :=
  if index.toNat < store.capacity then none
  else some (.invalidIndex store.name index store.capacity)

/-- A raw `key` is at fault if it does not have four bytes, and otherwise with its index. -/
def keyFault? (key : Bytes) : Option Error :=
  if key.length = 4 then store.indexFault? (key.uint32At 0)
  else some (.invalidLength .key 4 key.length)

/-- What is wrong with the place that an operation points to. -/
def addressFault? : Operation → Option Error
  | .execute index .. | .executeFrom index .. | .markFrom index .. | .configure index _ | .read index
  | .reset index => store.indexFault? index
  | .readValue key | .writeValue key _ => store.keyFault? key
  | .records | .restore _ | .tally | .loadTally _ => none

/-- What is wrong with what an operation brings along. -/
def contentFault? : Operation → Option Error
  | .configure _ profile => profile.fault? store.timer
  | .writeValue _ value => Record.rawFault? value
  | .restore records =>
    if records.length = store.capacity then records.findSome? Record.fault?
    else some (.invalidConfig (.recordCount store.name store.capacity records.length))
  | _ => none

/-- What is wrong with `operation`. The place that it points to is looked at before what it brings along. -/
def fault? (operation : Operation) : Option Error :=
  (store.addressFault? operation).or (store.contentFault? operation)

/-- A meter cannot be read exactly if its `index` is at fault. -/
theorem refusal_read (index : UInt32) : refusal (store.read index) = store.indexFault? index := by
  rw [read, indexFault?, capacity]
  by_cases hlt : index.toNat < store.records.length
  · rw [List.getElem?_eq_getElem hlt, if_pos hlt]
    rfl
  · rw [List.getElem?_eq_none (Nat.le_of_not_lt hlt), if_neg hlt]
    rfl

/-- A `request` is refused for its `index` or for what it brings along. -/
theorem refusal_serve (index : UInt32) (request : Request) :
    refusal (store.serve index request) = (store.indexFault? index).or (request.fault? store.timer) := by
  rw [serve, ← refusal_read]
  refine refusal_bind fun record _ => ?_
  rw [refusal_bind_ok fun _ _ => rfl, Record.refusal_serve]

/-- A `request` under a raw `key` is refused for `key` or for what it brings along. -/
theorem refusal_serve_key (key : Bytes) (request : Request) :
    refusal (indexOfKey key >>= fun index => store.serve index request) =
      (store.keyFault? key).or (request.fault? store.timer) := by
  rw [indexOfKey, keyFault?]
  split
  · exact store.refusal_serve _ _
  · rfl

/-- `restore` refuses `records` if there are too few or too many of them, or one that is overfull. -/
theorem refusal_restore (records : List Record) :
    refusal (store.restore records) = store.contentFault? (.restore records) := by
  rw [restore_eq, refusal_bind_ok fun _ _ => rfl, checkRecords, contentFault?]
  by_cases hlength : records.length = store.capacity
  · simp only [hlength, ne_eq, not_true, if_false, if_true, refusal_forM, Record.refusal_validate]
  · simp [hlength]

/-- An `operation` is refused exactly with its fault. -/
theorem refusal_attempt (operation : Operation) :
    refusal (store.attempt operation) = store.fault? operation := by
  cases operation with
  | records => rfl
  | tally => rfl
  | loadTally tally => rfl
  | restore records =>
    rw [attempt, refusal_bind_ok fun _ _ => rfl, refusal_restore]
    rfl
  | readValue key => rw [attempt_eq_serve rfl]; exact store.refusal_serve_key key _
  | writeValue key value => rw [attempt_eq_serve rfl]; exact store.refusal_serve_key key _
  | _ => rw [attempt_eq_serve rfl]; exact store.refusal_serve _ _

end Store

namespace Entry

/-- What is wrong with a raw `value`: its length is looked at before its meters. The sizes are computed with
words. -/
def rawFault? (layout : Layout) (value : Bytes) : Option Error :=
  if value.length = layout.valueWord.toNat then
    (List.range layout.meters.toNat).findSome? fun slot => (Record.decode (wordMeter layout value slot)).fault?
  else some (.invalidLength .entryValue layout.valueWord.toNat value.length)

/-- A `value` of the right length has room for a raw record in each `slot`. -/
theorem length_rawMeter {layout : Layout} {value : Bytes} (hlength : value.length = layout.valueLength)
    {slot : Nat} (hslot : slot < layout.meters.toNat) :
    (rawMeter layout value slot).length = Record.byteLength := by
  simp only [rawMeter, Bytes.slice, List.length_take, List.length_drop, hlength, Layout.valueLength,
    Layout.meterOffset, Record.byteLength]
  omega

/-- `ofBytes` refuses a `value` for its length or for an overfull meter. -/
theorem refusal_ofBytes {layout : Layout} (hsize : layout.valueLength < UInt64.size) (value : Bytes) :
    refusal (ofBytes layout value) = rawFault? layout value := by
  rw [ofBytes, rawFault?, layout.toNat_valueWord hsize]
  by_cases hlength : value.length = layout.valueLength
  · simp only [hlength, ne_eq, not_true, if_false, if_true, pure_eq_ok]
    refine (refusal_bind_ok fun _ _ => rfl).trans ?_
    refine refusal_mapM fun slot hslot => ?_
    -- Within a value of the right length only the levels of a meter can be wrong.
    have hmeter := length_rawMeter hlength (List.mem_range.mp hslot)
    rw [wordMeter_eq_rawMeter hsize value (List.mem_range.mp hslot), Record.refusal_ofBytes, Record.rawFault?,
      if_pos hmeter]
  · simp [hlength]

end Entry

namespace Table

variable (table : Table)

/-- `key` is at fault if `table` has no entry under it. -/
def keyFault? (key : Bytes) : Option Error :=
  if (table.lookup? key).isSome then none else some (.entryNotFound table.name key)

/-- `slot` is at fault if the layout has no meter there. -/
def slotFault? (slot : Nat) : Option Error :=
  if slot < table.layout.meters.toNat then none
  else some (.invalidSlot table.name slot table.layout.meters.toNat)

/-- What is wrong with the place that an operation points to: its key is looked at before its slot. -/
def addressFault? : Operation → Option Error
  | .delete key | .entryValue key | .hit key .. => table.keyFault? key
  | .execute key slot .. | .executeFrom key slot .. | .configure key slot _ | .read key slot
  | .reset key slot => (table.keyFault? key).or (table.slotFault? slot)
  | .update .. | .lookup _ | .dump | .tally | .loadTally _ | .countHeld .. | .markHeld .. => none

/-- What is wrong with what an operation brings along. -/
def contentFault? : Operation → Option Error
  | .update _ value => Entry.rawFault? table.layout value
  | .configure _ _ profile => profile.fault? table.timer
  | _ => none

/-- What is wrong with `operation`. The place that it points to is looked at before what it brings along. -/
def fault? (operation : Operation) : Option Error :=
  (table.addressFault? operation).or (table.contentFault? operation)

variable {table} {timer : Timer} {description : TableDescription}

/-- In an intact table there is no entry under `key` exactly if `key` is at fault. -/
theorem Intact.refusal_require (h : table.Intact timer description) (key : Bytes) :
    refusal (table.require key) = table.keyFault? key := by
  rw [require, keyFault?, find?]
  cases hid : table.lookup? key with
  | none => rfl
  | some id =>
    -- The object of a key is never missing.
    obtain ⟨entry, hentry⟩ : ∃ entry, table.object? id = some entry :=
      ⟨_, List.getElem?_eq_getElem (h.lookup_lt key id hid)⟩
    simp [hentry]

/-- In an intact table there is no meter in `slot` of the entry under `key` exactly if `key` or `slot` is at
fault. -/
theorem Intact.refusal_requireMeter (h : table.Intact timer description) (key : Bytes) (slot : Nat) :
    refusal (table.requireMeter key slot) = (table.keyFault? key).or (table.slotFault? slot) := by
  rw [requireMeter, ← h.refusal_require]
  refine refusal_bind fun found hfound => ?_
  obtain ⟨id, entry⟩ := found
  -- The slot is checked against the meters of the entry, which are as many as the layout says.
  have hlength : entry.meters.length = table.layout.meters.toNat := by
    rw [(h.fits_found (require_eq_ok_iff.mp hfound)).length_meters, h.layout_eq]
  simp only [slotFault?, ← hlength]
  by_cases hslot : slot < entry.meters.length
  · simp [hslot]
  · simp [hslot]

/-- A `request` is refused for its `key`, its `slot` or what it brings along. -/
theorem Intact.refusal_serve (h : table.Intact timer description) (key : Bytes) (slot : Nat)
    (request : Request) :
    refusal (table.serve key slot request) =
      ((table.keyFault? key).or (table.slotFault? slot)).or (request.fault? table.timer) := by
  rw [serve, ← h.refusal_requireMeter]
  refine refusal_bind fun found _ => ?_
  rw [refusal_bind_ok fun _ _ => rfl, Record.refusal_serve]

/-- An `operation` on an intact table is refused exactly with its fault, if the length of values fits into a
word. -/
theorem Intact.refusal_attempt (h : table.Intact timer description)
    (hsize : table.layout.valueLength < UInt64.size) (operation : Operation) :
    refusal (table.attempt operation) = table.fault? operation := by
  cases operation with
  | update key value =>
    -- A key of any length may be written, so only the value can be wrong.
    rw [attempt, refusal_bind_ok fun _ _ => rfl, update_eq, refusal_bind_ok fun _ _ => rfl,
      Entry.refusal_ofBytes hsize]
    rfl
  | delete key =>
    rw [attempt, refusal_bind_ok fun _ _ => rfl, delete_eq]
    simp only [fault?, addressFault?, contentFault?, Option.or_none, keyFault?]
    split <;> rfl
  | entryValue key =>
    rw [attempt, refusal_bind_ok fun _ _ => rfl, entryValue, refusal_bind_ok fun _ _ => rfl, h.refusal_require]
    exact (Option.or_none ..).symm
  | hit key length now =>
    rw [attempt, refusal_bind_ok fun _ _ => rfl, hit_eq, refusal_bind_ok fun _ _ => rfl, h.refusal_require]
    exact (Option.or_none ..).symm
  | lookup key =>
    rw [attempt]
    split <;> rfl
  | markHeld id slot incoming size now =>
    rw [attempt]
    split <;> rfl
  | dump => rfl
  | tally => rfl
  | loadTally tally => rfl
  | countHeld id length => rfl
  | _ => rw [attempt_eq_serve rfl]; exact h.refusal_serve _ _ _

/-- The tables that there can be: those that are made empty, those of a pipeline after any history, and those
that any operation leaves. -/
inductive Reachable : Table → Prop
  | create (name : String) (layout : Layout) (unit : MeasureUnit) (timer : Timer) :
      Reachable (create name layout unit timer)
  | ofPipeline {description : Description} {start : Pipeline} {history : List Pipeline.Operation}
      {name : String} {table : Table} (hstart : Pipeline.ofDescription description = .ok start)
      (htable : (start.run history).2.tables.find? name = some table) : Reachable table
  | perform {table : Table} (h : Reachable table) (operation : Operation) :
      Reachable (table.perform operation).2

/-- Every table that there can be is intact. -/
theorem Reachable.intact (h : table.Reachable) : ∃ timer description, table.Intact timer description := by
  induction h with
  | create name layout unit timer => exact ⟨timer, _, intact_tableOf timer ⟨name, layout, unit⟩⟩
  | ofPipeline hstart htable =>
    obtain ⟨described, -, hintact⟩ :=
      ((Pipeline.intact_of_ofDescription hstart).run _).exists_table htable
    exact ⟨_, described, hintact⟩
  | perform _ operation ih =>
    obtain ⟨timer, description, hintact⟩ := ih
    exact ⟨timer, description, hintact.perform operation⟩

end Table

/-- How an operation on `state` turns out: with a fault it is refused with this error and leaves `state` as it
was, and without one it succeeds. -/
def TurnsOut {σ : Type} (state : σ) (outcome : Except Error Answer × σ) : Option Error → Prop
  | some error => outcome = (.error error, state)
  | none => ∃ answer next, outcome = (.ok answer, next)

/-- What becomes of an `outcome` turns out as its error says. -/
theorem turnsOut_settle {σ : Type} (state : σ) (outcome : Except Error (Answer × σ)) :
    TurnsOut state (settle state outcome) (refusal outcome) := by
  cases outcome with
  | ok result => exact ⟨result.1, result.2, rfl⟩
  | error error => rfl

/-- Operations on stores and tables are refused exactly for their faults, and then nothing changes: the meters,
the entries, their actions and counters, the keys and the tally are those of before. For a table this takes
values of a length that fits into a word. -/
theorem refused_exactly_for_fault :
    (∀ (store : Store) (operation : Store.Operation),
      TurnsOut store (store.perform operation) (store.fault? operation)) ∧
    (∀ table : Table, table.Reachable → table.layout.valueLength < UInt64.size →
      ∀ operation : Table.Operation,
        TurnsOut table (table.perform operation) (table.fault? operation)) := by
  constructor
  · intro store operation
    rw [← store.refusal_attempt, store.perform_eq_settle]
    exact turnsOut_settle store _
  · intro table htable hsize operation
    obtain ⟨timer, description, hintact⟩ := htable.intact
    rw [← hintact.refusal_attempt hsize, table.perform_eq_settle]
    exact turnsOut_settle table _

/-- In a table of two meters an entry is not rewritten by a value whose second meter is overfull, and a missing
slot of a missing key is reported as a missing key. -/
theorem refused_exactly_for_fault_second_meter :
    let start := Table.create "t" ⟨0, none, 2⟩ .bytes (.ofResolution 1)
    let table := (start.perform (.update [7] (Bytes.zeros 184))).2
    let overfull := Table.Operation.update [7] (Bytes.zeros 144 ++ [9] ++ Bytes.zeros 39)
    table.Reachable ∧
      table.perform overfull = (.error (.invalidConfig (.overfull .peak 9 0)), table) ∧
      table.perform (.execute [8] 5 60 1) = (.error (.entryNotFound "t" [8]), table) := by
  intro start table overfull
  have hreach : table.Reachable := .perform (.create ..) _
  have hsize : table.layout.valueLength < UInt64.size := by decide +kernel
  have hoverfull : table.fault? overfull = some (.invalidConfig (.overfull .peak 9 0)) := by decide +kernel
  have hmissing : table.fault? (.execute [8] 5 60 1) = some (.entryNotFound "t" [8]) := by decide +kernel
  clear_value table overfull
  have hrefused := refused_exactly_for_fault.2 table hreach hsize overfull
  have hrefused' := refused_exactly_for_fault.2 table hreach hsize (.execute [8] 5 60 1)
  rw [hoverfull] at hrefused
  rw [hmissing] at hrefused'
  exact ⟨hreach, hrefused, hrefused'⟩

end TrafficMeter
