import TrafficMeter.Proofs.Replay

/-!
# How entries respond

An operation that names a key and asks something of the entry under it, or of one of its meters, works in one
way: the entry is looked up, it responds, and what it became is written under the key. This module says what
an entry responds (`Table.respond`), that this is what operations do (`Table.attempt_eq_respond`), and how
responses follow each other: those of different entries or of different meters can be written in either order.
-/

namespace TrafficMeter

namespace Tally

theorem add_comm (tally : Tally) (first second : Color) :
    (tally.add first).add second = (tally.add second).add first := by
  cases first <;> cases second <;> rfl

/-- It does not matter in which order `colors` are counted. -/
theorem addAll_perm {colors others : List Color} (h : colors.Perm others) (tally : Tally) :
    tally.addAll colors = tally.addAll others :=
  h.foldl_eq' (fun _ _ _ _ tally => tally.add_comm _ _) tally

theorem addAll_comm (tally : Tally) (first second : List Color) :
    (tally.addAll first).addAll second = (tally.addAll second).addAll first := by
  simp only [addAll, ← List.foldl_append]
  exact addAll_perm List.perm_append_comm tally

end Tally

/-- The colours that are counted when `request` was answered by `answer`. -/
def Request.colors (request : Request) (answer : Answer) : List Color :=
  match request, answer with
  | .execute .., .color color => [color]
  | _, _ => []

theorem Request.tally_eq_addAll (request : Request) (answer : Answer) (tally : Tally) :
    request.tally answer tally = tally.addAll (request.colors answer) := by
  cases request with
  | execute incoming length now => cases answer <;> rfl
  | _ => rfl

/-- Meters in two different slots can be replaced in either order. -/
theorem Entry.putMeter_comm {slot slot' : Nat} (h : slot ≠ slot') (entry : Entry) (record record' : Record) :
    (entry.putMeter slot record).putMeter slot' record' =
      (entry.putMeter slot' record').putMeter slot record := by
  simp only [putMeter, List.set_comm record record' h]

namespace Table

variable {timer : Timer} {description : TableDescription} {table : Table} {key key' : Bytes} {slot : Nat}
  {operation : Operation}

/-- What can be asked of the entry under a key. -/
inductive Call where
  /-- Serve a request with the meter in a slot. -/
  | meter (slot : Nat) (request : Request)
  /-- Take a packet. -/
  | hit (length : UInt32) (now : UInt64)
  /-- Be rewritten by a raw value. -/
  | update (value : Bytes)

/-- The key whose entry an operation is for, and what it asks of the entry. -/
def Operation.call? : Operation → Option (Bytes × Call)
  | .hit key length now => some (key, .hit length now)
  | .update key value => some (key, .update value)
  | operation => operation.request?.map fun found => (found.1, .meter found.2.1 found.2.2)

/-- What an entry does when something is asked of it. -/
structure Response where
  /-- What is answered. -/
  answer : Answer
  /-- The entry afterwards. -/
  entry : Entry
  /-- The colours that are counted. -/
  colors : List Color := []

/-- What is done with the entry that was `found` under `key`, if any, when something is asked of it. -/
def respond (table : Table) (key : Bytes) (found : Option Entry) : Call → Except Error Response
  | .meter slot request =>
    match found with
    | none => .error (.entryNotFound table.name key)
    | some entry =>
      match entry.meters[slot]? with
      | none => .error (.invalidSlot table.name slot table.layout.meters.toNat)
      | some record => (record.serve table.unit table.timer request).map fun result =>
        ⟨result.1, entry.putMeter slot result.2, request.colors result.1⟩
  | .hit length now =>
    match found with
    | none => .error (.entryNotFound table.name key)
    | some entry =>
      let (colors, marked) := (entry.count length).markAll (table.unit.size length) now
      .ok ⟨.hit ⟨entry.action, colors⟩, marked, colors⟩
  | .update value => (Entry.ofBytes table.layout value).map fun decoded =>
    { answer := .done, entry := Entry.revise found decoded }

/-- `table` after the entry under `key` gave its `response`. -/
def after (table : Table) (key : Bytes) (response : Response) : Table :=
  (table.write key response.entry).loadTally (table.tally.addAll response.colors)

theorem tally_write (key : Bytes) (entry : Entry) : (table.write key entry).tally = table.tally :=
  (congrArg Table.tally (frame_write key entry) :)

theorem attempt_eq_respond_of_request? {request : Request}
    (h : operation.request? = some (key, slot, request)) :
    table.attempt operation =
      (table.respond key (table.entryAt? key) (.meter slot request)).map fun response =>
        (response.answer, table.after key response) := by
  rw [attempt_eq_serve h, entryAt?_eq_map_find?]
  cases hfind : table.find? key with
  | none => simp [serve, requireMeter, require, hfind, respond]
  | some found =>
    obtain ⟨id, entry⟩ := found
    cases hslot : entry.meters[slot]? with
    | none => simp [serve, requireMeter, require, hfind, hslot, respond]
    | some record =>
      cases hserve : record.serve table.unit table.timer request with
      | error error => simp [serve, requireMeter, require, hfind, hslot, hserve, respond]
      | ok result =>
        simp [serve, requireMeter, require, hfind, hslot, hserve, respond, after, putObject_eq_write hfind,
          Request.tally_eq_addAll, loadTally]

/-- An `operation` for an entry lets the entry respond. -/
theorem attempt_eq_respond {call : Call} (h : operation.call? = some (key, call)) :
    table.attempt operation =
      (table.respond key (table.entryAt? key) call).map fun response =>
        (response.answer, table.after key response) := by
  cases operation with
  | hit key length now =>
    cases h
    rw [entryAt?_eq_map_find?]
    cases hfind : table.find? key with
    | none => simp [attempt, hit_eq, require, hfind, respond]
    | some found =>
      simp [attempt, hit_eq, require, hfind, respond, after, putObject_eq_write hfind, loadTally]
  | update key value =>
    cases h
    cases hentry : Entry.ofBytes table.layout value with
    | error error => simp [attempt, update_eq, hentry, respond]
    | ok decoded =>
      -- A response without colours leaves the tally as it is.
      have htally (entry : Entry) :
          (table.write key entry).loadTally (table.tally.addAll []) = table.write key entry := by
        rw [← tally_write key entry]
        rfl
      simp [attempt, update_eq, hentry, respond, after, htally]
  | execute | executeFrom | configure | read | reset =>
    cases h
    exact attempt_eq_respond_of_request? rfl
  | _ => cases h

theorem perform_eq_settle_respond {call : Call} (h : operation.call? = some (key, call)) :
    table.perform operation =
      settle table ((table.respond key (table.entryAt? key) call).map fun response =>
        (response.answer, table.after key response)) := by
  rw [perform_eq_settle, attempt_eq_respond h]

theorem perform_of_respond {call : Call} {response : Response} (hcall : operation.call? = some (key, call))
    (h : table.respond key (table.entryAt? key) call = .ok response) :
    table.perform operation = (.ok response.answer, table.after key response) := by
  rw [perform_eq_settle_respond hcall, h]
  rfl

theorem exists_respond_of_perform {call : Call} {answer : Answer} (hcall : operation.call? = some (key, call))
    (h : (table.perform operation).1 = .ok answer) :
    ∃ response, table.respond key (table.entryAt? key) call = .ok response := by
  rw [perform_eq_settle_respond hcall] at h
  cases hresponse : table.respond key (table.entryAt? key) call with
  | error error =>
    rw [hresponse] at h
    cases h
  | ok response => exact ⟨response, rfl⟩

/-- How an entry responds does not depend on other entries and on the tally. -/
theorem respond_after (response : Response) : (table.after key response).respond = table.respond := by
  funext key found call
  rw [after, write]
  split <;> cases call <;> rfl

theorem layout_after (key : Bytes) (response : Response) : (table.after key response).layout = table.layout :=
  layout_write key response.entry

theorem unit_after (key : Bytes) (response : Response) : (table.after key response).unit = table.unit :=
  (congrArg Table.unit (frame_write key response.entry) :)

theorem timer_after (key : Bytes) (response : Response) : (table.after key response).timer = table.timer :=
  (congrArg Table.timer (frame_write key response.entry) :)

theorem Intact.entryAt?_after (h : table.Intact timer description) (key : Bytes) (response : Response)
    (other : Bytes) :
    (table.after key response).entryAt? other =
      if other = key then some response.entry else table.entryAt? other :=
  h.entryAt?_write key response.entry other

theorem read_eq_ok_iff {record : Record} :
    table.read key slot = .ok record ↔
      ∃ entry, table.entryAt? key = some entry ∧ entry.meters[slot]? = some record := by
  simp only [read, bind_eq_ok_iff, Prod.exists, requireMeter_eq_ok_iff, pure_eq_ok, Except.ok.injEq,
    entryAt?_eq_map_find?, Option.map_eq_some_iff]
  constructor
  · rintro ⟨id, entry, _, ⟨hfind, hslot⟩, rfl⟩
    exact ⟨entry, ⟨id, entry, hfind, rfl⟩, hslot⟩
  · rintro ⟨entry, ⟨id, _, hfind, rfl⟩, hslot⟩
    exact ⟨id, _, record, ⟨hfind, hslot⟩, rfl⟩

theorem Intact.read_after_self (h : table.Intact timer description) {response : Response} {record : Record}
    (hslot : response.entry.meters[slot]? = some record) :
    (table.after key response).read key slot = .ok record := by
  rw [read_eq_ok_iff]
  exact ⟨response.entry, by rw [h.entryAt?_after, if_pos rfl], hslot⟩

/-! Responses that follow each other. -/

theorem after_after (response response' : Response) :
    (table.after key response).after key' response' =
      ((table.write key response.entry).write key' response'.entry).loadTally
        ((table.tally.addAll response.colors).addAll response'.colors) := by
  rw [after, after, write_loadTally]
  rfl

theorem exists_lookup_of_isSome (h : (table.entryAt? key).isSome) : ∃ id, table.lookup? key = some id := by
  obtain ⟨entry, hentry⟩ := Option.isSome_iff_exists.mp h
  obtain ⟨id, hid, -⟩ := Option.bind_eq_some_iff.mp hentry
  exact ⟨id, hid⟩

theorem write_of_lookup? {id : EntryId} (h : table.lookup? key = some id) (entry : Entry) :
    table.write key entry = table.putObject id entry := by
  rw [write, h]

/-- An entry that was rewritten twice is what was written last. -/
theorem write_write (hkey : (table.entryAt? key).isSome) (entry entry' : Entry) :
    (table.write key entry).write key entry' = table.write key entry' := by
  obtain ⟨id, hid⟩ := exists_lookup_of_isSome hkey
  have hlookup : (table.putObject id entry).lookup? key = some id := hid
  rw [write_of_lookup? hid, write_of_lookup? hlookup, write_of_lookup? hid]
  simp only [putObject, List.set_set]

/-- Entries under two different keys can be rewritten in either order. -/
theorem Intact.write_comm (h : table.Intact timer description) (hne : key ≠ key')
    (hkey : (table.entryAt? key).isSome) (hkey' : (table.entryAt? key').isSome) (entry entry' : Entry) :
    (table.write key entry).write key' entry' = (table.write key' entry').write key entry := by
  obtain ⟨id, hid⟩ := exists_lookup_of_isSome hkey
  obtain ⟨id', hid'⟩ := exists_lookup_of_isSome hkey'
  have hids : id ≠ id' := fun heq => hne (h.lookup_inj key key' id hid (heq ▸ hid'))
  have hlookup : (table.putObject id entry).lookup? key' = some id' := hid'
  have hlookup' : (table.putObject id' entry').lookup? key = some id := hid
  rw [write_of_lookup? hid, write_of_lookup? hlookup, write_of_lookup? hid', write_of_lookup? hlookup']
  simp only [Table.putObject, List.set_comm _ _ hids]

/-- After the meter in `slot` was replaced, the meter in `slot'` responds to a `request` as before. -/
theorem respond_putMeter {slot' : Nat} (hne : slot ≠ slot') (entry : Entry) (record : Record)
    (request : Request) :
    table.respond key (some (entry.putMeter slot record)) (.meter slot' request) =
      (table.respond key (some entry) (.meter slot' request)).map fun response =>
        { response with entry := response.entry.putMeter slot record } := by
  have hmeters : (entry.putMeter slot record).meters[slot']? = entry.meters[slot']? :=
    List.getElem?_set_ne hne
  cases hslot : entry.meters[slot']? with
  | none => simp only [respond, hmeters, hslot, map_error]
  | some found =>
    simp only [respond, hmeters, hslot]
    cases hserve : found.serve table.unit table.timer request with
    | error error => rfl
    | ok result => simp only [map_ok, Entry.putMeter_comm hne]

/-- If an entry responds to a `request` for the meter in `slot`, then there is a meter that served it, and the
one that it became stands in its place afterwards. -/
theorem exists_serve_of_respond {found : Option Entry} {request : Request} {response : Response}
    (h : table.respond key found (.meter slot request) = .ok response) :
    ∃ entry record answer served, found = some entry ∧ entry.meters[slot]? = some record ∧
      record.serve table.unit table.timer request = .ok (answer, served) ∧
      response.entry = entry.putMeter slot served := by
  cases found with
  | none => cases h
  | some entry =>
    cases hslot : entry.meters[slot]? with
    | none => simp [respond, hslot] at h
    | some record =>
      simp only [respond, hslot, map_eq_ok_iff] at h
      obtain ⟨⟨answer, served⟩, hserve, rfl⟩ := h
      exact ⟨entry, record, answer, served, rfl, hslot, hserve, rfl⟩

/-- A `request` to the meter in `slot` replaces this meter and leaves the rest of the entry. -/
theorem exists_putMeter_of_respond {found : Option Entry} {request : Request} {response : Response}
    (h : table.respond key found (.meter slot request) = .ok response) :
    ∃ entry record, found = some entry ∧ response.entry = entry.putMeter slot record := by
  obtain ⟨entry, _, _, served, hfound, -, -, hentry⟩ := exists_serve_of_respond h
  exact ⟨entry, served, hfound, hentry⟩

/-- After the entry under `key'` was rewritten, the one under `key` responds as before. -/
theorem Intact.perform_after (h : table.Intact timer description) {call : Call} {response : Response}
    (hcall : operation.call? = some (key, call))
    (hresponse : table.respond key (table.entryAt? key) call = .ok response) (hne : key ≠ key')
    (before : Response) :
    ((table.after key' before).perform operation).2 = (table.after key' before).after key response := by
  have hafter : (table.after key' before).respond key ((table.after key' before).entryAt? key) call =
      .ok response := by
    rw [respond_after, h.entryAt?_after, if_neg hne, hresponse]
  rw [perform_of_respond hcall hafter]

/-- After the meter in `slot'` was replaced, the meter in `slot` of the same entry responds as before. -/
theorem Intact.perform_after_putMeter (h : table.Intact timer description) {request : Request}
    {response before : Response} {slot slot' : Nat} {entry : Entry} {record : Record}
    (hcall : operation.call? = some (key, .meter slot request))
    (hresponse : table.respond key (some entry) (.meter slot request) = .ok response) (hne : slot' ≠ slot)
    (hbefore : before.entry = entry.putMeter slot' record) :
    ((table.after key before).perform operation).2 =
      (table.after key before).after key { response with entry := response.entry.putMeter slot' record } := by
  have hafter : (table.after key before).respond key ((table.after key before).entryAt? key)
      (.meter slot request) = .ok { response with entry := response.entry.putMeter slot' record } := by
    rw [respond_after, h.entryAt?_after, if_pos rfl, hbefore, respond_putMeter hne, hresponse]
    rfl
  rw [perform_of_respond hcall hafter]

end Table

end TrafficMeter
