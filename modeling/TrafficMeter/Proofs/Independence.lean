import TrafficMeter.Proofs.Conformance
import TrafficMeter.Proofs.Interleaving
import TrafficMeter.Proofs.Response

/-!
# Meters do not depend on each other

What a meter answers and becomes depends on what is asked of it, and not on what is asked of other meters in
between. For stores this is a matter of indices. In a table, an operation on a whole entry concerns the meters
in all of its slots, and operations on different slots of one entry change the same object.

- `Store.SameAt`, `Table.SameAt`: two stores or tables that one meter cannot tell apart, with a step lemma for
  operations on this meter and one for operations on others;
- `Store.independent`, `Table.independent`: operations without a common meter do not change each other's
  answers and can be swapped;
- `meters_are_independent`: what follows for runs.
-/

namespace TrafficMeter

namespace Store

variable {store other : Store} {index : UInt32} {operation first second : Operation} {request : Request}

/-- `operation` is about one meter, even if its key may be malformed. -/
def Operation.isForMeter (operation : Operation) : Bool :=
  operation.request?.isSome

/-- The index of the meter that `operation` is about. -/
def Operation.index? (operation : Operation) : Option UInt32 :=
  operation.request?.bind fun found => found.1.toOption

/-- `operation` is about the meter of `index`. -/
def Operation.concerns (index : UInt32) (operation : Operation) : Bool :=
  operation.index? = some index

theorem Operation.concerns_iff :
    operation.concerns index = true ↔ ∃ request, operation.request? = some (.ok index, request) := by
  simp only [concerns, index?, decide_eq_true_eq, Option.bind_eq_some_iff]
  constructor
  · rintro ⟨⟨target, request⟩, hrequest, htarget⟩
    cases target with
    | error error => cases htarget
    | ok target =>
      cases htarget
      exact ⟨request, hrequest⟩
  · rintro ⟨request, hrequest⟩
    exact ⟨_, hrequest, rfl⟩

theorem Operation.isForMeter_of_concerns (h : operation.concerns index = true) :
    operation.isForMeter = true := by
  obtain ⟨request, hrequest⟩ := concerns_iff.mp h
  rw [isForMeter, hrequest, Option.isSome_some]

theorem perform_eq_settle_serve (h : operation.request? = some (.ok index, request)) :
    store.perform operation = settle store (store.serve index request) := by
  rw [perform_eq_settle, attempt_eq_serve h, ok_bind]

/-- The meter of `index` cannot tell `store` and `other` apart. -/
structure SameAt (index : UInt32) (store other : Store) : Prop where
  /-- They count in the same unit. -/
  unit_eq : other.unit = store.unit
  /-- They encode rates for the same timer. -/
  timer_eq : other.timer = store.timer
  /-- They have the same meter there, or both have none. -/
  read_eq : other.read index = store.read index

/-- An `operation` on the meter of `index` answers the same in both stores and leaves the same meter. -/
theorem SameAt.perform (h : SameAt index store other) (hoperation : operation.concerns index = true) :
    (store.perform operation).1 = (other.perform operation).1 ∧
      SameAt index (store.perform operation).2 (other.perform operation).2 := by
  obtain ⟨request, hrequest⟩ := Operation.concerns_iff.mp hoperation
  rw [perform_eq_settle_serve hrequest, perform_eq_settle_serve hrequest]
  cases hread : store.read index with
  | error error =>
    have hother := h.read_eq.trans hread
    simp only [serve, hread, hother, error_bind]
    exact ⟨rfl, h⟩
  | ok record =>
    have hother := h.read_eq.trans hread
    cases hserve : record.serve store.unit store.timer request with
    | error error =>
      simp only [serve, hread, hother, ok_bind, h.unit_eq, h.timer_eq, hserve, error_bind]
      exact ⟨rfl, h⟩
    | ok result =>
      simp only [serve, hread, hother, ok_bind, h.unit_eq, h.timer_eq, hserve, pure_eq_ok]
      exact ⟨rfl, h.unit_eq, h.timer_eq,
        (other.read_put_self hother _).trans (store.read_put_self hread _).symm⟩

/-- An `operation` on another meter is of no concern to the meter of `index`. -/
theorem SameAt.perform_others (h : SameAt index store other) (hmeter : operation.isForMeter = true)
    (hoperation : operation.concerns index = false) : SameAt index (store.perform operation).2 other := by
  obtain ⟨⟨target, request⟩, hrequest⟩ := Option.isSome_iff_exists.mp hmeter
  rw [perform_eq_settle, attempt_eq_serve hrequest]
  refine settle_preserves (P := fun next => SameAt index next other) h fun answer next hok => ?_
  obtain ⟨reached, rfl, hserve⟩ := bind_eq_ok_iff.mp hok
  have hne : index ≠ reached := by
    rintro rfl
    exact Bool.eq_false_iff.mp hoperation (Operation.concerns_iff.mpr ⟨request, hrequest⟩)
  have hread := read_serve_of_ne hserve hne
  obtain ⟨record, served, -, -, rfl⟩ := serve_eq_ok_iff.mp hserve
  exact ⟨h.unit_eq, h.timer_eq, h.read_eq.trans hread.symm⟩

/-- An `operation` about a meter of which there is none, because its key is malformed, changes nothing. -/
theorem perform_eq_self (hmeter : operation.isForMeter = true)
    (hnone : ∀ index, operation.concerns index = false) : (store.perform operation).2 = store := by
  obtain ⟨⟨target, request⟩, hrequest⟩ := Option.isSome_iff_exists.mp hmeter
  rw [perform_eq_settle, attempt_eq_serve hrequest]
  cases target with
  | error error => rfl
  | ok index =>
    exact absurd (Operation.concerns_iff.mpr ⟨request, hrequest⟩) (Bool.eq_false_iff.mp (hnone index))

/-- The operation `first` does not change the answer of `second` if they are about different meters. -/
theorem perform_fst_eq (hfirst : first.isForMeter = true) (hindex : first.concerns index = false)
    (hsecond : second.concerns index = true) :
    ((store.perform first).2.perform second).1 = (store.perform second).1 := by
  have hself : SameAt index store store := ⟨rfl, rfl, rfl⟩
  exact ((hself.perform_others hfirst hindex).perform hsecond).1

/-- An `operation` on a meter that serves it changes the meter and the tally. -/
theorem perform_of_serve {record served : Record} {answer : Answer}
    (h : operation.request? = some (.ok index, request)) (hread : store.read index = .ok record)
    (hserve : record.serve store.unit store.timer request = .ok (answer, served)) :
    store.perform operation =
      (.ok answer, (store.put index served).loadTally (store.tally.addAll (request.colors answer))) := by
  rw [perform_eq_settle_serve h, serve_eq_ok_iff.mpr ⟨record, served, hread, hserve, rfl⟩, Request.tally_eq_addAll]
  rfl

/-- If an `operation` on the meter of `index` succeeded, then the meter was there and served it. -/
theorem exists_serve_of_perform {answer : Answer} (h : operation.request? = some (.ok index, request))
    (hanswer : (store.perform operation).1 = .ok answer) :
    ∃ record served, store.read index = .ok record ∧
      record.serve store.unit store.timer request = .ok (answer, served) := by
  rw [perform_eq_settle_serve h] at hanswer
  cases hserve : store.serve index request with
  | error error =>
    rw [hserve] at hanswer
    cases hanswer
  | ok result =>
    rw [hserve] at hanswer
    cases hanswer
    obtain ⟨record, served, hread, hrecord, -⟩ := serve_eq_ok_iff.mp hserve
    exact ⟨record, served, hread, hrecord⟩

theorem put_comm {other : UInt32} (h : index ≠ other) (store : Store) (record record' : Record) :
    (store.put index record).put other record' = (store.put other record').put index record := by
  have hne : index.toNat ≠ other.toNat := fun heq => h (UInt32.toNat_inj.mp heq)
  simp only [put, List.set_comm record record' hne]

/-- After the meter of `index'` was written, the meter of `index` serves an `operation` as before. -/
theorem perform_put {record served : Record} {answer : Answer} {index' : UInt32}
    (h : operation.request? = some (.ok index, request)) (hread : store.read index = .ok record)
    (hserve : record.serve store.unit store.timer request = .ok (answer, served)) (hne : index ≠ index')
    (written : Record) (tally : Tally) :
    (((store.put index' written).loadTally tally).perform operation).2 =
      ((store.put index' written).put index served).loadTally (tally.addAll (request.colors answer)) := by
  have hafter : ((store.put index' written).loadTally tally).read index = .ok record :=
    (store.read_put_of_ne hne written).trans hread
  rw [perform_of_serve h hafter hserve]
  rfl

/-- Operations about different meters commute. -/
theorem commute {index' : UInt32} (hne : index ≠ index') (hfirst : first.concerns index = true)
    (hsecond : second.concerns index' = true) (store : Store) :
    ((store.perform first).2.perform second).2 = ((store.perform second).2.perform first).2 := by
  obtain ⟨request, hrequest⟩ := Operation.concerns_iff.mp hfirst
  obtain ⟨request', hrequest'⟩ := Operation.concerns_iff.mp hsecond
  refine commute_of_fst_eq (fun _ _ _ => perform_eq_self_of_error) ?_ ?_ fun answer answer' hanswer hanswer' => ?_
  · have hindex : first.concerns index' = false := by
      simpa [Operation.concerns, decide_eq_true_eq.mp hfirst] using hne
    exact perform_fst_eq (Operation.isForMeter_of_concerns hfirst) hindex hsecond
  · have hindex : second.concerns index = false := by
      simpa [Operation.concerns, decide_eq_true_eq.mp hsecond] using hne.symm
    exact perform_fst_eq (Operation.isForMeter_of_concerns hsecond) hindex hfirst
  · -- Where both succeed, two meters are written and two lists of colours counted, which commutes.
    obtain ⟨record, served, hread, hserve⟩ := exists_serve_of_perform hrequest hanswer
    obtain ⟨record', served', hread', hserve'⟩ := exists_serve_of_perform hrequest' hanswer'
    rw [perform_of_serve hrequest hread hserve, perform_of_serve hrequest' hread' hserve',
      perform_put hrequest' hread' hserve' hne.symm, perform_put hrequest hread hserve hne, put_comm hne,
      Tally.addAll_comm]

/-- Operations on meters of a store are independent. -/
theorem independent :
    Independent perform Operation.concerns (fun _ => True) fun operation => operation.isForMeter = true where
  valid_perform _ _ := trivial
  idle _ := perform_eq_self
  answer_eq _ hfirst _ hapart _ hsecond :=
    perform_fst_eq hfirst (Bool.eq_false_iff.mpr fun hindex => hapart _ ⟨hindex, hsecond⟩) hsecond
  commute _ _ _ hapart hfirst hsecond := by
    refine commute (fun heq => ?_) hfirst hsecond _
    exact hapart _ ⟨hfirst, heq ▸ hsecond⟩

/-- Seen from the meter of `index`, a run of `operations` is the run of those on this meter. -/
theorem SameAt.run (h : SameAt index store other) {operations : List Operation}
    (hmeter : ∀ operation ∈ operations, operation.isForMeter) :
    answersTo (Operation.concerns index) operations (store.run operations).1 =
        (other.run (operations.filter (Operation.concerns index))).1 ∧
      SameAt index (store.run operations).2 (other.run (operations.filter (Operation.concerns index))).2 := by
  have hrun := answersTo_runWith id (fun _ _ _ hsame _ => SameAt.perform hsame)
    (fun _ _ _ hsame => SameAt.perform_others hsame) h hmeter
  simp only [List.map_id] at hrun
  exact hrun

end Store

/-- An answer without what it says of meters in other slots than `slot`. -/
def Answer.atSlot (slot : Nat) : Answer → Answer
  | .hit given => given.colors[slot]?.elim .absent .color
  | answer => answer

namespace Table

variable {timer timer' : Timer} {description description' : TableDescription} {layout : Layout}
  {table other : Table} {key key' : Bytes} {slot : Nat} {operation first second : Operation}

/-- The call reaches the meter in `slot`, if there is one. Whatever is asked of the whole entry reaches the
meters in all of its slots. It is taken to reach the first slot even where entries have no meters. -/
def Call.reaches (layout : Layout) (slot : Nat) : Call → Bool
  | .meter reached _ => reached = slot && slot < layout.meters.toNat
  | .hit .. => slot = 0 || slot < layout.meters.toNat
  | .update _ => slot = 0 || slot < layout.meters.toNat

/-- `operation` is about one meter or about all meters of one entry. -/
def Operation.isForMeters (operation : Operation) : Bool :=
  operation.call?.isSome

/-- `operation` is about the meter in the slot of the entry under the key that `place` names. -/
def Operation.concerns (layout : Layout) (place : Bytes × Nat) (operation : Operation) : Bool :=
  operation.call?.any fun found => found.1 = place.1 && found.2.reaches layout place.2

theorem Operation.concerns_iff : operation.concerns layout (key, slot) = true ↔
    ∃ call, operation.call? = some (key, call) ∧ call.reaches layout slot = true := by
  simp [concerns, Option.any_eq_true]

theorem Operation.concerns_eq_reaches {call : Call} (h : operation.call? = some (key, call)) (slot : Nat) :
    operation.concerns layout (key, slot) = call.reaches layout slot := by
  simp [concerns, h]

/-- The meter in `slot` of the entry under `key` cannot tell `table` and `other` apart. -/
structure SameAt (key : Bytes) (slot : Nat) (table other : Table) : Prop where
  /-- Their values have the same layout. -/
  layout_eq : other.layout = table.layout
  /-- They count in the same unit. -/
  unit_eq : other.unit = table.unit
  /-- They encode rates for the same timer. -/
  timer_eq : other.timer = table.timer
  /-- They have the same meter there. -/
  exists_read : ∃ record, table.read key slot = .ok record ∧ other.read key slot = .ok record

/-- In both responses the meter in `slot` is told the same and becomes the same. -/
def Response.SameAt (slot : Nat) (response response' : Response) : Prop :=
  response.answer.atSlot slot = response'.answer.atSlot slot ∧
    ∃ record, response.entry.meters[slot]? = some record ∧ response'.entry.meters[slot]? = some record

/-- Entries with the same meter in `slot` respond alike, as far as this meter can tell. -/
theorem SameAt.respond (h : SameAt key slot table other) {entry entry' : Entry} {record : Record}
    (hslot : entry.meters[slot]? = some record) (hslot' : entry'.meters[slot]? = some record)
    (hfits : entry.Fits table.layout) (hfits' : entry'.Fits table.layout) {call : Call}
    (hcall : call.reaches table.layout slot = true) :
    Agree (Response.SameAt slot) (table.respond key (some entry) call)
      (other.respond key (some entry') call) := by
  obtain ⟨hlt, -⟩ := List.getElem?_eq_some_iff.mp hslot
  obtain ⟨hlt', -⟩ := List.getElem?_eq_some_iff.mp hslot'
  cases call with
  | meter reached request =>
    simp only [Call.reaches, Bool.and_eq_true, decide_eq_true_eq] at hcall
    obtain ⟨rfl, -⟩ := hcall
    simp only [Table.respond, hslot, hslot', h.unit_eq, h.timer_eq]
    cases record.serve table.unit table.timer request with
    | error error => exact .error error
    | ok result =>
      exact .ok ⟨rfl, result.2, List.getElem?_set_self hlt, List.getElem?_set_self hlt'⟩
  | hit length now =>
    refine .ok ⟨?_, (record.mark (table.unit.size length) now).2, ?_, ?_⟩
    · simp [Answer.atSlot, Entry.count, hslot, hslot', h.unit_eq]
    · simp [Entry.count, hslot]
    · simp [Entry.count, hslot', h.unit_eq]
  | update value =>
    simp only [Table.respond, h.layout_eq]
    cases hvalue : Entry.ofBytes table.layout value with
    | error error => exact .error error
    | ok next =>
      -- Both entries become the new one. It has as many meters as they had, so there is one in the slot.
      have hnew := Entry.fits_of_ofBytes hvalue
      have hlength := hnew.length_meters
      rw [← hfits.length_meters] at hlength
      have hnext := List.getElem?_eq_getElem (hlength ▸ hlt : slot < next.meters.length)
      have hself : Entry.revise (some entry) next = next := Entry.revise_eq_self (by simpa using hfits) hnew
      have hself' : Entry.revise (some entry') next = next := Entry.revise_eq_self (by simpa using hfits') hnew
      rw [map_ok, map_ok, hself, hself']
      exact .ok ⟨rfl, _, hnext, hnext⟩

/-- A request to one meter leaves the meters in other slots alone. -/
theorem meters_of_respond {found : Option Entry} {entry : Entry} {call : Call} {response : Response}
    (hlt : slot < layout.meters.toNat) (hcall : call.reaches layout slot = false)
    (hfound : found = some entry) (h : table.respond key found call = .ok response) :
    response.entry.meters[slot]? = entry.meters[slot]? := by
  cases call with
  | hit length now => simp [Call.reaches, hlt] at hcall
  | update value => simp [Call.reaches, hlt] at hcall
  | meter reached request =>
    have hne : reached ≠ slot := by simpa [Call.reaches, hlt] using hcall
    obtain ⟨_, record, hentry, hput⟩ := exists_putMeter_of_respond h
    cases hfound.symm.trans hentry
    rw [hput]
    exact List.getElem?_set_ne hne

/-- An `operation` on the meter in `slot` answers the same about it in both tables and leaves the same meter. -/
theorem SameAt.perform (h : SameAt key slot table other) (htable : table.Intact timer description)
    (hother : other.Intact timer' description')
    (hoperation : operation.concerns table.layout (key, slot) = true) :
    (table.perform operation).1.map (Answer.atSlot slot) =
        (other.perform operation).1.map (Answer.atSlot slot) ∧
      SameAt key slot (table.perform operation).2 (other.perform operation).2 := by
  obtain ⟨call, hcall, hreaches⟩ := Operation.concerns_iff.mp hoperation
  obtain ⟨record, hread, hread'⟩ := h.exists_read
  obtain ⟨entry, hentry, hslot⟩ := read_eq_ok_iff.mp hread
  obtain ⟨entry', hentry', hslot'⟩ := read_eq_ok_iff.mp hread'
  rw [perform_eq_settle_respond hcall, perform_eq_settle_respond hcall, hentry, hentry']
  -- Both entries have the same meter in the slot, so they respond alike as far as it can tell.
  have hagree := h.respond hslot hslot' (htable.fits_entryAt? hentry)
    (h.layout_eq ▸ hother.fits_entryAt? hentry') hreaches
  generalize table.respond key (some entry) call = outcome at hagree ⊢
  generalize other.respond key (some entry') call = outcome' at hagree ⊢
  cases hagree with
  | error error => exact ⟨rfl, h⟩
  | ok hsame =>
    obtain ⟨hanswer, served, hserved, hserved'⟩ := hsame
    refine ⟨congrArg Except.ok hanswer, ?_, ?_, ?_, served, ?_, ?_⟩
    · exact (layout_after ..).trans (h.layout_eq.trans (layout_after ..).symm)
    · exact (unit_after ..).trans (h.unit_eq.trans (unit_after ..).symm)
    · exact (timer_after ..).trans (h.timer_eq.trans (timer_after ..).symm)
    · exact htable.read_after_self hserved
    · exact hother.read_after_self hserved'

/-- An `operation` on other meters is of no concern to the meter in `slot`. -/
theorem SameAt.perform_others (h : SameAt key slot table other) (htable : table.Intact timer description)
    (hmeters : operation.isForMeters = true)
    (hoperation : operation.concerns table.layout (key, slot) = false) :
    SameAt key slot (table.perform operation).2 other := by
  obtain ⟨⟨reached, call⟩, hcall⟩ := Option.isSome_iff_exists.mp hmeters
  rw [perform_eq_settle_respond hcall]
  refine settle_preserves (P := fun next => SameAt key slot next other) h fun answer next hok => ?_
  obtain ⟨response, hresponse, hnext⟩ := map_eq_ok_iff.mp hok
  cases hnext
  obtain ⟨record, hread, hread'⟩ := h.exists_read
  refine ⟨h.layout_eq.trans (layout_after ..).symm, h.unit_eq.trans (unit_after ..).symm,
    h.timer_eq.trans (timer_after ..).symm, record, ?_, hread'⟩
  obtain ⟨entry, hentry, hslot⟩ := read_eq_ok_iff.mp hread
  by_cases hkey : key = reached
  · -- The same entry, but another slot.
    subst hkey
    have hlt : slot < table.layout.meters.toNat := by
      rw [← (htable.fits_entryAt? hentry).length_meters]
      exact (List.getElem?_eq_some_iff.mp hslot).1
    rw [Operation.concerns_eq_reaches hcall] at hoperation
    exact htable.read_after_self ((meters_of_respond hlt hoperation hentry hresponse).trans hslot)
  · refine read_eq_ok_iff.mpr ⟨entry, ?_, hslot⟩
    rw [htable.entryAt?_after, if_neg hkey, hentry]

/-! Operations for different meters commute. -/

/-- The operation would insert a new key into `table`. -/
def Operation.inserts (table : Table) : Operation → Bool
  | .update key _ => !(table.entryAt? key).isSome
  | _ => false

/-- Only an insertion succeeds without an entry. -/
theorem isSome_entryAt?_of_respond {call : Call} {response : Response}
    (hcall : operation.call? = some (key, call)) (hinserts : operation.inserts table = false)
    (h : table.respond key (table.entryAt? key) call = .ok response) : (table.entryAt? key).isSome := by
  cases hentry : table.entryAt? key with
  | some entry => rfl
  | none =>
    rw [hentry] at h
    cases call with
    | meter slot request => cases h
    | hit length now => cases h
    | update value =>
      cases operation with
      | update key value =>
        cases hcall
        simp [Operation.inserts, hentry] at hinserts
      | _ => cases hcall

/-- If `first` and `second` have no meter in common, then they are for different keys, or for different slots
under one key. -/
theorem apart_cases {slot slot' : Nat} {call call' : Call} (hfirst : first.call? = some (key, call))
    (hsecond : second.call? = some (key', call')) (hreaches : call.reaches layout slot = true)
    (hreaches' : call'.reaches layout slot' = true)
    (hapart : Apart (Operation.concerns layout) first second) :
    key ≠ key' ∨ key = key' ∧ ∃ slot slot' request request', call = .meter slot request ∧
      call' = .meter slot' request' ∧ slot ≠ slot' := by
  by_cases hkey : key = key'
  · subst hkey
    refine .inr ⟨rfl, ?_⟩
    have hboth (slot : Nat) : ¬ (call.reaches layout slot = true ∧ call'.reaches layout slot = true) := by
      rw [← Operation.concerns_eq_reaches hfirst, ← Operation.concerns_eq_reaches hsecond]
      exact hapart (key, slot)
    -- What is asked of a whole entry shares a meter with all else that is asked of the entry.
    cases call with
    | meter reached request =>
      cases call' with
      | meter reached' request' =>
        refine ⟨reached, reached', request, request', rfl, rfl, ?_⟩
        rintro rfl
        exact hboth slot ⟨hreaches, hreaches⟩
      | _ =>
        have hlt : slot < layout.meters.toNat := by simp_all [Call.reaches]
        exact (hboth slot ⟨hreaches, by simp [Call.reaches, hlt]⟩).elim
    | _ =>
      cases call' with
      | meter reached' request' =>
        have hlt : slot' < layout.meters.toNat := by simp_all [Call.reaches]
        exact (hboth slot' ⟨by simp [Call.reaches, hlt], hreaches'⟩).elim
      | _ => exact (hboth 0 ⟨rfl, rfl⟩).elim
  · exact .inl hkey

/-- The operation `first` does not change the answer of `second` if they have no meter in common. -/
theorem Intact.perform_fst_eq (h : table.Intact timer description) {slot slot' : Nat}
    (hfirst : first.concerns layout (key, slot) = true)
    (hsecond : second.concerns layout (key', slot') = true)
    (hapart : Apart (Operation.concerns layout) first second) :
    ((table.perform first).2.perform second).1 = (table.perform second).1 := by
  obtain ⟨call, hcall, hreaches⟩ := Operation.concerns_iff.mp hfirst
  obtain ⟨call', hcall', hreaches'⟩ := Operation.concerns_iff.mp hsecond
  cases hresponse : table.respond key (table.entryAt? key) call with
  | error error =>
    rw [perform_eq_settle_respond hcall, hresponse]
    rfl
  | ok response =>
    rw [perform_of_respond hcall hresponse, perform_eq_settle_respond hcall',
      perform_eq_settle_respond hcall', respond_after, h.entryAt?_after]
    rcases apart_cases hcall hcall' hreaches hreaches' hapart with hne | ⟨rfl, _, _, _, _, rfl, rfl, hne⟩
    · rw [if_neg hne.symm]
      cases table.respond key' (table.entryAt? key') call' <;> rfl
    · -- The second finds the entry changed, but not in its slot.
      obtain ⟨entry, record, hentry, hput⟩ := exists_putMeter_of_respond hresponse
      rw [if_pos rfl, hput, respond_putMeter hne, hentry]
      cases table.respond key (some entry) _ <;> rfl

/-- Operations that have no meter in common commute if neither inserts a key. -/
theorem Intact.commute (h : table.Intact timer description) {slot slot' : Nat}
    (hfirst : first.concerns layout (key, slot) = true)
    (hsecond : second.concerns layout (key', slot') = true)
    (hapart : Apart (Operation.concerns layout) first second) (hinserts : first.inserts table = false)
    (hinserts' : second.inserts table = false) :
    ((table.perform first).2.perform second).2 = ((table.perform second).2.perform first).2 := by
  refine commute_of_fst_eq (fun _ _ _ => perform_eq_self_of_error) (h.perform_fst_eq hfirst hsecond hapart)
    (h.perform_fst_eq hsecond hfirst hapart.symm) fun answer answer' hanswer hanswer' => ?_
  obtain ⟨call, hcall, hreaches⟩ := Operation.concerns_iff.mp hfirst
  obtain ⟨call', hcall', hreaches'⟩ := Operation.concerns_iff.mp hsecond
  obtain ⟨response, hresponse⟩ := exists_respond_of_perform hcall hanswer
  obtain ⟨response', hresponse'⟩ := exists_respond_of_perform hcall' hanswer'
  have hkey := isSome_entryAt?_of_respond hcall hinserts hresponse
  have hkey' := isSome_entryAt?_of_respond hcall' hinserts' hresponse'
  rw [perform_of_respond hcall hresponse, perform_of_respond hcall' hresponse']
  rcases apart_cases hcall hcall' hreaches hreaches' hapart with hne | ⟨rfl, _, _, _, _, rfl, rfl, hne⟩
  · rw [h.perform_after hcall' hresponse' hne.symm, h.perform_after hcall hresponse hne, after_after,
      after_after, h.write_comm hne hkey hkey', Tally.addAll_comm]
  · -- Both rewrite the same object, and each puts its meter beside that of the other.
    obtain ⟨entry, record, hentry, hput⟩ := exists_putMeter_of_respond hresponse
    obtain ⟨_, record', hentry', hput'⟩ := exists_putMeter_of_respond hresponse'
    cases hentry.symm.trans hentry'
    rw [hentry] at hresponse hresponse'
    rw [h.perform_after_putMeter hcall' hresponse' hne hput,
      h.perform_after_putMeter hcall hresponse hne.symm hput', after_after, after_after, write_write hkey,
      write_write hkey, hput, hput', Entry.putMeter_comm hne, Tally.addAll_comm]

/-- An `operation` about meters that are not there changes nothing. -/
theorem Intact.perform_eq_self (h : table.Intact timer description) (hmeters : operation.isForMeters = true)
    (hnone : ∀ place, operation.concerns table.layout place = false) :
    (table.perform operation).2 = table := by
  obtain ⟨⟨key, call⟩, hcall⟩ := Option.isSome_iff_exists.mp hmeters
  have hreaches (slot : Nat) : call.reaches table.layout slot = false := by
    rw [← Operation.concerns_eq_reaches hcall, hnone]
  rw [perform_eq_settle_respond hcall]
  cases call with
  | hit length now => cases hreaches 0
  | update value => cases hreaches 0
  | meter slot request =>
    cases hentry : table.entryAt? key with
    | none => rfl
    | some entry =>
      have hslot : entry.meters[slot]? = none := by
        rw [List.getElem?_eq_none_iff, (h.fits_entryAt? hentry).length_meters]
        simpa [Call.reaches] using hreaches slot
      simp only [respond, hslot]
      rfl

theorem Operation.inserts_congr {start : Table}
    (h : ∀ key, (table.entryAt? key).isSome = (start.entryAt? key).isSome) (operation : Operation) :
    operation.inserts table = operation.inserts start := by
  cases operation with
  | update key value => simp only [inserts, h key]
  | _ => rfl

/-- An `operation` that inserts no key leaves the keys as they are. -/
theorem Intact.isSome_entryAt?_perform (h : table.Intact timer description)
    (hmeters : operation.isForMeters = true) (hinserts : operation.inserts table = false) (key : Bytes) :
    ((table.perform operation).2.entryAt? key).isSome = (table.entryAt? key).isSome := by
  obtain ⟨⟨reached, call⟩, hcall⟩ := Option.isSome_iff_exists.mp hmeters
  rw [perform_eq_settle_respond hcall]
  refine settle_preserves
    (P := fun next : Table => (next.entryAt? key).isSome = (table.entryAt? key).isSome) rfl
    fun answer next hok => ?_
  obtain ⟨response, hresponse, hnext⟩ := map_eq_ok_iff.mp hok
  cases hnext
  rw [h.entryAt?_after]
  split
  next hkey => rw [hkey, isSome_entryAt?_of_respond hcall hinserts hresponse, Option.isSome_some]
  next => rfl

/-- In tables with the keys of `start`, operations that insert no key are independent. -/
theorem independent (timer : Timer) (description : TableDescription) (start : Table) :
    Independent perform (Operation.concerns description.layout)
      (fun table => table.Intact timer description ∧
        ∀ key, (table.entryAt? key).isSome = (start.entryAt? key).isSome)
      fun operation => operation.isForMeters = true ∧ operation.inserts start = false where
  valid_perform := by
    rintro table operation ⟨hintact, hkeys⟩ ⟨hmeters, hinserts⟩
    rw [← Operation.inserts_congr hkeys] at hinserts
    exact ⟨hintact.perform operation, fun key =>
      (hintact.isSome_entryAt?_perform hmeters hinserts key).trans (hkeys key)⟩
  idle := by
    rintro table operation ⟨hintact, -⟩ ⟨hmeters, -⟩ hnone
    exact hintact.perform_eq_self hmeters (hintact.layout_eq ▸ hnone)
  answer_eq hvalid _ _ hapart hfirst hsecond := hvalid.1.perform_fst_eq hfirst hsecond hapart
  commute := by
    rintro table first second place place' ⟨hintact, hkeys⟩ ⟨-, hinserts⟩ ⟨-, hinserts'⟩ hapart hfirst hsecond
    rw [← Operation.inserts_congr hkeys] at hinserts hinserts'
    exact hintact.commute hfirst hsecond hapart hinserts hinserts'

/-- Seen from the meter in `slot` of the entry under `key`, a run of `operations` is the run of those on this
meter. -/
theorem SameAt.run (h : SameAt key slot table other) (htable : table.Intact timer description)
    (hother : other.Intact timer' description') {operations : List Operation}
    (hmeters : ∀ operation ∈ operations, operation.isForMeters) :
    (answersTo (Operation.concerns description.layout (key, slot)) operations (table.run operations).1).map
          (Except.map (Answer.atSlot slot)) =
        (other.run (operations.filter (Operation.concerns description.layout (key, slot)))).1.map
          (Except.map (Answer.atSlot slot)) ∧
      SameAt key slot (table.run operations).2
        (other.run (operations.filter (Operation.concerns description.layout (key, slot)))).2 := by
  -- Being intact is carried along, since responses depend on entries that fit.
  let R (table other : Table) : Prop :=
    SameAt key slot table other ∧ table.Intact timer description ∧ other.Intact timer' description'
  have hown (table other : Table) (operation : Operation) (hrelated : R table other)
      (_ : operation.isForMeters = true)
      (hconcerns : operation.concerns description.layout (key, slot) = true) :
      (table.perform operation).1.map (Answer.atSlot slot) =
          (other.perform operation).1.map (Answer.atSlot slot) ∧
        R (table.perform operation).2 (other.perform operation).2 := by
    obtain ⟨hsame, htable, hother⟩ := hrelated
    rw [← htable.layout_eq] at hconcerns
    obtain ⟨hanswer, hnext⟩ := hsame.perform htable hother hconcerns
    exact ⟨hanswer, hnext, htable.perform operation, hother.perform operation⟩
  have hothers (table other : Table) (operation : Operation) (hrelated : R table other)
      (hmeters : operation.isForMeters = true)
      (hconcerns : operation.concerns description.layout (key, slot) = false) :
      R (table.perform operation).2 other := by
    obtain ⟨hsame, htable, hother⟩ := hrelated
    rw [← htable.layout_eq] at hconcerns
    exact ⟨hsame.perform_others htable hmeters hconcerns, htable.perform operation, hother⟩
  obtain ⟨hanswers, hlast, -⟩ := answersTo_runWith _ hown hothers ⟨h, htable, hother⟩ hmeters
  exact ⟨hanswers, hlast⟩

end Table

/-- Meters of stores and tables do not depend on each other:

- what is answered about a meter in a run and what it becomes is the same as in a run of its own operations
  alone, in any store or table that has the same meter at the start;
- so runs that have the same operations for each meter, however interleaved, give the same answers for each of
  them and reach the same state, with the same meters and the same tally.

In a table, a hit and an update of an entry are for all of its meters, and each meter is told its own colour of a
hit. -/
theorem meters_are_independent :
    (∀ (store other : Store) (index : UInt32) (operations : List Store.Operation),
      (∀ operation ∈ operations, operation.isForMeter) → Store.SameAt index store other →
        let concerns := Store.Operation.concerns index
        answersTo concerns operations (store.run operations).1 = (other.run (operations.filter concerns)).1 ∧
          (store.run operations).2.read index = (other.run (operations.filter concerns)).2.read index) ∧
    (∀ (store : Store) (operations operations' : List Store.Operation),
      (∀ operation ∈ operations ++ operations', operation.isForMeter) →
      (∀ index, operations.filter (Store.Operation.concerns index) =
        operations'.filter (Store.Operation.concerns index)) →
        (∀ index, answersTo (Store.Operation.concerns index) operations (store.run operations).1 =
          answersTo (Store.Operation.concerns index) operations' (store.run operations').1) ∧
          (store.run operations).2 = (store.run operations').2) ∧
    (∀ (table other : Table) (key : Bytes) (slot : Nat) (operations : List Table.Operation),
      table.Reachable → other.Reachable → (∀ operation ∈ operations, operation.isForMeters) →
      Table.SameAt key slot table other →
        let concerns := Table.Operation.concerns table.layout (key, slot)
        (answersTo concerns operations (table.run operations).1).map (Except.map (Answer.atSlot slot)) =
            (other.run (operations.filter concerns)).1.map (Except.map (Answer.atSlot slot)) ∧
          (table.run operations).2.read key slot = (other.run (operations.filter concerns)).2.read key slot) ∧
    (∀ (table : Table) (operations operations' : List Table.Operation), table.Reachable →
      (∀ operation ∈ operations ++ operations', operation.isForMeters ∧ ¬ operation.inserts table) →
      (∀ place, operations.filter (Table.Operation.concerns table.layout place) =
        operations'.filter (Table.Operation.concerns table.layout place)) →
        (∀ place,
          answersTo (Table.Operation.concerns table.layout place) operations (table.run operations).1 =
            answersTo (Table.Operation.concerns table.layout place) operations' (table.run operations').1) ∧
          (table.run operations).2 = (table.run operations').2) := by
  refine ⟨?_, ?_, ?_, ?_⟩
  · intro store other index operations hmeter hsame
    obtain ⟨hanswers, hlast⟩ := hsame.run hmeter
    exact ⟨hanswers, hlast.read_eq.symm⟩
  · intro store operations operations' hmeter hfilter
    rw [List.forall_mem_append] at hmeter
    exact Store.independent.runWith_eq hmeter.1 hmeter.2 hfilter trivial
  · intro table other key slot operations htable hother hmeters hsame
    obtain ⟨timer, description, hintact⟩ := htable.intact
    obtain ⟨timer', description', hintact'⟩ := hother.intact
    obtain ⟨hanswers, hlast⟩ := hsame.run hintact hintact' hmeters
    rw [← hintact.layout_eq] at hanswers hlast
    obtain ⟨record, hread, hread'⟩ := hlast.exists_read
    exact ⟨hanswers, hread.trans hread'.symm⟩
  · intro table operations operations' htable hallowed hfilter
    obtain ⟨timer, description, hintact⟩ := htable.intact
    simp only [Bool.not_eq_true, List.forall_mem_append] at hallowed
    rw [hintact.layout_eq] at hfilter ⊢
    exact (Table.independent timer description table).runWith_eq hallowed.1 hallowed.2 hfilter
      ⟨hintact, fun _ => rfl⟩

/-- Two meters of a store are used in turn, and a malformed key comes in between. In a table, the meters in
two slots of one entry are used in turn before and after a packet hits the entry. -/
theorem meters_are_independent_shared_entry :
    let profile : Profile := { peak := ⟨250000, 2500⟩, committed := ⟨100000, 1500⟩ }
    let timer := Timer.ofResolution 1
    let store := Store.create "s" 2 .bytes timer
    let single := Store.create "s" 1 .bytes timer
    let marks : List Store.Operation :=
      [.configure 0 profile, .execute 1 900 5, .readValue [7], .execute 0 900 5]
    let marks' : List Store.Operation := [.execute 1 900 5, .configure 0 profile, .execute 0 900 5]
    let start := Table.create "t" ⟨0, none, 2⟩ .bytes timer
    let table := (start.perform (.update [1] (Bytes.zeros 184))).2
    let wider := (table.perform (.update [2] (Bytes.zeros 184))).2
    let hits : List Table.Operation :=
      [.configure [1] 0 profile, .reset [1] 1, .hit [1] 900 5, .execute [1] 1 900 9, .read [1] 0]
    let hits' : List Table.Operation :=
      [.reset [1] 1, .configure [1] 0 profile, .hit [1] 900 5, .read [1] 0, .execute [1] 1 900 9]
    answersTo (Store.Operation.concerns 0) marks (store.run marks).1 =
        (single.run [.configure 0 profile, .execute 0 900 5]).1 ∧
      (store.run marks).2 = (store.run marks').2 ∧
      (wider.run hits).2.read [1] 0 =
        (table.run (hits.filter (Table.Operation.concerns wider.layout ([1], 0)))).2.read [1] 0 ∧
      (table.run hits).2 = (table.run hits').2 := by
  intro profile timer store single marks marks' start table wider hits hits'
  have htable : table.Reachable := .perform (.create ..) _
  obtain ⟨hstore, hstores, htables, htables'⟩ := meters_are_independent
  refine ⟨?_, ?_, ?_, ?_⟩
  · exact (hstore store single 0 marks (by decide) ⟨rfl, rfl, rfl⟩).1
  · refine (hstores store marks marks' (by decide) fun index => ?_).2
    by_cases hzero : index = 0
    · subst hzero
      rfl
    · -- The malformed key names no index, so it concerns none.
      have hne : ¬ 0 = index := fun heq => hzero heq.symm
      have hkey : Store.indexOfKey [7] = .error (.invalidLength .key 4 1) := rfl
      simp [marks, marks', List.filter_cons, Store.Operation.concerns, Store.Operation.index?,
        Store.Operation.request?, Except.toOption, hkey, hne]
  · have hsame : Table.SameAt [1] 0 wider table := by
      refine ⟨?_, ?_, ?_, {}, ?_, ?_⟩ <;> decide +kernel
    exact (htables wider table [1] 0 hits (.perform htable _) htable (by decide) hsame).2
  · refine (htables' table hits hits' htable (by decide +kernel) fun place => ?_).2
    have hlayout : table.layout = ⟨0, none, 2⟩ := by decide +kernel
    obtain ⟨key, slot⟩ := place
    rw [hlayout]
    -- The hit concerns both slots of the entry, and nothing concerns a third slot or another key.
    by_cases hkey : [1] = key
    · subst hkey
      rcases slot with _ | _ | slot
      · rfl
      · rfl
      · simp [hits, hits', Table.Operation.concerns, Table.Operation.call?, Table.Operation.request?,
          Table.Call.reaches]
    · simp [hits, hits', Table.Operation.concerns, Table.Operation.call?, Table.Operation.request?, hkey]

end TrafficMeter
