import Mathlib.Data.List.DropRight
import TrafficMeter.Proofs.Identity
import TrafficMeter.Proofs.Interleaving

/-!
# Exact accounts

The tallies and counters of a whole run, from what was asked and answered in it.

- A tally is what was loaded last, or what it was at the start, with one more for each colour that was answered
  since to a metered packet. Marks on a meter itself or on a held object are no such answers.
- The counter of an object is what was last written to the object, with one more for each packet that hit its key
  or was counted by a holder since.

Both kinds of words start again at zero, so the accounts are equations modulo the size of a word.

## Main definitions

* `Tally.Accounts`, `Counter.Accounts`: one tally or counter comes from another by counting;
* `givenSince`: the colours that were given in a run after a tally was loaded last;
* `Table.LastWrite start operations id`: the place in a run where the object `id` was written last.

## Main results

* `Store.tally_perform`, `Table.tally_perform`: what one operation does to a tally, and `tally_runWith` for runs;
* `Table.Intact.exists_lastWrite`: every object that was not there at the start was written in the run;
* `Table.Intact.counter_of_lastWrite`: what the counter of an object has counted since;
* `accounts_are_exact`: all accounts together.
-/

namespace TrafficMeter

/-! ### Runs from their ends -/

section Runs

variable {σ ο : Type} (perform : σ → ο → Except Error Answer × σ) (state : σ)

theorem runWith_append (before after : List ο) :
    runWith perform state (before ++ after) =
      ((runWith perform state before).1 ++ (runWith perform (runWith perform state before).2 after).1,
        (runWith perform (runWith perform state before).2 after).2) := by
  induction before generalizing state with
  | nil => rfl
  | cons operation rest ih => rw [List.cons_append, runWith_cons, ih, runWith_cons, List.cons_append]

theorem length_runWith (operations : List ο) :
    (runWith perform state operations).1.length = operations.length := by
  induction operations generalizing state with
  | nil => rfl
  | cons operation rest ih => rw [runWith_cons, List.length_cons, ih, List.length_cons]

/-- The `operations` of a run, each with what was answered to it. -/
def trace (operations : List ο) : List (ο × Except Error Answer) :=
  operations.zip (runWith perform state operations).1

theorem trace_concat (operations : List ο) (operation : ο) :
    trace perform state (operations ++ [operation]) =
      trace perform state operations ++
        [(operation, (perform (runWith perform state operations).2 operation).1)] := by
  rw [trace, runWith_append, List.zip_append (length_runWith perform state operations).symm]
  rfl

end Runs

/-! ### Tallies -/

namespace Tally

/-- The tally `last` is `first` with `colors` counted, each count modulo the size of its word. -/
def Accounts (first last : Tally) (colors : List Color) : Prop :=
  ∀ color, (last.count color).toNat = ((first.count color).toNat + colors.count color) % 2 ^ 64

theorem accounts_addAll (tally : Tally) (colors : List Color) :
    tally.Accounts (tally.addAll colors) colors := by
  intro color
  induction colors generalizing tally with
  | nil => exact (Nat.mod_eq_of_lt (tally.count color).toNat_lt).symm
  | cons added rest ih =>
    show (((tally.add added).addAll rest).count color).toNat = _
    have hone : (if color = added then 1 else 0 : UInt64).toNat = if added == color then 1 else 0 := by
      by_cases heq : color = added
      · simp [heq]
      · simp [heq, Ne.symm heq]
    rw [ih, count_add, UInt64.toNat_add, hone, List.count_cons, Nat.mod_add_mod]
    congr 1
    omega

end Tally

section Tallies

variable {σ ο : Type} {perform : σ → ο → Except Error Answer × σ} {loaded? : ο → Option Tally}
  {given : ο → Except Error Answer → List Color}

/-- The tally that `operations` loaded last, or `start` if they loaded none. -/
def lastLoaded (loaded? : ο → Option Tally) (start : Tally) (operations : List ο) : Tally :=
  (operations.filterMap loaded?).getLast?.getD start

/-- The colours that were given in `steps` after the last step that loaded a tally. -/
def givenSince (loaded? : ο → Option Tally) (given : ο → Except Error Answer → List Color)
    (steps : List (ο × Except Error Answer)) : List Color :=
  (steps.rtakeWhile fun step => (loaded? step.1).isNone).flatMap fun step => given step.1 step.2

/-- If every operation either loads a tally (`loaded?`) or adds the colours that it gave (`given`), then a run
leaves the tally `lastLoaded` with all colours `givenSince`. -/
theorem tally_runWith (tally : σ → Tally)
    (hstep : ∀ state operation, tally (perform state operation).2 =
      (loaded? operation).getD ((tally state).addAll (given operation (perform state operation).1)))
    (state : σ) (operations : List ο) :
    tally (runWith perform state operations).2 =
      (lastLoaded loaded? (tally state) operations).addAll
        (givenSince loaded? given (trace perform state operations)) := by
  -- From the end of the run, since what was loaded last hides all that was given before.
  induction operations using List.reverseRecOn with
  | nil => rfl
  | append_singleton operations operation ih =>
    rw [runWith_append, trace_concat]
    show tally (perform (runWith perform state operations).2 operation).2 = _
    rw [hstep, lastLoaded, List.filterMap_append, givenSince]
    cases hload : loaded? operation with
    | some loaded =>
      rw [List.rtakeWhile_concat_neg _ _ _ (by simp [hload])]
      simp [hload, Tally.addAll]
    | none =>
      rw [List.rtakeWhile_concat_pos _ _ _ (by simp [hload]), ih, List.flatMap_append]
      simp [hload, Tally.addAll, lastLoaded, givenSince]

end Tallies

/-- The tally that a `loadTally` loads. -/
def Store.Operation.loaded? : Store.Operation → Option Tally
  | .loadTally loaded => some loaded
  | _ => none

/-- The colours that a store gives when it meters a packet, read off the answer. Marks on a meter itself
(`markFrom`) are not counted. -/
def Store.Operation.given : Store.Operation → Except Error Answer → List Color
  | .execute .., .ok (.color color) => [color]
  | .executeFrom .., .ok (.color color) => [color]
  | _, _ => []

/-- The tally that a `loadTally` loads. -/
def Table.Operation.loaded? : Table.Operation → Option Tally
  | .loadTally loaded => some loaded
  | _ => none

/-- The colours that a table gives when it meters a packet on one meter (`execute`, `executeFrom`), or on all
meters of the entry that the packet hits (`hit`). -/
def Table.Operation.given : Table.Operation → Except Error Answer → List Color
  | .execute .., .ok (.color color) => [color]
  | .executeFrom .., .ok (.color color) => [color]
  | .hit .., .ok (.hit told) => told.colors
  | _, _ => []

theorem Store.tally_of_request? {operation : Operation} {target : Except Error UInt32} {request : Request}
    (h : operation.request? = some (target, request)) (tally : Tally) (answer : Answer) :
    operation.loaded?.getD (tally.addAll (operation.given (.ok answer))) = request.tally answer tally := by
  rw [Request.tally_eq_addAll]
  cases operation <;> cases h <;> cases answer <;> rfl

theorem Table.tally_of_request? {operation : Operation} {key : Bytes} {slot : Nat} {request : Request}
    (h : operation.request? = some (key, slot, request)) (tally : Tally) (answer : Answer) :
    operation.loaded?.getD (tally.addAll (operation.given (.ok answer))) = request.tally answer tally := by
  rw [Request.tally_eq_addAll]
  cases operation <;> cases h <;> cases answer <;> rfl

/-- One `operation` replaces the tally of `store` by the one that it loads, or adds the colours that it gave. -/
theorem Store.tally_perform (store : Store) (operation : Operation) :
    (store.perform operation).2.tally =
      operation.loaded?.getD (store.tally.addAll (operation.given (store.perform operation).1)) := by
  rw [perform_eq_settle]
  cases hattempt : store.attempt operation with
  | error error =>
    -- Nothing is given with an error, and a tally is always accepted.
    cases operation with
    | loadTally tally => cases hattempt
    | _ => rfl
  | ok result =>
    obtain ⟨answer, next⟩ := result
    show next.tally = operation.loaded?.getD (store.tally.addAll (operation.given (.ok answer)))
    cases effect_of_attempt hattempt with
    | serve hrequest hserve =>
      obtain ⟨record, served, -, hserved, rfl⟩ := serve_eq_ok_iff.mp hserve
      exact (tally_of_request? hrequest store.tally answer).symm
    | restore hrestore =>
      obtain ⟨-, -, rfl⟩ := restore_eq_ok_iff.mp hrestore
      rfl
    | loadTally => rfl
    | view hview => cases operation <;> cases hview <;> rfl

/-- One `operation` replaces the tally of `table` by the one that it loads, or adds the colours that it gave. -/
theorem Table.tally_perform (table : Table) (operation : Operation) :
    (table.perform operation).2.tally =
      operation.loaded?.getD (table.tally.addAll (operation.given (table.perform operation).1)) := by
  rw [perform_eq_settle]
  cases hattempt : table.attempt operation with
  | error error =>
    -- A refused operation gives no colour, and loading a tally is never refused.
    cases operation with
    | loadTally tally => cases hattempt
    | _ => rfl
  | ok result =>
    obtain ⟨answer, next⟩ := result
    show next.tally = operation.loaded?.getD (table.tally.addAll (operation.given (.ok answer)))
    -- Of all effects, only requests, hits and loads touch the tally.
    cases effect_of_attempt hattempt with
    | serve hrequest hserve =>
      obtain ⟨_, _, _, _, -, -, -, rfl⟩ := serve_eq_ok_iff.mp hserve
      exact (tally_of_request? hrequest table.tally answer).symm
    | update hupdate =>
      obtain ⟨_, -, rfl⟩ := update_eq_ok_iff.mp hupdate
      exact tally_write _ _
    | delete hdelete =>
      obtain ⟨_, -, rfl⟩ := delete_eq_ok_iff.mp hdelete
      rfl
    | hit hhit =>
      obtain ⟨_, _, -, -, rfl⟩ := hit_eq_ok_iff.mp hhit
      rfl
    | countHeld =>
      rw [countObject]
      split <;> rfl
    | markHeld hmark =>
      obtain ⟨_, _, -, -, -, rfl⟩ := markObjectFrom?_eq_some_iff.mp hmark
      rfl
    | markAbsent => rfl
    | loadTally => rfl
    | view hview => cases operation <;> cases hview <;> rfl

/-! ### Counters -/

namespace Counter

/-- `counter` after packets of these `lengths`. -/
def addAll (counter : Counter) (lengths : List UInt32) : Counter :=
  lengths.foldl add counter

theorem map_addAll_nil (counter : Option Counter) : counter.map (·.addAll []) = counter := by
  cases counter <;> rfl

theorem map_addAll_append (counter : Option Counter) (before after : List UInt32) :
    (counter.map (·.addAll before)).map (·.addAll after) = counter.map (·.addAll (before ++ after)) := by
  rw [Option.map_map]
  congr 1
  funext counter
  exact (List.foldl_append ..).symm

/-- The counter `last` is `first` with packets of these `lengths` counted, modulo the sizes of its words. -/
structure Accounts (first last : Counter) (lengths : List UInt32) : Prop where
  /-- One more for every packet. -/
  packets_eq : last.packets.toNat = (first.packets.toNat + lengths.length) % 2 ^ 32
  /-- As many more as the packet is long. -/
  bytes_eq : last.bytes.toNat = (first.bytes.toNat + (lengths.map UInt32.toNat).sum) % 2 ^ 64

theorem accounts_addAll (counter : Counter) (lengths : List UInt32) :
    counter.Accounts (counter.addAll lengths) lengths := by
  induction lengths generalizing counter with
  | nil =>
    exact ⟨(Nat.mod_eq_of_lt counter.packets.toNat_lt).symm, (Nat.mod_eq_of_lt counter.bytes.toNat_lt).symm⟩
  | cons length rest ih =>
    obtain ⟨hpackets, hbytes⟩ := ih (counter.add length)
    constructor
    · show ((counter.add length).addAll rest).packets.toNat = _
      rw [hpackets, add, UInt32.toNat_add, List.length_cons, Nat.mod_add_mod]
      congr 1
      show counter.packets.toNat + 1 + rest.length = _
      omega
    · show ((counter.add length).addAll rest).bytes.toNat = _
      rw [hbytes, add, UInt64.toNat_add, UInt32.toNat_toUInt64, List.map_cons, List.sum_cons, Nat.mod_add_mod]
      congr 1
      omega

end Counter

namespace Table

variable {timer : Timer} {description : TableDescription} {table : Table} {key : Bytes} {id : EntryId}
  {entry : Entry} {operation : Operation}

/-- The length of the packet that an operation counts. -/
def Operation.counted? : Operation → Option UInt32
  | .hit _ length _ => some length
  | .countHeld _ length => some length
  | _ => none

/-- The `operation` is for the object `id`, or for the entry under `key`. -/
def Operation.isFor (key : Bytes) (id : EntryId) (operation : Operation) : Bool :=
  operation.held? = some id || operation.key? = some key

/-- The `operation` is one of those who hold the object `id`. -/
def Operation.isForHeld (id : EntryId) (operation : Operation) : Bool :=
  operation.held? = some id

/-- The `operation` is an update of `key` with a value that reads as the entry `written`. -/
def Writes (layout : Layout) (operation : Operation) (key : Bytes) (written : Entry) : Prop :=
  ∃ value, operation = .update key value ∧ Entry.ofBytes layout value = .ok written

theorem counter_reach_meter {slot : Nat} {request : Request}
    (hcall : operation.call? = some (key, .meter slot request)) (entry : Entry) :
    (table.reach entry operation).counter = entry.counter := by
  cases hresponse : table.respond key (some entry) (.meter slot request) with
  | error error => rw [reach_of_respond_error hcall hresponse]
  | ok response =>
    obtain ⟨found, record, hfound, hentry⟩ := exists_putMeter_of_respond hresponse
    cases hfound
    rw [reach_of_respond hcall hresponse, hentry]
    rfl

/-- An `operation` that writes no entry changes a counter at most by counting its packet. -/
theorem counter_reach (hwrites : ∀ key written, ¬ Writes table.layout operation key written) (entry : Entry) :
    (table.reach entry operation).counter = entry.counter.map (·.addAll operation.counted?.toList) := by
  have hsame : entry.counter = entry.counter.map (·.addAll []) := (Counter.map_addAll_nil _).symm
  cases operation with
  | countHeld => rfl
  | hit => rfl
  | markHeld held slot incoming size now =>
    -- A mark puts a meter or finds none. In both cases the counter stays.
    simp only [reach]
    split <;> exact hsame
  | update key value =>
    cases hvalue : Entry.ofBytes table.layout value with
    | ok written => exact absurd ⟨value, rfl, hvalue⟩ (hwrites key written)
    | error error =>
      have hresponse : table.respond key (some entry) (.update value) = .error error := by
        rw [respond, hvalue]
        rfl
      rw [reach_of_respond_error rfl hresponse]
      exact hsame
  | execute | executeFrom | configure | read | reset =>
    rw [counter_reach_meter rfl]
    exact hsame
  | delete | lookup | entryValue | dump | tally | loadTally => exact hsame

/-- The lengths of the packets that are counted by those of `operations` that `isFor` selects. -/
def counted (isFor : Operation → Bool) (operations : List Operation) : List UInt32 :=
  (operations.filter isFor).filterMap Operation.counted?

theorem counted_append (isFor : Operation → Bool) (before after : List Operation) :
    counted isFor (before ++ after) = counted isFor before ++ counted isFor after := by
  rw [counted, List.filter_append, List.filterMap_append, ← counted, ← counted]

/-- One `operation` counts its packet on the object `id` if it is for that object (`isFor`), and nothing
otherwise. -/
theorem counter_perform {isFor : Operation → Bool} (hid : table.object? id = some entry)
    (hfor : table.target? operation = some id ↔ isFor operation)
    (hwrites : isFor operation → ∀ key written, ¬ Writes table.layout operation key written) :
    ∃ next, (table.perform operation).2.object? id = some next ∧
      next.counter = entry.counter.map (·.addAll (counted isFor [operation])) := by
  refine ⟨_, object?_perform hid operation, ?_⟩
  by_cases htarget : table.target? operation = some id
  · have hisFor := hfor.mp htarget
    have hcounted : counted isFor [operation] = operation.counted?.toList := by
      rw [counted, List.filter_cons_of_pos hisFor, List.filter_nil]
      cases h : operation.counted? <;> simp [h]
    rw [if_pos htarget, counter_reach (hwrites hisFor), hcounted]
  · have hcounted : counted isFor [operation] = [] := by
      rw [counted, List.filter_cons_of_neg (fun hisFor => htarget (hfor.mpr hisFor))]
      rfl
    rw [if_neg htarget, hcounted, Counter.map_addAll_nil]

/-- A run counts on the object `id` the packets of the operations that `isFor` selects, if an invariant `P` tells
that these are the operations that reach the object. -/
theorem counter_run {P : Table → Prop} {isFor : Operation → Bool} {operations : List Operation}
    (hfor : ∀ table, P table → ∀ operation, table.target? operation = some id ↔ isFor operation)
    (hstep : ∀ table, P table → ∀ operation ∈ operations, P (table.perform operation).2 ∧
      (isFor operation → ∀ key written, ¬ Writes table.layout operation key written))
    (h : P table) (hid : table.object? id = some entry) :
    ∃ last, (table.run operations).2.object? id = some last ∧
      last.counter = entry.counter.map (·.addAll (counted isFor operations)) := by
  induction operations generalizing table entry with
  | nil => exact ⟨entry, hid, (Counter.map_addAll_nil _).symm⟩
  | cons operation rest ih =>
    obtain ⟨hnext, hwrites⟩ := hstep table h operation (.head rest)
    obtain ⟨next, hnextId, hcounter⟩ := counter_perform hid (hfor table h operation) hwrites
    obtain ⟨last, hlast, hlastCounter⟩ :=
      ih (fun table h operation hrest => hstep table h operation (.tail _ hrest)) hnext hnextId
    refine ⟨last, hlast, ?_⟩
    have hsplit : counted isFor (operation :: rest) = counted isFor [operation] ++ counted isFor rest :=
      counted_append isFor [operation] rest
    rw [hlastCounter, hcounter, Counter.map_addAll_append, hsplit]

theorem Operation.key?_eq_none (h : operation.held? = some id) : operation.key? = none := by
  cases operation with
  | countHeld | markHeld => rfl
  | _ => cases h

/-- While `key` leads to the object `id`, the operations that reach the object are those for `key` and those for
`id`. -/
theorem Intact.target?_eq_iff (h : table.Intact timer description) (hkey : table.lookup? key = some id)
    (operation : Operation) : table.target? operation = some id ↔ operation.isFor key id := by
  rw [Operation.isFor, Bool.or_eq_true, decide_eq_true_iff, decide_eq_true_iff]
  cases hheld : operation.held? with
  | some other => simp [target?, hheld, Operation.key?_eq_none hheld]
  | none =>
    simp only [target?, hheld, Option.none_or, reduceCtorEq, false_or]
    constructor
    · intro htarget
      obtain ⟨found, hfound, hlookup⟩ := Option.bind_eq_some_iff.mp htarget
      rw [hfound, h.lookup_inj found key id hlookup hkey]
    · intro hfound
      rw [hfound, Option.bind_some, hkey]

/-- The operations that reach an object `id` without a key are those of its holders. -/
theorem Orphan.target?_eq_iff (h : table.Orphan id) (operation : Operation) :
    table.target? operation = some id ↔ operation.isForHeld id := by
  rw [Operation.isForHeld, decide_eq_true_iff]
  exact ⟨fun htarget => not_imp_comm.mp h.target?_ne (not_not.mpr htarget), target?_of_held?⟩

/-- As long as `key` is neither deleted nor written, the counter of its object `id` counts what hits `key` or is
counted by a holder. -/
theorem Intact.counter_run_alive (h : table.Intact timer description) (hkey : table.lookup? key = some id)
    (hid : table.object? id = some entry) {operations : List Operation} (hdelete : .delete key ∉ operations)
    (hwrites : ∀ operation ∈ operations, ∀ written, ¬ Writes description.layout operation key written) :
    ∃ last, (table.run operations).2.object? id = some last ∧
      last.counter = entry.counter.map (·.addAll (counted (Operation.isFor key id) operations)) := by
  refine counter_run (P := fun table => table.Intact timer description ∧ table.lookup? key = some id)
    ?_ ?_ ⟨h, hkey⟩ hid
  · exact fun table htable operation => htable.1.target?_eq_iff htable.2 operation
  · rintro table ⟨hintact, hkey⟩ operation hmem
    have hne : operation ≠ .delete key := fun heq => hdelete (heq ▸ hmem)
    refine ⟨⟨hintact.perform operation, lookup?_perform_of_some hkey hne⟩, ?_⟩
    -- A write is never for a holder, so it could only be one under this key.
    rintro hisFor other written ⟨value, rfl, hvalue⟩
    have hother : other = key := by simpa [Operation.isFor, Operation.held?, Operation.key?] using hisFor
    subst hother
    rw [hintact.layout_eq] at hvalue
    exact hwrites _ hmem written ⟨value, rfl, hvalue⟩

/-- The counter of an object `id` without a key counts what its holders count. -/
theorem Intact.counter_run_gone (h : table.Intact timer description) (horphan : table.Orphan id)
    (hid : table.object? id = some entry) (operations : List Operation) :
    ∃ last, (table.run operations).2.object? id = some last ∧
      last.counter = entry.counter.map (·.addAll (counted (Operation.isForHeld id) operations)) := by
  refine counter_run (P := fun table => table.Intact timer description ∧ table.Orphan id ∧
    ∃ entry, table.object? id = some entry) ?_ ?_ ⟨h, horphan, entry, hid⟩ hid
  · exact fun table htable operation => htable.2.1.target?_eq_iff operation
  · rintro table ⟨hintact, horphan, entry, hid⟩ operation -
    refine ⟨⟨hintact.perform operation, horphan.perform (lt_of_object? hid) operation,
      _, object?_perform hid operation⟩, ?_⟩
    rintro hisFor other written ⟨value, rfl, -⟩
    cases hisFor

/-- An operation adds an object only if it writes an entry under a key that was not there. -/
theorem length_objects_perform (table : Table) (operation : Operation) :
    (table.perform operation).2.objects.length = table.objects.length ∨
      ∃ key written, Writes table.layout operation key written ∧ table.lookup? key = none := by
  refine perform_preserves (P := fun next => next.objects.length = table.objects.length ∨ _) (.inl rfl) ?_
  intro answer next heffect
  -- Objects are rewritten in place, so only a key that was not there adds one.
  cases heffect with
  | serve _ hserve =>
    obtain ⟨_, _, _, _, -, -, -, rfl⟩ := serve_eq_ok_iff.mp hserve
    exact .inl (List.length_set ..)
  | @update key value _ hupdate =>
    obtain ⟨written, hwritten, rfl⟩ := update_eq_ok_iff.mp hupdate
    cases hkey : table.lookup? key with
    | some id =>
      rw [write_of_lookup? hkey]
      exact .inl (List.length_set ..)
    | none => exact .inr ⟨key, written, ⟨value, rfl, hwritten⟩, hkey⟩
  | delete hdelete =>
    obtain ⟨_, -, rfl⟩ := delete_eq_ok_iff.mp hdelete
    exact .inl rfl
  | hit hhit =>
    obtain ⟨_, _, -, -, rfl⟩ := hit_eq_ok_iff.mp hhit
    exact .inl (List.length_set ..)
  | countHeld =>
    rw [countObject]
    split
    · exact .inl (List.length_set ..)
    · exact .inl rfl
  | markHeld hmark =>
    obtain ⟨_, _, -, -, -, rfl⟩ := markObjectFrom?_eq_some_iff.mp hmark
    exact .inl (List.length_set ..)
  | markAbsent | loadTally | view => exact .inl rfl

/-- An object that is there after an `operation` was there before, or `operation` wrote it under its key. -/
theorem object?_of_perform (h : (table.perform operation).2.object? id = some entry) :
    (∃ before, table.object? id = some before) ∨
      ∃ key written, Writes table.layout operation key written ∧
        (table.perform operation).2.lookup? key = some id := by
  by_cases hlt : id < table.objects.length
  · exact .inl ⟨_, List.getElem?_eq_getElem hlt⟩
  · -- The object is the new one, and new objects get the next free number.
    have hnext := lt_of_object? h
    rcases table.length_objects_perform operation with hsame | ⟨key, written, ⟨value, rfl, hwritten⟩, hkey⟩
    · exact absurd (hsame ▸ hnext) hlt
    · refine .inr ⟨key, written, ⟨value, rfl, hwritten⟩, ?_⟩
      rw [perform_update hwritten] at hnext ⊢
      have hlength (entry : Entry) : (table.write key entry).objects.length = table.objects.length + 1 := by
        rw [write, hkey]
        exact List.length_append
      rw [hlength] at hnext
      rw [lookup?_write, if_pos rfl, hkey, Option.getD_none, Option.some.injEq]
      exact Nat.le_antisymm (Nat.le_of_not_lt hlt) (Nat.lt_succ_iff.mp hnext)

/-- The `operations` before the first that deletes `key`. -/
def untilDelete (key : Bytes) (operations : List Operation) : List Operation :=
  operations.takeWhile fun operation => operation ≠ .delete key

/-- The `operations` from the first that deletes `key` on. -/
def fromDelete (key : Bytes) (operations : List Operation) : List Operation :=
  operations.dropWhile fun operation => operation ≠ .delete key

/-- The place in a run of `operations` from `start` where the object `id` was written last. -/
structure LastWrite (start : Table) (operations : List Operation) (id : EntryId) where
  /-- What was done before. -/
  before : List Operation
  /-- The key under which it was written. -/
  key : Bytes
  /-- The raw value. -/
  value : Bytes
  /-- What was done since. -/
  since : List Operation
  /-- The entry that was written. -/
  written : Entry
  /-- The run consists of these parts. -/
  operations_eq : operations = before ++ .update key value :: since
  /-- The raw value was accepted. -/
  accepted : Entry.ofBytes start.layout value = .ok written
  /-- The object was written by it. -/
  lookup_eq : ((start.run before).2.perform (.update key value)).2.lookup? key = some id
  /-- As long as its key led to it, the object was not written again. -/
  notAgain : ∀ operation ∈ untilDelete key since, ∀ later, ¬ Writes start.layout operation key later

/-- The lengths of the packets that were counted on the object `id` since `write`: those that hit `write.key`
until it was deleted, and those that were counted by a holder. -/
def LastWrite.counted {start : Table} {operations : List Operation} (write : LastWrite start operations id) :
    List UInt32 :=
  Table.counted (Operation.isFor write.key id) (untilDelete write.key write.since) ++
    Table.counted (Operation.isForHeld id) (fromDelete write.key write.since)

theorem run_concat (table : Table) (operations : List Operation) (operation : Operation) :
    (table.run (operations ++ [operation])).2 = ((table.run operations).2.perform operation).2 := by
  rw [run, runWith_append]
  rfl

theorem run_append_cons (table : Table) (before after : List Operation) (operation : Operation) :
    (table.run (before ++ operation :: after)).2 =
      (((table.run before).2.perform operation).2.run after).2 := by
  rw [run, runWith_append]
  rfl

theorem LastWrite.run_eq {start : Table} {operations : List Operation} (write : LastWrite start operations id) :
    (start.run operations).2 =
      (((start.run write.before).2.perform (.update write.key write.value)).2.run write.since).2 :=
  (congrArg (fun operations => (start.run operations).2) write.operations_eq).trans (run_append_cons ..)

theorem delete_not_mem_untilDelete (key : Bytes) (operations : List Operation) :
    .delete key ∉ untilDelete key operations := by
  intro hmem
  simpa using List.mem_takeWhile_imp hmem

theorem fromDelete_cases (key : Bytes) (operations : List Operation) :
    fromDelete key operations = [] ∨ ∃ rest, fromDelete key operations = .delete key :: rest := by
  cases hfrom : fromDelete key operations with
  | nil => exact .inl rfl
  | cons first rest =>
    have hhead :=
      List.head?_dropWhile_not (fun operation : Operation => decide (operation ≠ .delete key)) operations
    rw [← fromDelete, hfrom] at hhead
    have hfirst : first = .delete key := by simpa using hhead
    exact .inr ⟨rest, by rw [hfirst]⟩

theorem mem_untilDelete_concat {operations : List Operation} {last : Operation}
    (h : operation ∈ untilDelete key (operations ++ [last])) :
    operation ∈ untilDelete key operations ∨ operation = last ∧ .delete key ∉ operations := by
  induction operations with
  | nil => exact .inr ⟨List.mem_singleton.mp (List.takeWhile_subset _ h), List.not_mem_nil⟩
  | cons first rest ih =>
    by_cases hfirst : first = .delete key
    · simp [untilDelete, hfirst] at h
    · have hcons (tail : List Operation) : untilDelete key (first :: tail) = first :: untilDelete key tail := by
        simp [untilDelete, hfirst]
      rw [List.cons_append, hcons, List.mem_cons] at h
      rw [hcons, List.mem_cons, List.mem_cons, not_or]
      rcases h with heq | hrest
      · exact .inl (.inl heq)
      · exact (ih hrest).imp .inr fun hlast => ⟨hlast.1, Ne.symm hfirst, hlast.2⟩

/-- If there are no objects at the start, then every object after a run has a last write in it. -/
theorem Intact.exists_lastWrite (h : table.Intact timer description) (hnew : table.objects = [])
    {operations : List Operation} (hid : (table.run operations).2.object? id = some entry) :
    Nonempty (LastWrite table operations id) := by
  induction operations using List.reverseRecOn generalizing entry with
  | nil =>
    have hlt : id < table.objects.length := lt_of_object? hid
    simp [hnew] at hlt
  | append_singleton operations operation ih =>
    rw [run_concat] at hid
    set last := (table.run operations).2 with hlast
    have hlayout : last.layout = table.layout := by
      rw [(h.run operations).layout_eq, h.layout_eq]
    by_cases hwrites : ∃ key written, Writes table.layout operation key written ∧
        (last.perform operation).2.lookup? key = some id
    · obtain ⟨key, written, ⟨value, rfl, hwritten⟩, hlookup⟩ := hwrites
      exact ⟨⟨operations, key, value, [], written, rfl, hwritten, hlookup, by simp [untilDelete]⟩⟩
    · -- The object was there before, and where it was written last is still the last place.
      obtain ⟨before, hbefore⟩ := (object?_of_perform hid).resolve_right (hlayout ▸ hwrites)
      obtain ⟨write⟩ := ih hbefore
      refine ⟨{ write with
        since := write.since ++ [operation]
        operations_eq := (congrArg (· ++ [operation]) write.operations_eq).trans (by simp)
        notAgain := ?_ }⟩
      intro later hlater written hagain
      rcases mem_untilDelete_concat hlater with hsince | ⟨rfl, hdelete⟩
      · exact write.notAgain later hsince written hagain
      · -- The key still leads to the object, so writing it would have written the object.
        have hkey : last.lookup? write.key = some id := by
          rw [hlast, write.run_eq]
          exact lookup?_run_of_not_mem write.lookup_eq hdelete
        obtain ⟨value, rfl, hvalue⟩ := hagain
        exact hwrites ⟨write.key, written, ⟨value, rfl, hvalue⟩,
          lookup?_perform_of_some hkey (by simp)⟩

theorem Intact.object?_of_lastWrite (h : table.Intact timer description) {operations : List Operation}
    (write : LastWrite table operations id) :
    ((table.run write.before).2.perform (.update write.key write.value)).2.object? id = some write.written := by
  have hbefore := h.run write.before
  have hlookup := write.lookup_eq
  have hwritten : Entry.ofBytes (table.run write.before).2.layout write.value = .ok write.written := by
    rw [hbefore.layout_eq, ← h.layout_eq]
    exact write.accepted
  rw [perform_update hwritten, hbefore.revise_eq_self write.key hwritten] at hlookup ⊢
  have hentry := hbefore.entryAt?_write write.key write.written write.key
  rwa [if_pos rfl, entryAt?, hlookup, Option.bind_some] at hentry

/-- The counter of an object is `write.written.counter` with all packets that were counted since. -/
theorem Intact.counter_of_lastWrite (h : table.Intact timer description) {operations : List Operation}
    (write : LastWrite table operations id) (hid : (table.run operations).2.object? id = some entry) :
    entry.counter = write.written.counter.map (·.addAll write.counted) := by
  have hwritten := h.object?_of_lastWrite write
  rw [write.run_eq] at hid
  set after := ((table.run write.before).2.perform (.update write.key write.value)).2
  have hafter : after.Intact timer description := (h.run write.before).perform _
  -- First the part of the run in which the key leads to the object, then the part after its deletion.
  obtain ⟨alive, halive, haliveCounter⟩ := hafter.counter_run_alive write.lookup_eq hwritten
    (delete_not_mem_untilDelete write.key write.since) (h.layout_eq ▸ write.notAgain)
  have hsince : write.since = untilDelete write.key write.since ++ fromDelete write.key write.since :=
    (List.takeWhile_append_dropWhile).symm
  rw [LastWrite.counted]
  rcases fromDelete_cases write.key write.since with hgone | ⟨rest, hgone⟩
  · rw [hgone, List.append_nil] at hsince
    rw [hsince, halive, Option.some.injEq] at hid
    rw [← hid, haliveCounter, hgone]
    simp [Table.counted]
  · rw [hsince, hgone, run_append_cons] at hid
    set deleting := (after.run (untilDelete write.key write.since)).2
    have hdeleting : deleting.Intact timer description := hafter.run _
    have hkey : deleting.lookup? write.key = some id :=
      lookup?_run_of_not_mem write.lookup_eq (delete_not_mem_untilDelete write.key write.since)
    have hstill : (deleting.perform (.delete write.key)).2.object? id = some alive := by
      rw [object?_perform halive, reach_eq_self rfl rfl, ite_self]
    obtain ⟨last, hlast, hlastCounter⟩ :=
      (hdeleting.perform _).counter_run_gone (hdeleting.orphan_delete hkey) hstill rest
    rw [hlast, Option.some.injEq] at hid
    have hcounted : Table.counted (Operation.isForHeld id) (.delete write.key :: rest) =
        Table.counted (Operation.isForHeld id) rest := by
      rw [Table.counted, List.filter_cons_of_neg (by simp [Operation.isForHeld, Operation.held?]),
        ← Table.counted]
    rw [← hid, hlastCounter, haliveCounter, Counter.map_addAll_append, hgone, hcounted]

/-- A `key` that leads to an object is the one under which `write` wrote it, and it was not deleted since. -/
theorem Intact.key_of_lastWrite (h : table.Intact timer description) {operations : List Operation}
    (write : LastWrite table operations id) (hkey : (table.run operations).2.lookup? key = some id) :
    key = write.key ∧ .delete key ∉ write.since := by
  have hafter := (h.run write.before).perform (.update write.key write.value)
  have hdelete : .delete write.key ∉ write.since := by
    intro hmem
    rw [write.run_eq] at hkey
    exact hafter.orphan_of_delete_mem write.lookup_eq hmem key hkey
  have hown : (table.run operations).2.lookup? write.key = some id := by
    rw [write.run_eq]
    exact lookup?_run_of_not_mem write.lookup_eq hdelete
  have heq : key = write.key := (h.run operations).lookup_inj key write.key id hkey hown
  exact ⟨heq, heq ▸ hdelete⟩

end Table

/-- The section of the counter in the value of `entry` is the raw form of `entry.counter`. -/
theorem Entry.slice_counter {entry : Entry} {layout : Layout} {kind : CounterKind} {counter : Counter}
    (hkind : layout.counter = some kind) (hcounter : entry.counter = some counter) :
    (entry.toBytes layout).slice layout.actionLength kind.byteLength = counter.encode kind := by
  have hraw : entry.counterBytes layout = counter.encode kind := by
    simp only [counterBytes, hkind, hcounter, Option.getD_some]
  have hslice := Bytes.slice_append (entry.action.encode layout) (counter.encode kind)
    (entry.meters.flatMap Record.toBytes)
  rwa [ActionRef.length_encode, Counter.length_encode, ← hraw, ← toBytes, hraw] at hslice

/-- A decoded counter has nothing in the half that `kind` leaves out. -/
theorem Counter.stored_decode (bytes : Bytes) (kind : CounterKind) :
    (decode bytes kind).stored kind = decode bytes kind := by
  cases kind <;> rfl

/-- Nothing that is counted is ever lost or made up, in any run of any store or table:

- every tally is the one that was loaded last, or that of the start, with the colours that were given since to
  metered packets;
- the counter of every object is the one that was decoded when the object was written last, with the packets that
  hit its key or were counted by a holder since, and its raw value holds what its kind selects;
- new stores and tables have counted nothing. -/
theorem accounts_are_exact :
    (∀ (store : Store) (operations : List Store.Operation),
      (lastLoaded Store.Operation.loaded? store.tally operations).Accounts (store.run operations).2.tally
        (givenSince Store.Operation.loaded? Store.Operation.given (trace Store.perform store operations))) ∧
    (∀ (table : Table) (operations : List Table.Operation),
      (lastLoaded Table.Operation.loaded? table.tally operations).Accounts (table.run operations).2.tally
        (givenSince Table.Operation.loaded? Table.Operation.given (trace Table.perform table operations))) ∧
    (∀ name capacity unit timer color, (Store.create name capacity unit timer).tally.count color = 0) ∧
    ∀ name layout unit timer,
      let start := Table.create name layout unit timer
      (∀ color, start.tally.count color = 0) ∧
      ∀ operations id entry, (start.run operations).2.object? id = some entry →
        ∃ write : Table.LastWrite start operations id,
          (∀ key, (start.run operations).2.lookup? key = some id →
            key = write.key ∧ .delete key ∉ write.since ∧
              (start.run operations).2.entryValue key = .ok (entry.toBytes layout)) ∧
          ∀ kind, layout.counter = some kind → ∃ first counter,
            write.written.counter = some first ∧ entry.counter = some counter ∧
            first = Counter.decode (write.value.drop layout.actionLength) kind ∧ first.stored kind = first ∧
            first.Accounts counter write.counted ∧
            (entry.toBytes layout).slice layout.actionLength kind.byteLength = counter.encode kind := by
  refine ⟨?_, ?_, ?_, ?_⟩
  · intro store operations
    rw [Store.run, tally_runWith Store.tally Store.tally_perform]
    exact Tally.accounts_addAll _ _
  · intro table operations
    rw [Table.run, tally_runWith Table.tally Table.tally_perform]
    exact Tally.accounts_addAll _ _
  · intro name capacity unit timer color
    cases color <;> rfl
  · intro name layout unit timer start
    have hstart : start.Intact timer ⟨name, layout, unit⟩ := Table.intact_tableOf timer ⟨name, layout, unit⟩
    refine ⟨fun color => by cases color <;> rfl, fun operations id entry hid => ?_⟩
    -- The object has a last write, to which both accounts refer.
    obtain ⟨write⟩ := hstart.exists_lastWrite rfl hid
    refine ⟨write, fun key hkey => ?_, fun kind hkind => ?_⟩
    · obtain ⟨heq, hdelete⟩ := hstart.key_of_lastWrite write hkey
      refine ⟨heq, hdelete, ?_⟩
      have hfind := Table.find?_eq_some_iff.mpr ⟨hkey, hid⟩
      have hlayout : (start.run operations).2.layout = layout := (hstart.run operations).layout_eq
      simp [Table.entryValue, Table.require, hfind, hlayout]
    · have hcounter := hstart.counter_of_lastWrite write hid
      obtain ⟨-, -, -, hfirst⟩ := Entry.ofBytes_eq_ok_iff.mp write.accepted
      have hlayout : start.layout.counter = some kind := hkind
      rw [hlayout, Option.map_some] at hfirst
      rw [hfirst, Option.map_some] at hcounter
      exact ⟨_, _, hfirst, hcounter, rfl, Counter.stored_decode _ kind, Counter.accounts_addAll _ _,
        Entry.slice_counter hkind hcounter⟩

/-- A packet hits an entry, its key is deleted and written again, and a holder counts another packet on the
object. Both packets are in its account. -/
theorem accounts_are_exact_held :
    let start := Table.create "t" ⟨0, some .packets, 0⟩ .bytes (.ofResolution 1)
    let operations : List Table.Operation := [.update [7] (Bytes.zeros 16), .hit [7] 60 1, .delete [7],
      .update [7] (Bytes.zeros 16), .countHeld 0 40]
    ∃ entry, (start.run operations).2.object? 0 = some entry ∧ entry.counter = some ⟨2, 100⟩ ∧
      ∃ (write : Table.LastWrite start operations 0) (first : Counter),
        write.written.counter = some first ∧ first.Accounts ⟨2, 100⟩ write.counted := by
  intro start operations
  have hobject : (start.run operations).2.object? 0 = some { counter := some ⟨2, 100⟩ } := by decide +kernel
  obtain ⟨write, -, hcounter⟩ := (accounts_are_exact.2.2.2 "t" ⟨0, some .packets, 0⟩ .bytes (.ofResolution 1)).2
    operations 0 _ hobject
  obtain ⟨first, counter, hfirst, heq, -, -, haccount, -⟩ := hcounter .packets rfl
  cases heq
  exact ⟨_, hobject, rfl, write, first, hfirst, haccount⟩

end TrafficMeter
