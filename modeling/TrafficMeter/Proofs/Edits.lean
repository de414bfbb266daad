import TrafficMeter.Proofs.Accounting
import TrafficMeter.Proofs.Canonical

/-!
# Edits of a table

Entries are written and deleted by key, in any order, and some of these edits are refused. What the table has
under a key afterwards is what the edits of this key make of what was under it, one after the other
(`Table.Intact.find?_values_editAll`). So a dump is the ordered list of a finite map, and neither a dump nor a
snapshot tells how the edits of different keys were interleaved.

Whether a key is present can be told from the answers alone: it is, if it was written after it was last
deleted (`Table.Intact.isSome_values_editAll`).

## Main definitions

* `Table.Edit`: an update or a deletion, with `Edit.result`, what it makes of the value under its key;
* `Table.editAll`: a table after edits, accepted or refused.

## Main results

* `Table.Intact.find?_values_edit`, `Table.Intact.find?_values_editAll`: what is under a key after one edit and
  after many;
* `Table.Intact.dump_editAll_eq`: how edits of different keys are interleaved does not matter;
* `Table.edits_act_on_ordered_map`: a table acts as an ordered finite map.
-/

namespace TrafficMeter

/-- The position of the last element of `list` that satisfies `p`, counted from one, or zero if there is none. -/
def lastPosition {α : Type} (p : α → Bool) (list : List α) : Nat :=
  list.length - list.reverse.findIdx p

theorem lastPosition_le_length {α : Type} (p : α → Bool) (list : List α) :
    lastPosition p list ≤ list.length :=
  Nat.sub_le _ _

theorem lastPosition_concat {α : Type} (p : α → Bool) (list : List α) (a : α) :
    lastPosition p (list ++ [a]) = if p a then list.length + 1 else lastPosition p list := by
  unfold lastPosition
  rw [List.reverse_concat, List.findIdx_cons, List.length_append, List.length_singleton]
  cases p a <;> simp

namespace Table

/-- A change to the entries of a table. -/
inductive Edit where
  /-- Write a value under a key. -/
  | update (key value : Bytes)
  /-- Remove a key. -/
  | delete (key : Bytes)
deriving DecidableEq

namespace Edit

/-- The key that is edited. -/
def key : Edit → Bytes
  | update key _ => key
  | delete key => key

/-- What is asked of the table. -/
def operation : Edit → Operation
  | update key value => .update key value
  | delete key => .delete key

/-- What an edit makes of the value `held` under its key. A value that is accepted is kept with zeros for its
padding, and one that is refused leaves `held` as it was. -/
def result (layout : Layout) (held : Option Bytes) : Edit → Option Bytes
  | update _ value =>
    match Entry.ofBytes layout value with
    | .ok _ => some (value.blank layout.IsPadding)
    | .error _ => held
  | delete _ => none

/-- The edit wrote `key`, by what was answered. -/
def wrote (key : Bytes) : Edit × Except Error Answer → Bool
  | (update other _, .ok _) => other = key
  | _ => false

/-- The edit deleted `key`, by what was answered. -/
def deleted (key : Bytes) : Edit × Except Error Answer → Bool
  | (delete other, .ok _) => other = key
  | _ => false

theorem deleted_eq_false_of_wrote {key : Bytes} {step : Edit × Except Error Answer} (h : wrote key step) :
    deleted key step = false := by
  obtain ⟨edit, answer⟩ := step
  cases edit with
  | update => rfl
  | delete => cases h

end Edit

/-- Makes `edit` on `table`. -/
def edit (table : Table) (edit : Edit) : Except Error Answer × Table :=
  table.perform edit.operation

/-- `table` after `edits`, one after the other. -/
def editAll (table : Table) (edits : List Edit) : Table :=
  (runWith Table.edit table edits).2

variable {timer : Timer} {description : TableDescription} {table : Table}

/-! ### One edit -/

/-- A `key` is present exactly if there is a value under it. -/
theorem Intact.isSome_find?_values (h : table.Intact timer description) (key : Bytes) :
    (table.values.find? key).isSome = (table.lookup? key).isSome := by
  rw [find?_values, Option.isSome_map, stored?, Option.isSome_map, entryAt?]
  cases hid : table.lookup? key with
  | none => rfl
  | some id =>
    obtain ⟨entry, hentry⟩ := h.exists_object hid
    simp [hentry]

/-- There are as many entries as `dump` lists, because every key has its object. -/
theorem Intact.size_eq_length_dump (h : table.Intact timer description) : table.size = table.dump.length := by
  obtain ⟨listing, hindex⟩ := table.index.exists_listing
  have hsize : table.size = listing.toList.length := by
    rw [size, hindex]
    rfl
  rw [hsize, dump_eq_sortPairs hindex, length_sortPairs]
  refine (List.filterMap_length_eq_length.mpr ?_).symm
  rintro ⟨key, id⟩ hbinding
  have hid : table.lookup? key = some id := by
    rw [lookup?, hindex]
    exact UnorderedMap.find?_ofListing_eq_some_iff.mpr hbinding
  obtain ⟨entry, hentry⟩ := h.exists_object hid
  simp [raw?, hentry]

/-- The value under `key` is the one that `entryValue` reads. -/
theorem toOption_entryValue (table : Table) (key : Bytes) :
    (table.entryValue key).toOption = table.values.find? key := by
  rw [find?_values, stored?, entryAt?_eq_map_find?, Table.entryValue, require]
  cases table.find? key with
  | none => rfl
  | some found => simp [Except.toOption]

theorem find?_values_erase (table : Table) (key other : Bytes) :
    ({ table with index := table.index.erase key } : Table).values.find? other =
      if other = key then none else table.values.find? other := by
  rw [find?_values, find?_values, stored?_erase]
  split <;> rfl

theorem Intact.find?_values_write (h : table.Intact timer description) (key : Bytes) (entry : Entry)
    (other : Bytes) :
    (table.write key entry).values.find? other =
      if other = key then some (entry.toBytes table.layout) else table.values.find? other := by
  rw [find?_values, find?_values, h.stored?_write, layout_write]
  split
  · rw [Option.map_some, Entry.toBytes_stored]
  · rfl

/-- An `edit` writes its key, deletes it, or is refused. -/
theorem Intact.edit_cases (h : table.Intact timer description) (edit : Edit) :
    (∃ key value entry, edit = .update key value ∧ Entry.ofBytes table.layout value = .ok entry ∧
        table.edit edit = (.ok .done, table.write key entry)) ∨
      (∃ key, edit = .delete key ∧
        table.edit edit = (.ok .done, { table with index := table.index.erase key })) ∨
      ∃ error, table.edit edit = (.error error, table) ∧
        edit.result table.layout (table.values.find? edit.key) = table.values.find? edit.key := by
  cases edit with
  | update key value =>
    cases hentry : Entry.ofBytes table.layout value with
    | ok entry =>
      refine .inl ⟨key, value, entry, rfl, hentry, ?_⟩
      rw [Table.edit, Edit.operation, perform_update hentry, h.revise_eq_self key hentry]
    | error error =>
      refine .inr (.inr ⟨error, ?_, ?_⟩)
      · simp [Table.edit, Edit.operation, perform_eq_settle, Table.attempt, update_eq, settle, hentry]
      · simp [Edit.result, hentry]
  | delete key =>
    cases hfound : table.find? key with
    | some found =>
      have hdelete := delete_eq_ok_iff.mpr ⟨found.1, (find?_eq_some_iff.mp hfound).1, rfl⟩
      refine .inr (.inl ⟨key, rfl, ?_⟩)
      simp [Table.edit, Edit.operation, perform_eq_settle, Table.attempt, settle, hdelete]
    | none =>
      refine .inr (.inr ⟨.entryNotFound table.name key, ?_, ?_⟩)
      · simp [Table.edit, Edit.operation, perform_eq_settle, Table.attempt, settle, h.delete_of_none hfound]
      · -- A key that is not found has no value, and deleting it would leave it so.
        rw [find?_values, stored?, entryAt?_eq_map_find?, Edit.key, hfound]
        rfl

theorem Intact.edit (h : table.Intact timer description) (edit : Edit) :
    (table.edit edit).2.Intact timer description :=
  h.perform edit.operation

/-- An `edit` changes nothing but entries. -/
theorem Intact.frame_edit (h : table.Intact timer description) (edit : Edit) :
    (table.edit edit).2.frame = table.frame := by
  obtain ⟨key, value, entry, -, -, hedit⟩ | ⟨key, -, hedit⟩ | ⟨error, hedit, -⟩ := h.edit_cases edit
  · rw [hedit, frame_write]
  · rw [hedit]
    rfl
  · rw [hedit]

/-- An `edit` replaces the value under its own key by `edit.result`, and leaves the values under other keys. -/
theorem Intact.find?_values_edit (h : table.Intact timer description) (edit : Edit) (key : Bytes) :
    (table.edit edit).2.values.find? key =
      if key = edit.key then edit.result table.layout (table.values.find? key)
      else table.values.find? key := by
  obtain ⟨edited, value, entry, rfl, hentry, hedit⟩ | ⟨edited, rfl, hedit⟩ | ⟨error, hedit, hresult⟩ :=
    h.edit_cases edit
  · rw [hedit, h.find?_values_write edited entry, Entry.toBytes_of_ofBytes hentry, Edit.result, hentry, Edit.key]
  · rw [hedit, find?_values_erase]
    rfl
  · rw [hedit]
    split
    next hkey => rw [hkey, hresult]
    next => rfl

/-- Whether `key` is present after an `edit` can be told from the answer. -/
theorem Intact.isSome_values_edit (h : table.Intact timer description) (edit : Edit) (key : Bytes) :
    ((table.edit edit).2.values.find? key).isSome =
      if Edit.wrote key (edit, (table.edit edit).1) then true
      else if Edit.deleted key (edit, (table.edit edit).1) then false
      else (table.values.find? key).isSome := by
  obtain ⟨edited, value, entry, rfl, hentry, hedit⟩ | ⟨edited, rfl, hedit⟩ | ⟨error, hedit, -⟩ :=
    h.edit_cases edit
  · rw [hedit, h.find?_values_write edited entry]
    by_cases hkey : key = edited
    · simp [Edit.wrote, hkey]
    · simp [Edit.wrote, Edit.deleted, hkey, Ne.symm hkey]
  · rw [hedit, find?_values_erase]
    by_cases hkey : key = edited
    · simp [Edit.wrote, Edit.deleted, hkey]
    · simp [Edit.wrote, Edit.deleted, hkey, Ne.symm hkey]
  · rw [hedit]
    cases edit <;> rfl

/-! ### All edits -/

theorem editAll_cons (table : Table) (edit : Edit) (rest : List Edit) :
    table.editAll (edit :: rest) = (table.edit edit).2.editAll rest := rfl

theorem editAll_concat (table : Table) (edits : List Edit) (edit : Edit) :
    table.editAll (edits ++ [edit]) = ((table.editAll edits).edit edit).2 := by
  rw [editAll, runWith_append]
  rfl

theorem trace_edit_concat (table : Table) (edits : List Edit) (edit : Edit) :
    trace Table.edit table (edits ++ [edit]) =
      trace Table.edit table edits ++ [(edit, ((table.editAll edits).edit edit).1)] :=
  trace_concat ..

theorem Intact.editAll (h : table.Intact timer description) (edits : List Edit) :
    (table.editAll edits).Intact timer description :=
  runWith_preserves (P := Intact timer description) (fun _ edit hstate => Intact.edit hstate edit) h edits

/-- `edits` change nothing but entries. -/
theorem Intact.frame_editAll (h : table.Intact timer description) (edits : List Edit) :
    (table.editAll edits).frame = table.frame := by
  induction edits generalizing table with
  | nil => rfl
  | cons edit rest ih => rw [editAll_cons, ih (h.edit edit), h.frame_edit]

/-- What is under `key` after `edits` is what the edits of `key` make of what was there. -/
theorem Intact.find?_values_editAll (h : table.Intact timer description) (edits : List Edit) (key : Bytes) :
    (table.editAll edits).values.find? key =
      (edits.filter (·.key = key)).foldl (Edit.result table.layout) (table.values.find? key) := by
  induction edits generalizing table with
  | nil => rfl
  | cons edit rest ih =>
    have hlayout : (table.edit edit).2.layout = table.layout :=
      (congrArg Table.layout (h.frame_edit edit) :)
    rw [editAll_cons, ih (h.edit edit), hlayout, h.find?_values_edit, List.filter_cons]
    -- An edit of another key neither counts for this one nor changes what is under it.
    by_cases hkey : edit.key = key
    · simp [hkey]
    · simp [hkey, Ne.symm hkey]

/-- If `edits` and `others` are the same for each key, then they leave the same dump, however they are
interleaved. -/
theorem Intact.dump_editAll_eq (h : table.Intact timer description) {edits others : List Edit}
    (hkeys : ∀ key, edits.filter (·.key = key) = others.filter (·.key = key)) :
    (table.editAll edits).dump = (table.editAll others).dump := by
  have hvalues : (table.editAll edits).values = (table.editAll others).values := by
    refine OrderedMap.ext_find? fun key => ?_
    rw [h.find?_values_editAll, h.find?_values_editAll, hkeys]
  exact congrArg OrderedMap.toList hvalues

/-- Whether `key` is present after `edits` can be told from the answers: it was last written after it was last
deleted, or it was there at the start and was never deleted. -/
theorem Intact.isSome_values_editAll (h : table.Intact timer description) (edits : List Edit) (key : Bytes) :
    ((table.editAll edits).values.find? key).isSome ↔
      lastPosition (Edit.deleted key) (trace Table.edit table edits) <
          lastPosition (Edit.wrote key) (trace Table.edit table edits) ∨
        (lastPosition (Edit.deleted key) (trace Table.edit table edits) = 0 ∧
          (table.values.find? key).isSome) := by
  -- From the end: a new edit that wrote or deleted the key has a position above all others, and decides. Any
  -- other edit keeps the positions and the key.
  induction edits using List.reverseRecOn with
  | nil => simp [Table.editAll, trace, runWith, lastPosition]
  | append_singleton edits edit ih =>
    have hwrote_le := lastPosition_le_length (Edit.wrote key) (trace Table.edit table edits)
    have hdeleted_le := lastPosition_le_length (Edit.deleted key) (trace Table.edit table edits)
    rw [editAll_concat, (h.editAll edits).isSome_values_edit, trace_edit_concat, lastPosition_concat,
      lastPosition_concat]
    generalize ((table.editAll edits).edit edit).1 = answer
    cases hwrote : Edit.wrote key (edit, answer) with
    | true =>
      have hnew : lastPosition (Edit.deleted key) (trace Table.edit table edits) <
          (trace Table.edit table edits).length + 1 := by omega
      simp [Edit.deleted_eq_false_of_wrote hwrote, hnew]
    | false =>
      cases hdeleted : Edit.deleted key (edit, answer) with
      | true =>
        have hold : ¬ (trace Table.edit table edits).length + 1 <
            lastPosition (Edit.wrote key) (trace Table.edit table edits) := by omega
        simp [hold]
      | false => simpa using ih

end Table

/-! ### Edits in a pipeline -/

namespace Pipeline

variable {pipeline : Pipeline} {name : String} {table : Table}

/-- `pipeline` after `edits` of the table with this `name`. -/
def editTable (pipeline : Pipeline) (name : String) (edits : List Table.Edit) : Pipeline :=
  (pipeline.run (edits.map fun edit => .table name edit.operation)).2

/-- Edits of the table with this `name` change nothing else in `pipeline`. -/
theorem editTable_eq_putTable (h : pipeline.tables.find? name = some table) (edits : List Table.Edit) :
    pipeline.editTable name edits = pipeline.putTable name (table.editAll edits) := by
  induction edits generalizing pipeline table with
  | nil => exact (putTable_eq_self h).symm
  | cons edit rest ih =>
    have hperform : (pipeline.perform (.table name edit.operation)).2 =
        pipeline.putTable name (table.edit edit).2 := by
      rw [perform_table (table_eq_ok_iff.mpr h), Table.edit]
    show (pipeline.perform (.table name edit.operation)).2.editTable name rest = _
    rw [hperform, ih (find?_putTable_self h _), putTable_putTable, Table.editAll_cons]

end Pipeline

namespace Table

/-- A table is an ordered finite map, although its index has no order. After any `edits`, accepted or refused:

- a dump lists every key that is present once, in the order of the bytes of the keys and with the value that is
  read under it, and there are as many entries as are listed;
- a key is present if it was last written after it was last deleted, or if it was there at the start and was
  never deleted;
- what is under a key is what its own edits make of what was there;
- so edits that are the same for each key leave the same dump, and the same snapshot of any pipeline that has the
  table, however they are interleaved. -/
theorem edits_act_on_ordered_map (table : Table) (htable : table.Reachable) (edits : List Edit) :
    let last := table.editAll edits
    let history := trace Table.edit table edits
    last.dump.Pairwise (fun entry other => entry.1 < other.1) ∧
    (∀ key value, (key, value) ∈ last.dump ↔ last.entryValue key = .ok value) ∧
    (∀ key, key ∈ last.dump.map Prod.fst ↔ (last.lookup? key).isSome) ∧
    last.size = last.dump.length ∧
    (∀ key, (last.lookup? key).isSome ↔
      lastPosition (Edit.deleted key) history < lastPosition (Edit.wrote key) history ∨
        lastPosition (Edit.deleted key) history = 0 ∧ (table.lookup? key).isSome) ∧
    (∀ key, (last.entryValue key).toOption =
      (edits.filter (·.key = key)).foldl (Edit.result table.layout) (table.entryValue key).toOption) ∧
    ∀ others : List Edit, (∀ key, edits.filter (·.key = key) = others.filter (·.key = key)) →
      (table.editAll others).dump = last.dump ∧
        ∀ (pipeline : Pipeline) (name : String), pipeline.table name = .ok table →
          (pipeline.editTable name others).snapshot = (pipeline.editTable name edits).snapshot := by
  obtain ⟨timer, description, hintact⟩ := htable.intact
  have hlast := hintact.editAll edits
  intro last history
  refine ⟨last.increasing_dump, fun key value => ?_, fun key => ?_, hlast.size_eq_length_dump, fun key => ?_,
    fun key => ?_, fun others hkeys => ?_⟩
  · rw [mem_dump_iff, entryValue_eq_ok_iff, Option.map_eq_some_iff]
    simp only [eq_comm (a := value)]
  · rw [← hlast.isSome_find?_values, Option.isSome_iff_exists]
    exact last.values.mem_keys_iff key
  · rw [← hlast.isSome_find?_values, ← hintact.isSome_find?_values]
    exact hintact.isSome_values_editAll edits key
  · rw [toOption_entryValue, hintact.find?_values_editAll, toOption_entryValue]
  · -- A snapshot shows the dump and the tally of a table, and no edit counts a colour.
    have hdump : (table.editAll others).dump = last.dump := (hintact.dump_editAll_eq hkeys).symm
    have htally : (table.editAll others).tally = last.tally := by
      have hframe := (hintact.frame_editAll others).trans (hintact.frame_editAll edits).symm
      exact (congrArg Table.tally hframe :)
    refine ⟨hdump, fun pipeline name hname => ?_⟩
    have hfind := Pipeline.table_eq_ok_iff.mp hname
    rw [Pipeline.editTable_eq_putTable hfind, Pipeline.editTable_eq_putTable hfind,
      ← Pipeline.snapshot_putTable (Pipeline.find?_putTable_self hfind last) hdump htally,
      Pipeline.putTable_putTable]

/-- Four keys, one of them empty and one the beginning of another, are written, rewritten and deleted in turn.
One value has the wrong length, and one key is deleted before it is there. The same edits key by key leave the
same two entries. -/
theorem edits_act_on_ordered_map_interleaved :
    let table := Table.create "t" ⟨0, none, 1⟩ .bytes (Timer.ofResolution 1)
    let value := Bytes.zeros 96
    let edits : List Edit :=
      [.update [7, 0] value, .delete [9], .update [] value, .update [7] [1], .update [7] value,
        .delete [7, 0], .update [9] value, .update [7] value, .update [7, 0] value, .delete [],
        .delete [9]]
    let others : List Edit :=
      [.delete [9], .update [9] value, .delete [9], .update [] value, .delete [], .update [7] [1],
        .update [7] value, .update [7] value, .update [7, 0] value, .delete [7, 0], .update [7, 0] value]
    let pipeline : Pipeline := { tables := .ofList [("t", table)] }
    table.Reachable ∧ pipeline.table "t" = .ok table ∧
      (∀ key, edits.filter (·.key = key) = others.filter (·.key = key)) ∧
      (table.editAll edits).dump = [([7], value), ([7, 0], value)] ∧
      (table.editAll others).dump = (table.editAll edits).dump ∧
      (pipeline.editTable "t" others).snapshot = (pipeline.editTable "t" edits).snapshot := by
  intro table value edits others pipeline
  have hreach : table.Reachable := .create ..
  have hkeys (key : Bytes) : edits.filter (·.key = key) = others.filter (·.key = key) := by
    by_cases hkey : key = [] ∨ key = [7] ∨ key = [7, 0] ∨ key = [9]
    · rcases hkey with rfl | rfl | rfl | rfl <;> rfl
    · rw [not_or, not_or, not_or] at hkey
      simp [edits, others, Edit.key, eq_comm (b := key), hkey]
  obtain ⟨-, -, -, -, -, -, hothers⟩ := edits_act_on_ordered_map table hreach edits
  obtain ⟨hdump, hpipelines⟩ := hothers others hkeys
  -- The key that was inserted last is listed first, and sorting puts it behind the shorter one.
  have hindex : (table.editAll edits).index = .ofListing ⟨[([7, 0], 4), ([7], 2)], by decide⟩ := by decide +kernel
  have hraw : [([7, 0], 4), ([7], 2)].filterMap (table.editAll edits).raw? = [([7, 0], value), ([7], value)] := by
    decide +kernel
  have hsorted : sortPairs [(([7, 0] : Bytes), value), ([7], value)] = [([7], value), ([7, 0], value)] := by
    rw [sortPairs_eq_of_perm (List.Perm.swap ..)]
    exact List.mergeSort_of_pairwise (by decide +kernel)
  refine ⟨hreach, rfl, hkeys, ?_, hdump, hpipelines pipeline "t" rfl⟩
  rw [dump_eq_sortPairs hindex, hraw, hsorted]

end Table

end TrafficMeter
