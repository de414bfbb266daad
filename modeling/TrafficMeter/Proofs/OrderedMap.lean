import TrafficMeter.OrderedMap
import TrafficMeter.Proofs.Outcome
import Mathlib.Data.List.Nodup

/-!
# Looking things up in ordered maps

An ordered map is determined by what it binds to each key (`ext_find?`), and every operation on maps is
described by what can be found afterwards. Proofs about stores, tables and pipelines use these descriptions
and do not look at the lists of bindings.
-/

namespace TrafficMeter.OrderedMap

variable {α β γ : Type} [LT α] [DecidableEq α]

section Bindings

/-- What is found under `key` is one of the bindings of `m`. -/
theorem mem_toList_of_find? {m : OrderedMap α β} {key : α} {value : β} (h : m.find? key = some value) :
    (key, value) ∈ m.toList := by
  obtain ⟨⟨k, v⟩, hfind, rfl⟩ := Option.map_eq_some_iff.mp h
  have hkey : k = key := by simpa using List.find?_some hfind
  rw [← hkey]
  exact List.mem_of_find?_eq_some hfind

/-- Nothing is found under any `key` of the empty map. -/
@[simp]
theorem find?_empty (key : α) : (empty : OrderedMap α β).find? key = none := rfl

/-- After `f` replaced all values, `f key` of what was there is found under `key`. -/
@[simp]
theorem find?_mapValues (m : OrderedMap α β) (f : α → β → γ) (key : α) :
    (m.mapValues f).find? key = (m.find? key).map (f key) := by
  rw [find?, mapValues, find?, List.find?_map, Option.map_map, Option.map_map]
  refine Option.map_congr fun binding hbinding => ?_
  have hkey : binding.1 = key := by simpa using List.find?_some hbinding
  simp [hkey]

/-- A modification under `key` is seen under no `other` key. -/
theorem find?_modify (m : OrderedMap α β) (key : α) (f : β → β) (other : α) :
    (m.modify key f).find? other = if other = key then (m.find? other).map f else m.find? other := by
  rw [modify, find?_mapValues]
  split
  · rfl
  · exact Option.map_id'

/-- If all values of `m` are related by `R` to those of `f`, then they are related by `S` after the one under
`key` was replaced by `next`, provided that `next` is so related under `key` and the old values under all other
keys. -/
theorem rel_find?_modify {δ : Type} {R S : α → δ → β → Prop} {f : α → Option δ} {m : OrderedMap α β}
    (h : ∀ other, Option.Rel (R other) (f other) (m.find? other)) {key : α} {value next : β}
    (hvalue : m.find? key = some value) (hkey : ∀ d, f key = some d → R key d value → S key d next)
    (hother : ∀ other d v, other ≠ key → R other d v → S other d v) (other : α) :
    Option.Rel (S other) (f other) ((m.modify key fun _ => next).find? other) := by
  have hold := h other
  rw [find?_modify]
  split
  next heq =>
    subst heq
    rw [hvalue] at hold ⊢
    obtain ⟨d, hd, hold⟩ := rel_some_right_iff.mp hold
    rw [hd]
    exact .some (hkey d hd hold)
  next hne => exact rel_imp hold fun d v _ => hother other d v hne

omit [DecidableEq α] in
/-- Replacing all values of `m` keeps the keys. -/
@[simp]
theorem keys_mapValues (m : OrderedMap α β) (f : α → β → γ) : (m.mapValues f).keys = m.keys := by
  simp [keys, mapValues]

/-- `key` is one of the keys of `m` if something is found under it, and only then. -/
theorem mem_keys_iff (m : OrderedMap α β) (key : α) : key ∈ m.keys ↔ ∃ value, m.find? key = some value := by
  constructor
  · intro h
    obtain ⟨binding, hbinding, rfl⟩ := List.mem_map.mp h
    cases hfind : m.find? binding.1 with
    | none =>
      have hnone := List.find?_eq_none.mp (Option.map_eq_none_iff.mp hfind) _ hbinding
      simp at hnone
    | some value => exact ⟨value, rfl⟩
  · rintro ⟨value, h⟩
    exact List.mem_map.mpr ⟨_, mem_toList_of_find? h, rfl⟩

end Bindings

variable [LE α] [Std.IsLinearOrder α] [Std.LawfulOrderLT α]

omit [DecidableEq α] [Std.IsLinearOrder α] in
/-- No key is bound twice in `m`. -/
theorem nodup_keys (m : OrderedMap α β) : m.keys.Nodup := by
  rw [keys, List.nodup_iff_pairwise_ne, List.pairwise_map]
  refine m.increasing.imp fun hlt heq => ?_
  rw [heq] at hlt
  exact Std.lt_irrefl hlt

omit [Std.IsLinearOrder α] in
/-- A `value` is found under `key` exactly if it is bound to it. -/
theorem find?_eq_some_iff {m : OrderedMap α β} {key : α} {value : β} :
    m.find? key = some value ↔ (key, value) ∈ m.toList := by
  refine ⟨mem_toList_of_find?, fun hmem => ?_⟩
  obtain ⟨other, hother⟩ := (m.mem_keys_iff key).mp (List.mem_map.mpr ⟨_, hmem, rfl⟩)
  have heq := List.inj_on_of_nodup_map m.nodup_keys (mem_toList_of_find? hother) hmem rfl
  rw [hother, ← (Prod.mk.inj heq).2]

/-- If the same is found in `m` and `n` under every key, then they are equal. -/
theorem ext_find? {m n : OrderedMap α β} (h : ∀ key, m.find? key = n.find? key) : m = n := by
  -- The lists of bindings have the same members, and there is only one way to put them in order.
  have hperm : m.toList.Perm n.toList := by
    refine (List.perm_ext_iff_of_nodup (List.Nodup.of_map _ m.nodup_keys)
      (List.Nodup.of_map _ n.nodup_keys)).mpr ?_
    rintro ⟨key, value⟩
    rw [← find?_eq_some_iff, ← find?_eq_some_iff, h]
  refine ext (hperm.eq_of_pairwise (fun a b _ _ hab hba => ?_) m.increasing n.increasing)
  exact absurd (Std.lt_trans hab hba) Std.lt_irrefl

/-- Replacing the `value` under `key` by itself changes nothing. -/
theorem modify_eq_self {m : OrderedMap α β} {key : α} {value : β} (h : m.find? key = some value) :
    m.modify key (fun _ => value) = m := by
  refine ext_find? fun other => ?_
  rw [find?_modify]
  split
  next hother => rw [hother, h, Option.map_some]
  next => rfl

/-- Of two replacements of the value under `key` the later one counts. -/
theorem modify_modify (m : OrderedMap α β) (key : α) (next last : β) :
    (m.modify key fun _ => next).modify key (fun _ => last) = m.modify key fun _ => last := by
  refine ext_find? fun other => ?_
  rw [find?_modify, find?_modify, find?_modify]
  split <;> simp [Function.comp_def]

/-- If `f` does not tell `value` and `next` apart, then it does not see that one was replaced by the other. -/
theorem mapValues_modify {m : OrderedMap α β} {key : α} {value next : β} {f : α → β → γ}
    (h : m.find? key = some value) (hf : f key next = f key value) :
    (m.modify key fun _ => next).mapValues f = m.mapValues f := by
  refine ext_find? fun other => ?_
  rw [find?_mapValues, find?_mapValues, find?_modify]
  by_cases hother : other = key
  · rw [if_pos hother, hother, h, Option.map_some, Option.map_some, Option.map_some, hf]
  · rw [if_neg hother]

/-- If the values of `m` and of `n` are related to those of one function `f`, then `m` and `n` have the same
keys. -/
theorem keys_eq_of_rel {δ : Type} {R : δ → β → Prop} {f : α → Option δ} {m n : OrderedMap α β}
    (hm : ∀ key, Option.Rel R (f key) (m.find? key)) (hn : ∀ key, Option.Rel R (f key) (n.find? key)) :
    m.keys = n.keys := by
  -- Without their values, the two maps are equal.
  have hunit : (m.mapValues fun _ _ => ()) = n.mapValues fun _ _ => () := by
    refine ext_find? fun key => ?_
    have hleft := hm key
    have hright := hn key
    rw [find?_mapValues, find?_mapValues]
    generalize f key = found, m.find? key = left, n.find? key = right at hleft hright
    cases hleft <;> cases hright <;> rfl
  rw [← m.keys_mapValues fun _ _ => (), hunit, keys_mapValues]

section Insertion

variable [DecidableLT α]

omit [LE α] [Std.IsLinearOrder α] [Std.LawfulOrderLT α] in
/-- After an insertion of `key` into a `list` of bindings, a search stops at the new binding or goes on as
before. -/
theorem find?_insertInto (key : α) (value : β) (list : List (α × β)) (other : α) :
    (insertInto key value list).find? (fun binding => binding.1 = other) =
      if other = key then some (key, value) else list.find? fun binding => binding.1 = other := by
  induction list with
  | nil => by_cases h : key = other <;> simp [insertInto, h, eq_comm]
  | cons head rest ih =>
    obtain ⟨k, v⟩ := head
    rw [insertInto]
    by_cases hother : other = key
    · subst hother
      split
      · simp
      · split
        · simp
        · have hk : k ≠ other := by grind
          simp [hk, ih]
    · have hkey : key ≠ other := fun h => hother h.symm
      split
      · simp [hkey]
      · split
        next heq => simp [← heq, hkey]
        next => simp only [List.find?_cons, ih, if_neg hother]

/-- After an insertion, `value` is found under `key` and all else is unchanged. -/
theorem find?_insert (m : OrderedMap α β) (key : α) (value : β) (other : α) :
    (m.insert key value).find? other = if other = key then some value else m.find? other := by
  rw [find?, insert, find?_insertInto]
  split <;> rfl

/-- Inserting `bindings` with distinct keys makes each of them found, and leaves the rest of `m` as it was. -/
theorem find?_foldl_insert (m : OrderedMap α β) (bindings : List (α × β))
    (hnodup : (bindings.map Prod.fst).Nodup) (key : α) :
    (bindings.foldl (fun m binding => m.insert binding.1 binding.2) m).find? key =
      ((bindings.find? fun binding => binding.1 = key).map Prod.snd).or (m.find? key) := by
  induction bindings generalizing m with
  | nil => rfl
  | cons binding rest ih =>
    rw [List.map_cons, List.nodup_cons] at hnodup
    rw [List.foldl_cons, ih _ hnodup.2, find?_insert, List.find?_cons]
    by_cases hkey : key = binding.1
    · subst hkey
      -- A later binding of the same key would win, but there is none.
      have hrest : rest.find? (fun b => b.1 = binding.1) = none := by
        refine List.find?_eq_none.mpr fun b hb => ?_
        have hne : b.1 ≠ binding.1 := fun h => hnodup.1 (List.mem_map.mpr ⟨b, hb, h⟩)
        simp [hne]
      simp [hrest]
    · have hne : binding.1 ≠ key := fun h => hkey h.symm
      simp [hkey, hne]

/-- In the map of `bindings` with distinct keys, their values are found under their keys. -/
theorem find?_ofList {bindings : List (α × β)} (hnodup : (bindings.map Prod.fst).Nodup) (key : α) :
    (ofList bindings).find? key = (bindings.find? fun binding => binding.1 = key).map Prod.snd := by
  rw [ofList, find?_foldl_insert _ _ hnodup, find?_empty, Option.or_none]

/-- The bindings of `m` make up `m`. -/
@[simp]
theorem ofList_toList (m : OrderedMap α β) : ofList m.toList = m :=
  ext_find? fun key => find?_ofList m.nodup_keys key

end Insertion

end TrafficMeter.OrderedMap
