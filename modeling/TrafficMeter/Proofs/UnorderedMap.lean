import Mathlib.Data.List.Nodup
import TrafficMeter.UnorderedMap

/-!
# Looking things up in unordered maps

An unordered map is determined by what it binds to each key (`UnorderedMap.ext_find?`). Sorting the bindings, or
any pairs with distinct keys, gives a list whose keys are strictly increasing (`increasing_sortPairs`).
-/

namespace TrafficMeter

variable {α β : Type}

namespace UnorderedMap

theorem exists_listing (m : UnorderedMap α β) : ∃ listing, m = ofListing listing := by
  obtain ⟨listing, hlisting⟩ := Quotient.exists_rep m
  exact ⟨listing, hlisting.symm⟩

variable [DecidableEq α]

@[simp]
theorem find?_empty (key : α) : (empty : UnorderedMap α β).find? key = none := rfl

/-- `key` is bound to `value` in the map of `listing` exactly if `listing` has this binding. -/
theorem find?_ofListing_eq_some_iff {listing : Listing α β} {key : α} {value : β} :
    (ofListing listing).find? key = some value ↔ (key, value) ∈ listing.toList :=
  Listing.find?_eq_some_iff

/-- After an insertion, `value` is found under `key` and all else is unchanged. -/
theorem find?_insert (m : UnorderedMap α β) (key : α) (value : β) (other : α) :
    (m.insert key value).find? other = if other = key then some value else m.find? other := by
  obtain ⟨listing, rfl⟩ := m.exists_listing
  refine Option.ext fun found => ?_
  have hinsert : (ofListing listing).insert key value = ofListing (listing.insert key value) := rfl
  rw [hinsert, find?_ofListing_eq_some_iff]
  by_cases hother : other = key
  · simp [hother, Listing.insert, Listing.erase, eq_comm]
  · simp [hother, Listing.insert, Listing.erase, find?_ofListing_eq_some_iff]

/-- After a removal, nothing is found under `key` and all else is unchanged. -/
theorem find?_erase (m : UnorderedMap α β) (key other : α) :
    (m.erase key).find? other = if other = key then none else m.find? other := by
  obtain ⟨listing, rfl⟩ := m.exists_listing
  refine Option.ext fun found => ?_
  have herase : (ofListing listing).erase key = ofListing (listing.erase key) := rfl
  rw [herase, find?_ofListing_eq_some_iff]
  by_cases hother : other = key
  · simp [hother, Listing.erase]
  · simp [hother, Listing.erase, find?_ofListing_eq_some_iff]

/-- If the same is found in `m` and `n` under every key, then they are equal. -/
theorem ext_find? {m n : UnorderedMap α β} (h : ∀ key, m.find? key = n.find? key) : m = n := by
  obtain ⟨listing, rfl⟩ := m.exists_listing
  obtain ⟨other, rfl⟩ := n.exists_listing
  apply Quotient.sound
  refine (List.perm_ext_iff_of_nodup (.of_map _ listing.nodup) (.of_map _ other.nodup)).mpr ?_
  rintro ⟨key, value⟩
  rw [← find?_ofListing_eq_some_iff, ← find?_ofListing_eq_some_iff, h]

/-- Removing a `key` that is not bound changes nothing. -/
theorem erase_eq_self {m : UnorderedMap α β} {key : α} (h : m.find? key = none) : m.erase key = m := by
  refine ext_find? fun other => ?_
  rw [find?_erase]
  split
  next hother => rw [hother, h]
  next => rfl

end UnorderedMap

section Sorting

variable [LT α] [LE α] [LE β] [DecidableLT α] [DecidableEq α] [DecidableLE β] {pairs : List (α × β)}

omit [LE α] in
theorem mem_sortPairs_iff {pair : α × β} : pair ∈ sortPairs pairs ↔ pair ∈ pairs :=
  (List.mergeSort_perm pairs _).mem_iff

omit [LE α] in
theorem length_sortPairs (pairs : List (α × β)) : (sortPairs pairs).length = pairs.length :=
  List.length_mergeSort pairs

/-- `pairs` with distinct first components are sorted into strictly increasing order. -/
theorem increasing_sortPairs [Std.IsLinearOrder α] [Std.LawfulOrderLT α] [Std.IsLinearOrder β]
    (h : (pairs.map Prod.fst).Nodup) :
    (sortPairs pairs).Pairwise fun pair other => pair.1 < other.1 := by
  have hnodup : ((sortPairs pairs).map Prod.fst).Nodup :=
    ((List.mergeSort_perm pairs _).map Prod.fst).nodup_iff.mpr h
  have hne := List.pairwise_map.mp (List.nodup_iff_pairwise_ne.mp hnodup)
  refine (pairwise_sortPairs pairs).imp₂ (fun pair other hle hdistinct => ?_) hne
  rcases pairLe_eq_true_iff.mp hle with hlt | ⟨heq, -⟩
  · exact hlt
  · exact absurd heq hdistinct

end Sorting

end TrafficMeter
