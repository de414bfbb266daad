/-!
# Finite maps without an order

A hash map lists its bindings in an order that nobody can rely on. An `UnorderedMap` is a listing of bindings up
to rearrangement, so whatever is computed from one is the same for every order in which the bindings may be
listed. `UnorderedMap.lift` computes from a listing, and asks for a proof of this.

The other way to get rid of the order is to sort. Lists of pairs are sorted lexicographically by `sortPairs`,
and what comes out does not depend on the order of what went in (`sortPairs_eq_of_perm`).
-/

namespace TrafficMeter

variable {α β γ : Type}

/-- A list of bindings in which no key is bound twice. -/
structure Listing (α β : Type) where
  /-- The bindings, in some order. -/
  toList : List (α × β)
  /-- No two bindings have the same key. -/
  nodup : (toList.map Prod.fst).Nodup

namespace Listing

/-- Two listings have the same bindings, in whatever order. -/
instance setoid : Setoid (Listing α β) where
  r listing other := listing.toList.Perm other.toList
  iseqv := ⟨fun _ => .refl _, .symm, .trans⟩

instance [DecidableEq α] [DecidableEq β] (listing other : Listing α β) : Decidable (listing ≈ other) :=
  inferInstanceAs (Decidable (listing.toList.Perm other.toList))

variable [DecidableEq α]

/-- The value that `listing` binds to `key`. -/
def find? (listing : Listing α β) (key : α) : Option β :=
  (listing.toList.find? fun binding => binding.1 = key).map Prod.snd

/-- `listing` without a binding of `key`. -/
def erase (listing : Listing α β) (key : α) : Listing α β where
  toList := listing.toList.filter fun binding => binding.1 ≠ key
  nodup := (List.filter_sublist.map _).nodup listing.nodup

/-- `listing` with `key` bound to `value`. -/
def insert (listing : Listing α β) (key : α) (value : β) : Listing α β where
  toList := (key, value) :: (listing.erase key).toList
  nodup := by
    refine List.nodup_cons.mpr ⟨fun hmem => ?_, (listing.erase key).nodup⟩
    obtain ⟨binding, hbinding, hkey⟩ := List.mem_map.mp hmem
    simp only [erase, List.mem_filter, decide_eq_true_eq] at hbinding
    exact hbinding.2 hkey

/-- What `listing` binds to a key is one of its bindings, and the only one of this key. -/
theorem find?_eq_some_iff {listing : Listing α β} {key : α} {value : β} :
    listing.find? key = some value ↔ (key, value) ∈ listing.toList := by
  obtain ⟨list, hnodup⟩ := listing
  rw [find?]
  induction list with
  | nil => simp
  | cons binding rest ih =>
    obtain ⟨other, held⟩ := binding
    obtain ⟨hother, hrest⟩ := List.nodup_cons.mp hnodup
    by_cases hkey : other = key
    · subst hkey
      have hnot : (other, value) ∉ rest := fun hmem => hother (List.mem_map.mpr ⟨_, hmem, rfl⟩)
      simp [hnot, eq_comm]
    · simp [hkey, ih hrest, Ne.symm hkey]

theorem find?_congr {listing other : Listing α β} (h : listing ≈ other) (key : α) :
    listing.find? key = other.find? key := by
  refine Option.ext fun value => ?_
  rw [find?_eq_some_iff, find?_eq_some_iff]
  exact h.mem_iff

theorem erase_congr {listing other : Listing α β} (h : listing ≈ other) (key : α) :
    listing.erase key ≈ other.erase key :=
  h.filter _

theorem insert_congr {listing other : Listing α β} (h : listing ≈ other) (key : α) (value : β) :
    listing.insert key value ≈ other.insert key value :=
  (erase_congr h key).cons _

end Listing

/-- A finite map that does not say in which order its bindings are listed. -/
def UnorderedMap (α β : Type) : Type :=
  Quotient (Listing.setoid (α := α) (β := β))

namespace UnorderedMap

instance [DecidableEq α] [DecidableEq β] : DecidableEq (UnorderedMap α β) :=
  inferInstanceAs (DecidableEq (Quotient Listing.setoid))

/-- The map that `listing` stands for. -/
def ofListing (listing : Listing α β) : UnorderedMap α β :=
  Quotient.mk _ listing

/-- What `f` makes of the bindings of `m`, which must be the same for every order. -/
def lift (m : UnorderedMap α β) (f : List (α × β) → γ)
    (h : ∀ bindings others : List (α × β), bindings.Perm others → f bindings = f others) : γ :=
  Quotient.lift (fun listing : Listing α β => f listing.toList) (fun _ _ hperm => h _ _ hperm) m

/-- The map without bindings. -/
def empty : UnorderedMap α β :=
  ofListing ⟨[], .nil⟩

/-- The number of bindings of `m`. -/
def size (m : UnorderedMap α β) : Nat :=
  m.lift List.length fun _ _ hperm => hperm.length_eq

variable [DecidableEq α]

/-- The value that `m` binds to `key`. -/
def find? (m : UnorderedMap α β) (key : α) : Option β :=
  Quotient.lift (fun listing : Listing α β => listing.find? key) (fun _ _ h => Listing.find?_congr h key) m

/-- `m` with `key` bound to `value`, whatever it was bound to before. -/
def insert (m : UnorderedMap α β) (key : α) (value : β) : UnorderedMap α β :=
  Quotient.lift (fun listing : Listing α β => ofListing (listing.insert key value))
    (fun _ _ h => Quotient.sound (Listing.insert_congr h key value)) m

/-- `m` without a binding of `key`. -/
def erase (m : UnorderedMap α β) (key : α) : UnorderedMap α β :=
  Quotient.lift (fun listing : Listing α β => ofListing (listing.erase key))
    (fun _ _ h => Quotient.sound (Listing.erase_congr h key)) m

end UnorderedMap

section Sorting

variable [LT α] [LE α] [LE β] [DecidableLT α] [DecidableEq α] [DecidableLE β]

/-- The lexicographic order of pairs: the first components decide, and the second ones where these are equal. -/
def pairLe (pair other : α × β) : Bool :=
  pair.1 < other.1 || (pair.1 = other.1 && pair.2 ≤ other.2)

/-- `pairs` in lexicographic order. -/
def sortPairs (pairs : List (α × β)) : List (α × β) :=
  pairs.mergeSort pairLe

variable [Std.IsLinearOrder α] [Std.LawfulOrderLT α] [Std.IsLinearOrder β] {first second third : α × β}

omit [LE α] [Std.IsLinearOrder α] [Std.LawfulOrderLT α] [Std.IsLinearOrder β] in
theorem pairLe_eq_true_iff :
    pairLe first second = true ↔ first.1 < second.1 ∨ first.1 = second.1 ∧ first.2 ≤ second.2 := by
  simp [pairLe]

theorem pairLe_trans (h : pairLe first second = true) (h' : pairLe second third = true) :
    pairLe first third = true := by
  rw [pairLe_eq_true_iff] at h h' ⊢
  rcases h with hlt | ⟨heq, hle⟩
  · rcases h' with hlt' | ⟨heq', -⟩
    · exact .inl (Std.lt_trans hlt hlt')
    · exact .inl (heq' ▸ hlt)
  · rcases h' with hlt' | ⟨heq', hle'⟩
    · exact .inl (heq ▸ hlt')
    · exact .inr ⟨heq.trans heq', Std.le_trans hle hle'⟩

theorem pairLe_total (pair other : α × β) : (pairLe pair other || pairLe other pair) = true := by
  rw [Bool.or_eq_true, pairLe_eq_true_iff, pairLe_eq_true_iff]
  rcases Std.lt_trichotomy pair.1 other.1 with hlt | heq | hgt
  · exact .inl (.inl hlt)
  · rcases Std.le_total (a := pair.2) (b := other.2) with hle | hge
    · exact .inl (.inr ⟨heq, hle⟩)
    · exact .inr (.inr ⟨heq.symm, hge⟩)
  · exact .inr (.inl hgt)

theorem pairLe_antisymm (h : pairLe first second = true) (h' : pairLe second first = true) :
    first = second := by
  rw [pairLe_eq_true_iff] at h h'
  rcases h with hlt | ⟨heq, hle⟩
  · rcases h' with hlt' | ⟨heq', -⟩
    · exact absurd (Std.lt_trans hlt hlt') Std.lt_irrefl
    · exact absurd (heq' ▸ hlt) Std.lt_irrefl
  · rcases h' with hlt' | ⟨-, hle'⟩
    · exact absurd (heq ▸ hlt') Std.lt_irrefl
    · exact Prod.ext heq (Std.le_antisymm hle hle')

theorem pairwise_sortPairs (pairs : List (α × β)) :
    (sortPairs pairs).Pairwise fun pair other => pairLe pair other = true := by
  apply List.pairwise_mergeSort
  · intro _ _ _
    exact pairLe_trans
  · exact pairLe_total

/-- `sortPairs` gives the same list for every order of the same pairs. -/
theorem sortPairs_eq_of_perm {pairs others : List (α × β)} (h : pairs.Perm others) :
    sortPairs pairs = sortPairs others := by
  -- Both results have the same members in order, and there is only one order for them.
  have hperm : (sortPairs pairs).Perm (sortPairs others) :=
    (List.mergeSort_perm pairs _).trans (h.trans (List.mergeSort_perm others _).symm)
  exact hperm.eq_of_pairwise (fun _ _ _ _ => pairLe_antisymm) (pairwise_sortPairs pairs)
    (pairwise_sortPairs others)

end Sorting

end TrafficMeter
