/-!
# Ordered finite maps

Finite maps kept as association lists in strictly increasing key order. Two maps with the same bindings are
equal, so an `OrderedMap` is also the canonical form of what it holds.
-/

namespace TrafficMeter

variable {α β γ : Type}

/-- A finite map whose bindings are listed in strictly increasing key order. -/
structure OrderedMap (α β : Type) [LT α] where
  /-- The bindings, in key order. -/
  toList : List (α × β)
  /-- Each key is below all that follow it. -/
  increasing : toList.Pairwise fun a b => a.1 < b.1

namespace OrderedMap

section Lists

variable [LT α] [DecidableLT α] [DecidableEq α]

/-- Binds `key` to `value` in an ordered list of bindings, in place of an older binding of `key`. -/
def insertInto (key : α) (value : β) : List (α × β) → List (α × β)
  | [] => [(key, value)]
  | (k, v) :: rest =>
    if key < k then (key, value) :: (k, v) :: rest
    else if key = k then (key, value) :: rest
    else (k, v) :: insertInto key value rest

/-- What is bound after `insertInto key value` is the new binding or an older one. -/
theorem mem_insertInto {key : α} {value : β} {binding : α × β} {list : List (α × β)}
    (h : binding ∈ insertInto key value list) : binding = (key, value) ∨ binding ∈ list := by
  induction list with
  | nil => simpa [insertInto] using h
  | cons head rest ih =>
    obtain ⟨k, v⟩ := head
    rw [insertInto] at h
    split at h
    · simpa using h
    · split at h
      · rcases List.mem_cons.mp h with h | h
        · exact .inl h
        · exact .inr (List.mem_cons_of_mem _ h)
      · rcases List.mem_cons.mp h with h | h
        · exact .inr (h ▸ List.mem_cons_self)
        · exact (ih h).imp id (List.mem_cons_of_mem _)

/-- `insertInto key value` keeps the keys in increasing order. -/
theorem increasing_insertInto [LE α] [Std.IsLinearOrder α] [Std.LawfulOrderLT α] (key : α) (value : β)
    {list : List (α × β)} (h : list.Pairwise fun a b => a.1 < b.1) :
    (insertInto key value list).Pairwise fun a b => a.1 < b.1 := by
  -- The new binding is put before the first larger key, in the place of its own, or further behind.
  induction list with
  | nil => simp [insertInto]
  | cons head rest ih =>
    obtain ⟨k, v⟩ := head
    have hrest := List.pairwise_cons.mp h
    rw [insertInto]
    split
    next hlt =>
      refine List.pairwise_cons.mpr ⟨fun binding hb => ?_, h⟩
      rcases List.mem_cons.mp hb with rfl | hb
      · exact hlt
      · exact Std.lt_trans hlt (hrest.1 binding hb)
    next hlt =>
      split
      next heq =>
        subst heq
        exact List.pairwise_cons.mpr ⟨hrest.1, hrest.2⟩
      next heq =>
        refine List.pairwise_cons.mpr ⟨fun binding hb => ?_, ih hrest.2⟩
        rcases mem_insertInto hb with rfl | hb
        · exact Std.lt_of_le_of_ne (Std.not_lt.mp hlt) fun e => heq e.symm
        · exact hrest.1 binding hb

end Lists

section Maps

variable [LT α]

@[ext]
theorem ext {m n : OrderedMap α β} (h : m.toList = n.toList) : m = n := by
  cases m
  cases n
  cases h
  rfl

instance [DecidableEq α] [DecidableEq β] : DecidableEq (OrderedMap α β) := fun m n =>
  decidable_of_iff (m.toList = n.toList) ⟨ext, fun h => h ▸ rfl⟩

/-- The map without bindings. -/
def empty : OrderedMap α β :=
  ⟨[], List.Pairwise.nil⟩

instance : Inhabited (OrderedMap α β) := ⟨empty⟩

/-- The keys of `m`, in increasing order. -/
def keys (m : OrderedMap α β) : List α :=
  m.toList.map Prod.fst

/-- The number of bindings of `m`. -/
def size (m : OrderedMap α β) : Nat :=
  m.toList.length

/-- The value that `m` binds to `key`. -/
def find? [DecidableEq α] (m : OrderedMap α β) (key : α) : Option β :=
  (m.toList.find? fun binding => binding.1 = key).map Prod.snd

/-- `m` with `f key value` in place of each `value`, and the same keys. -/
def mapValues (m : OrderedMap α β) (f : α → β → γ) : OrderedMap α γ :=
  ⟨m.toList.map fun binding => (binding.1, f binding.1 binding.2), List.pairwise_map.mpr m.increasing⟩

/-- `m` with `f value` in place of the `value` of `key`, if `key` is bound. -/
def modify [DecidableEq α] (m : OrderedMap α β) (key : α) (f : β → β) : OrderedMap α β :=
  m.mapValues fun k value => if k = key then f value else value

variable [DecidableLT α] [DecidableEq α] [LE α] [Std.IsLinearOrder α] [Std.LawfulOrderLT α]

/-- `m` with `key` bound to `value`, whatever it was bound to before. -/
def insert (m : OrderedMap α β) (key : α) (value : β) : OrderedMap α β :=
  ⟨insertInto key value m.toList, increasing_insertInto key value m.increasing⟩

/-- The map that binds each key of `bindings` to its last value there. -/
def ofList (bindings : List (α × β)) : OrderedMap α β :=
  bindings.foldl (fun m binding => m.insert binding.1 binding.2) empty

end Maps

end OrderedMap

end TrafficMeter
