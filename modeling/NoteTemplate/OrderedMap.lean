/-!
# Maps that remember the order of insertion

An `OrderedMap` lists its pairs in the order in which their keys first came in. A new value
for a known key takes the place of the old one.

* `find?_insert`, `keys_insert`: the value and the place of an inserted key.
* `find?_insertAll`: after several insertions a key has the value that came last.
-/

namespace NoteTemplate

/-- Pairs with distinct keys, in the order of insertion. -/
structure OrderedMap (α β : Type) where
  entries : List (α × β)
  nodup_keys : (entries.map Prod.fst).Nodup

namespace OrderedMap

variable {α β : Type}

theorem ext {m n : OrderedMap α β} (h : m.entries = n.entries) : m = n := by
  cases m; cases n; cases h; rfl

/-- The map without pairs. -/
def empty : OrderedMap α β := ⟨[], List.nodup_nil⟩

instance : EmptyCollection (OrderedMap α β) := ⟨empty⟩

instance : Inhabited (OrderedMap α β) := ⟨empty⟩

instance [DecidableEq α] [DecidableEq β] : DecidableEq (OrderedMap α β) := fun m n =>
  if h : m.entries = n.entries then isTrue (ext h)
  else isFalse fun e => h (congrArg entries e)

/-- The keys, in the order of insertion. -/
def keys (m : OrderedMap α β) : List α := m.entries.map Prod.fst

/-- The number of pairs. -/
def size (m : OrderedMap α β) : Nat := m.entries.length

/-- Whether there is no pair. -/
def isEmpty (m : OrderedMap α β) : Bool := m.entries.isEmpty

/-! ## Insertion -/

section Insertion

variable [DecidableEq α]

/-- Replaces the value of `k`, or appends the pair. -/
def put (k : α) (v : β) : List (α × β) → List (α × β)
  | [] => [(k, v)]
  | p :: ps => if p.1 = k then (k, v) :: ps else p :: put k v ps

theorem map_fst_put (k : α) (v : β) (ps : List (α × β)) :
    (put k v ps).map Prod.fst =
      if k ∈ ps.map Prod.fst then ps.map Prod.fst else ps.map Prod.fst ++ [k] := by
  induction ps with
  | nil => rfl
  | cons p ps ih =>
    by_cases h : p.1 = k
    · simp [put, h]
    · have h' : ¬ k = p.1 := fun e => h e.symm
      by_cases hk : k ∈ ps.map Prod.fst <;> simp [put, h, h', ih, hk]

theorem nodup_put (k : α) (v : β) {ps : List (α × β)} (h : (ps.map Prod.fst).Nodup) :
    ((put k v ps).map Prod.fst).Nodup := by
  rw [map_fst_put]
  split
  · exact h
  · rename_i hk
    rw [List.nodup_append]
    refine ⟨h, by simp, ?_⟩
    intro a ha b hb
    rw [List.mem_singleton] at hb
    subst hb
    exact fun e => hk (e ▸ ha)

/-- Gives `k` the value `v`. A new key goes to the end. -/
def insert (m : OrderedMap α β) (k : α) (v : β) : OrderedMap α β :=
  ⟨put k v m.entries, nodup_put k v m.nodup_keys⟩

/-- Inserts the pairs one after the other. -/
def insertAll (m : OrderedMap α β) (ps : List (α × β)) : OrderedMap α β :=
  ps.foldl (fun m p => m.insert p.1 p.2) m

/-- The map made by inserting the pairs into the empty one. -/
def ofList (ps : List (α × β)) : OrderedMap α β := empty.insertAll ps

/-- Inserts every pair of `n`. -/
def merge (m n : OrderedMap α β) : OrderedMap α β := m.insertAll n.entries

theorem keys_insert (m : OrderedMap α β) (k : α) (v : β) :
    (m.insert k v).keys = if k ∈ m.keys then m.keys else m.keys ++ [k] :=
  map_fst_put k v m.entries

end Insertion

/-! ## Look-up -/

section LookUp

-- `List.lookup` compares by `==`, which for texts is not what decidable equality gives.
variable [BEq α]

/-- The value of a key. -/
def find? (m : OrderedMap α β) (k : α) : Option β := m.entries.lookup k

/-- Whether a key has a value. -/
def contains (m : OrderedMap α β) (k : α) : Bool := (m.find? k).isSome

/-- The same keys with values that `eq` takes for the same, in whatever order. -/
def sameBy (eq : β → β → Bool) (m n : OrderedMap α β) : Bool :=
  m.size == n.size && m.entries.all fun p => (n.find? p.1).any (eq p.2)

@[simp] theorem find?_empty (k : α) : (empty : OrderedMap α β).find? k = none := rfl

variable [LawfulBEq α]

theorem lookup_eq_none_iff {k : α} {ps : List (α × β)} :
    ps.lookup k = none ↔ k ∉ ps.map Prod.fst := by
  rw [List.lookup_eq_none_iff, List.mem_map]
  constructor
  · rintro h ⟨p, hp, rfl⟩
    simpa using h p hp
  · intro h p hp
    rw [bne_iff_ne]
    exact fun hk => h ⟨p, hp, hk.symm⟩

theorem find?_eq_none_iff (m : OrderedMap α β) (k : α) : m.find? k = none ↔ k ∉ m.keys :=
  lookup_eq_none_iff

theorem contains_iff (m : OrderedMap α β) (k : α) : m.contains k = true ↔ k ∈ m.keys := by
  rw [contains, ← Option.ne_none_iff_isSome, Ne, find?_eq_none_iff, Classical.not_not]

variable [DecidableEq α]

theorem lookup_cons (k : α) (p : α × β) (ps : List (α × β)) :
    (p :: ps).lookup k = if p.1 = k then some p.2 else ps.lookup k := by
  obtain ⟨j, v⟩ := p
  by_cases h : j = k
  · simp [h]
  · have hk : (k == j) = false := beq_eq_false_iff_ne.mpr (Ne.symm h)
    simp [List.lookup_cons, h, hk]

theorem lookup_put (k j : α) (v : β) (ps : List (α × β)) :
    (put k v ps).lookup j = if k = j then some v else ps.lookup j := by
  induction ps with
  | nil => exact lookup_cons j (k, v) []
  | cons p ps ih =>
    rw [put]
    split
    · rename_i h
      rw [lookup_cons, lookup_cons, h]
      split <;> rfl
    · rename_i h
      rw [lookup_cons, lookup_cons, ih]
      by_cases hj : p.1 = j
      · rw [if_pos hj, if_pos hj, if_neg fun hk => h (hj.trans hk.symm)]
      · rw [if_neg hj, if_neg hj]

@[simp] theorem find?_insert (m : OrderedMap α β) (k j : α) (v : β) :
    (m.insert k v).find? j = if k = j then some v else m.find? j :=
  lookup_put k j v m.entries

theorem find?_insertAll (m : OrderedMap α β) (ps : List (α × β)) (k : α) :
    (m.insertAll ps).find? k = (ps.reverse.lookup k).or (m.find? k) := by
  induction ps generalizing m with
  | nil => rfl
  | cons p ps ih =>
    show ((m.insert p.1 p.2).insertAll ps).find? k = _
    rw [ih, find?_insert, List.reverse_cons, List.lookup_append, lookup_cons, List.lookup_nil]
    cases ps.reverse.lookup k <;> by_cases h : p.1 = k <;> simp [h]

end LookUp

end OrderedMap

end NoteTemplate
