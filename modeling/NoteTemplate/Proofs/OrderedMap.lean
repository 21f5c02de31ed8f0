import Mathlib.Data.List.Basic
import NoteTemplate.OrderedMap
import NoteTemplate.Placeholder

/-!
# Pairs of ordered maps

* `entries_ofList`: pairs with distinct keys are the pairs of the map made from them.
* `IsFirst`, `IsLast`: the first and the last of the pairs with a key.
* `lookup_eq_some_iff_isFirst`: a look-up finds the first pair.
* `exists_last`: of the pairs with a key the last one counts, when it is inserted last.
* `keys_ofList`, `find?_ofList_eq_some_iff`: a key has its first place and its last value.
* `merge_assoc`, `empty_merge`, `merge_self`: the laws of merging.
* `sameBy_iff`: maps are the same when all their look-ups are.
-/

namespace NoteTemplate.OrderedMap

variable {α β : Type}

theorem nodup (m : OrderedMap α β) : m.keys.Nodup := m.nodup_keys

theorem length_keys (m : OrderedMap α β) : m.keys.length = m.size := List.length_map _

/-! ## Insertion -/

section Insertion

variable [DecidableEq α]

theorem insertAll_append (m : OrderedMap α β) (ps qs : List (α × β)) :
    m.insertAll (ps ++ qs) = (m.insertAll ps).insertAll qs :=
  List.foldl_append

theorem put_of_not_mem {k : α} (v : β) {ps : List (α × β)} (h : k ∉ ps.map Prod.fst) :
    put k v ps = ps ++ [(k, v)] := by
  induction ps with
  | nil => rfl
  | cons p ps ih =>
    rw [List.map_cons, List.mem_cons, not_or] at h
    rw [put, if_neg (Ne.symm h.1), ih h.2]
    rfl

theorem entries_insertAll {m : OrderedMap α β} {ps : List (α × β)}
    (h : ((m.entries ++ ps).map Prod.fst).Nodup) : (m.insertAll ps).entries = m.entries ++ ps := by
  induction ps generalizing m with
  | nil => exact (List.append_nil _).symm
  | cons p ps ih =>
    have hp : p.1 ∉ m.entries.map Prod.fst := by
      rw [List.map_append, List.map_cons, List.nodup_append] at h
      exact fun hmem => h.2.2 p.1 hmem p.1 List.mem_cons_self rfl
    have hput : (m.insert p.1 p.2).entries = m.entries ++ [p] := put_of_not_mem p.2 hp
    have hinsert := @ih (m.insert p.1 p.2)
    rw [hput, List.append_assoc, List.singleton_append] at hinsert
    exact hinsert h

theorem entries_ofList {ps : List (α × β)} (h : (ps.map Prod.fst).Nodup) :
    (ofList ps).entries = ps :=
  @entries_insertAll α β _ empty ps h

theorem ofList_entries (m : OrderedMap α β) : ofList m.entries = m :=
  ext (entries_ofList m.nodup_keys)

end Insertion

/-! ## First and last pairs -/

/-- The first pair with the key has the value. -/
def IsFirst (ps : List (α × β)) (k : α) (v : β) : Prop :=
  ∃ before after, ps = before ++ (k, v) :: after ∧ k ∉ before.map Prod.fst

/-- The last pair with the key has the value. -/
def IsLast (ps : List (α × β)) (k : α) (v : β) : Prop :=
  ∃ before after, ps = before ++ (k, v) :: after ∧ k ∉ after.map Prod.fst

theorem isFirst_reverse_iff {ps : List (α × β)} {k : α} {v : β} :
    IsFirst ps.reverse k v ↔ IsLast ps k v := by
  constructor
  · rintro ⟨before, after, hps, hbefore⟩
    refine ⟨after.reverse, before.reverse, ?_, ?_⟩
    · rw [← ps.reverse_reverse, hps]
      simp
    · rwa [List.map_reverse, List.mem_reverse]
  · rintro ⟨before, after, rfl, hafter⟩
    refine ⟨after.reverse, before.reverse, ?_, ?_⟩
    · simp
    · rwa [List.map_reverse, List.mem_reverse]

/-! ## Look-up -/

section LookUp

variable [BEq α] [LawfulBEq α]

theorem lookup_eq_some_iff_isFirst {ps : List (α × β)} {k : α} {v : β} :
    ps.lookup k = some v ↔ IsFirst ps k v := by
  simp only [List.lookup_eq_some_iff, ← List.lookup_eq_none_iff, lookup_eq_none_iff]
  rfl

theorem mem_of_lookup {k : α} {v : β} {ps : List (α × β)} (h : ps.lookup k = some v) :
    (k, v) ∈ ps := by
  obtain ⟨before, after, rfl, -⟩ := lookup_eq_some_iff_isFirst.mp h
  exact List.mem_append_right before List.mem_cons_self

theorem mem_of_find? {m : OrderedMap α β} {k : α} {v : β} (h : m.find? k = some v) :
    (k, v) ∈ m.entries :=
  mem_of_lookup h

theorem lookup_of_mem {k : α} {v : β} {ps : List (α × β)} (hnodup : (ps.map Prod.fst).Nodup)
    (h : (k, v) ∈ ps) : ps.lookup k = some v := by
  obtain ⟨before, after, rfl⟩ := List.append_of_mem h
  refine lookup_eq_some_iff_isFirst.mpr ⟨before, after, rfl, fun hbefore => ?_⟩
  rw [List.map_append, List.nodup_append] at hnodup
  exact hnodup.2.2 k hbefore k List.mem_cons_self rfl

theorem lookup_eq_some_iff {k : α} {v : β} {ps : List (α × β)}
    (hnodup : (ps.map Prod.fst).Nodup) : ps.lookup k = some v ↔ (k, v) ∈ ps :=
  ⟨mem_of_lookup, lookup_of_mem hnodup⟩

theorem find?_of_mem {m : OrderedMap α β} {k : α} {v : β} (h : (k, v) ∈ m.entries) :
    m.find? k = some v :=
  lookup_of_mem m.nodup_keys h

theorem lookup_reverse_eq_none_iff {k : α} {ps : List (α × β)} :
    ps.reverse.lookup k = none ↔ k ∉ ps.map Prod.fst := by
  rw [lookup_eq_none_iff, List.map_reverse, List.mem_reverse]

theorem lookup_reverse_eq_some_iff {ps : List (α × β)} {k : α} {v : β} :
    ps.reverse.lookup k = some v ↔ IsLast ps k v :=
  lookup_eq_some_iff_isFirst.trans isFirst_reverse_iff

/-- With distinct keys the order of the pairs does not matter. -/
theorem lookup_reverse {ps : List (α × β)} (h : (ps.map Prod.fst).Nodup) (k : α) :
    ps.reverse.lookup k = ps.lookup k := by
  have hreverse : (ps.reverse.map Prod.fst).Nodup :=
    (ps.reverse_perm.map Prod.fst).nodup_iff.mpr h
  ext v
  rw [lookup_eq_some_iff h, lookup_eq_some_iff hreverse, List.mem_reverse]

theorem exists_last {k : α} {ps : List (α × β)} (h : k ∈ ps.map Prod.fst) :
    ∃ (j : Nat) (v : β), ps[j]? = some (k, v) ∧
      (∀ (i : Nat) (w : β), ps[i]? = some (k, w) → i ≤ j) ∧ ps.reverse.lookup k = some v := by
  have hne : ps.reverse.lookup k ≠ none := fun hnone => lookup_reverse_eq_none_iff.mp hnone h
  obtain ⟨v, hv⟩ := Option.ne_none_iff_exists'.mp hne
  obtain ⟨before, after, rfl, hafter⟩ := lookup_reverse_eq_some_iff.mp hv
  refine ⟨before.length, v, by simp, fun i w hi => ?_, hv⟩
  by_contra hlt
  obtain ⟨n, rfl⟩ : ∃ n, i = before.length + (n + 1) := ⟨i - before.length - 1, by omega⟩
  rw [List.getElem?_append_right (Nat.le_add_right _ _), Nat.add_sub_cancel_left,
    List.getElem?_cons_succ] at hi
  exact hafter (List.mem_map_of_mem (f := Prod.fst) (List.mem_of_getElem? hi))

theorem entries_eq (m : OrderedMap α β) :
    m.entries = m.keys.filterMap fun k => (m.find? k).map fun v => (k, v) := by
  have hpair : ∀ p ∈ m.entries, (m.find? p.1).map (fun v => (p.1, v)) = some p := by
    intro p hp
    rw [find?_of_mem hp]
    rfl
  rw [keys, List.filterMap_map]
  exact List.filterMap_some.symm.trans (List.filterMap_congr fun p hp => (hpair p hp).symm)

/-- Keys in the same order with the same values make the same map. -/
theorem eq_of_keys_of_find? {m n : OrderedMap α β} (hkeys : m.keys = n.keys)
    (hfind : ∀ k, m.find? k = n.find? k) : m = n := by
  refine ext ?_
  rw [entries_eq m, entries_eq n, hkeys, funext hfind]

/-! ## Comparison -/

theorem mem_keys_iff {m : OrderedMap α β} {k : α} : k ∈ m.keys ↔ (m.find? k).isSome = true :=
  (contains_iff m k).symm

theorem size_le_of_isSome {m n : OrderedMap α β}
    (h : ∀ k, (m.find? k).isSome = true → (n.find? k).isSome = true) : m.size ≤ n.size := by
  have hsub : m.keys ⊆ n.keys := fun k hk => mem_keys_iff.mpr (h k (mem_keys_iff.mp hk))
  have hlength := List.Nodup.length_le_of_subset m.nodup_keys hsub
  rw [← length_keys, ← length_keys]
  exact hlength

/-- If `eq` compares what `f` makes of the values, so does the comparison of maps. -/
theorem sameBy_iff {γ : Type} {eq : β → β → Bool} {f : β → γ}
    (hf : ∀ v w, eq v w = true ↔ f v = f w) {m n : OrderedMap α β} :
    m.sameBy eq n = true ↔ ∀ k, (m.find? k).map f = (n.find? k).map f := by
  rw [sameBy, Bool.and_eq_true, beq_iff_eq, List.all_eq_true]
  constructor
  · rintro ⟨hsize, hall⟩ k
    have hfound : ∀ {k v}, m.find? k = some v → ∃ w, n.find? k = some w ∧ f v = f w := by
      intro k v hk
      obtain ⟨w, hw, heq⟩ := (Option.any_eq_true _ _).mp (hall (k, v) (mem_of_find? hk))
      exact ⟨w, hw, (hf v w).mp heq⟩
    cases hk : m.find? k with
    | some v =>
      obtain ⟨w, hw, heq⟩ := hfound hk
      rw [hw, Option.map_some, Option.map_some, heq]
    | none =>
      -- A key that only the second map has would make it the larger one.
      have hnone : k ∉ n.keys := by
        intro hkn
        have hkm := (find?_eq_none_iff m k).mp hk
        have hsub : k :: m.keys ⊆ n.keys := by
          refine List.cons_subset.mpr ⟨hkn, fun j hj => ?_⟩
          obtain ⟨v, hv⟩ := Option.isSome_iff_exists.mp (mem_keys_iff.mp hj)
          obtain ⟨w, hw, _⟩ := hfound hv
          exact mem_keys_iff.mpr (Option.isSome_iff_exists.mpr ⟨w, hw⟩)
        have hlength := (List.nodup_cons.mpr ⟨hkm, m.nodup_keys⟩).length_le_of_subset hsub
        rw [List.length_cons, length_keys, length_keys] at hlength
        omega
      rw [(find?_eq_none_iff n k).mpr hnone]
  · intro h
    have hsome : ∀ k, (m.find? k).isSome = (n.find? k).isSome := by
      intro k
      have hk := congrArg Option.isSome (h k)
      rwa [Option.isSome_map, Option.isSome_map] at hk
    refine ⟨Nat.le_antisymm (size_le_of_isSome fun k hk => hsome k ▸ hk)
      (size_le_of_isSome fun k hk => hsome k ▸ hk), ?_⟩
    rintro ⟨k, v⟩ hp
    have hk := h k
    rw [find?_of_mem hp, Option.map_some] at hk
    obtain ⟨w, hw, heq⟩ := Option.map_eq_some_iff.mp hk.symm
    exact (Option.any_eq_true _ _).mpr ⟨w, hw, (hf v w).mpr heq.symm⟩

end LookUp

/-! ## Maps made from pairs -/

section Maps

variable [DecidableEq α] [BEq α] [LawfulBEq α]

theorem contains_ofList {ps : List (α × β)} {k : α} :
    (ofList ps).contains k = true ↔ k ∈ ps.map Prod.fst := by
  rw [contains, ofList, find?_insertAll, find?_empty, Option.or_none,
    ← Option.ne_none_iff_isSome, Ne, lookup_reverse_eq_none_iff, Classical.not_not]

theorem find?_ofList_eq_some_iff {ps : List (α × β)} {k : α} {v : β} :
    (ofList ps).find? k = some v ↔ IsLast ps k v := by
  rw [ofList, find?_insertAll, find?_empty, Option.or_none, lookup_reverse_eq_some_iff]

theorem find?_ofList_eq_none_iff {ps : List (α × β)} {k : α} :
    (ofList ps).find? k = none ↔ k ∉ ps.map Prod.fst := by
  rw [← contains_ofList, contains, ← Option.ne_none_iff_isSome, Classical.not_not]

/-! ## First place, last value -/

omit [DecidableEq α] in
theorem eraseDups_of_nodup {ks : List α} (h : ks.Nodup) : ks.eraseDups = ks := by
  induction ks with
  | nil => rfl
  | cons k ks ih =>
    obtain ⟨hk, hks⟩ := List.nodup_cons.mp h
    have hfilter : ks.filter (fun j => !j == k) = ks := by
      refine List.filter_eq_self.mpr fun j hj => ?_
      rw [Bool.not_eq_true', beq_eq_false_iff_ne]
      exact ne_of_mem_of_not_mem hj hk
    rw [List.eraseDups_cons, hfilter, ih hks]

theorem keys_insertAll (m : OrderedMap α β) (ps : List (α × β)) :
    (m.insertAll ps).keys = (m.keys ++ ps.map Prod.fst).eraseDups := by
  induction ps generalizing m with
  | nil =>
    rw [List.map_nil, List.append_nil, eraseDups_of_nodup m.nodup]
    rfl
  | cons p ps ih =>
    show ((m.insert p.1 p.2).insertAll ps).keys = _
    rw [ih, keys_insert, List.map_cons]
    split
    · rename_i hp
      have hcontains : m.keys.contains p.1 ≠ false := by simpa using hp
      rw [List.eraseDups_append, List.eraseDups_append, List.cons_removeAll, if_neg hcontains]
    · rw [List.append_assoc, List.singleton_append]

theorem keys_ofList (ps : List (α × β)) : (ofList ps).keys = (ps.map Prod.fst).eraseDups :=
  keys_insertAll empty ps

theorem keys_merge (m n : OrderedMap α β) :
    (m.merge n).keys = m.keys ++ n.keys.filter (· ∉ m.keys) := by
  have hremove : n.keys.removeAll m.keys = n.keys.filter (· ∉ m.keys) := by
    refine List.filter_congr fun k _ => ?_
    simp
  show (m.insertAll n.entries).keys = _
  rw [keys_insertAll, List.eraseDups_append, eraseDups_of_nodup m.nodup]
  show m.keys ++ (n.keys.removeAll m.keys).eraseDups = _
  rw [hremove, eraseDups_of_nodup (n.nodup.filter _)]

/-! ## Merging -/

theorem find?_merge (m n : OrderedMap α β) (k : α) :
    (m.merge n).find? k = (n.find? k).or (m.find? k) := by
  rw [merge, find?_insertAll, lookup_reverse n.nodup_keys]
  rfl

theorem merge_assoc (l m n : OrderedMap α β) : (l.merge m).merge n = l.merge (m.merge n) := by
  refine eq_of_keys_of_find? ?_ fun k => ?_
  · simp only [keys_merge, List.filter_append, List.filter_filter, List.append_assoc,
      List.mem_append, List.mem_filter]
    congr 2
    refine List.filter_congr fun k _ => ?_
    by_cases hl : k ∈ l.keys <;> simp [hl]
  · rw [find?_merge, find?_merge, find?_merge, find?_merge, Option.or_assoc]

omit [BEq α] [LawfulBEq α] in
theorem empty_merge (m : OrderedMap α β) : empty.merge m = m := ofList_entries m

omit [BEq α] [LawfulBEq α] in
theorem merge_empty (m : OrderedMap α β) : m.merge empty = m := rfl

theorem merge_self (m : OrderedMap α β) : m.merge m = m := by
  refine eq_of_keys_of_find? ?_ fun k => ?_
  · have hnone : m.keys.filter (· ∉ m.keys) = [] := by
      refine List.filter_eq_nil_iff.mpr fun k hk => ?_
      simpa using hk
    rw [keys_merge, hnone, List.append_nil]
  · rw [find?_merge, Option.or_self]

end Maps

/-! ## Maps of texts -/

theorem keys_insert_eq_note (m : OrderedMap Text β) (k : Text) (v : β) :
    (m.insert k v).keys = Placeholder.note m.keys k := by
  rw [keys_insert, Placeholder.note]
  congr

theorem keys_insertAll_eq_note (m : OrderedMap Text β) (ps : List (Text × β)) :
    (m.insertAll ps).keys = (ps.map Prod.fst).foldl Placeholder.note m.keys := by
  induction ps generalizing m with
  | nil => rfl
  | cons p ps ih =>
    rw [List.map_cons, List.foldl_cons, ← m.keys_insert_eq_note p.1 p.2]
    exact ih (m.insert p.1 p.2)

end NoteTemplate.OrderedMap
