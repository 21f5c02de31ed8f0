import NoteTemplate.Proofs.Answers.ItemCount
import NoteTemplate.Proofs.OrderedMap

/-!
# Sequences of writes

Whatever is written into the answers, no item loses a variable. So the first index that is free of
a variable only grows, and it grows exactly when the variable is stored there.

* `itemAt_setAt`, `itemAt_append_singleton`: a write changes one item.
* `Answers.Write`: the calls that change the answers.
* `Write.hasItem_apply`: the places that are taken after a write.
* `Write.nextFree_lt_apply_iff`: when the first free index grows.
* `nextFree_le_run`: no sequence of writes makes it smaller.
-/

namespace NoteTemplate.Answers

/-! ## Items -/

/-- The item at an index. One that is missing has no variables, like one that is empty. -/
def itemAt (items : List Item) (index : Nat) : Item := items[index]?.getD ∅

theorem itemAt_of_length_le {items : List Item} {index : Nat} (h : items.length ≤ index) :
    itemAt items index = ∅ := by
  rw [itemAt, List.getElem?_eq_none h]
  rfl

theorem itemAt_append_singleton (items : List Item) (item : Item) (j : Nat) :
    itemAt (items ++ [item]) j = if j = items.length then item else itemAt items j := by
  rcases Nat.lt_trichotomy j items.length with hlt | rfl | hgt
  · rw [if_neg (Nat.ne_of_lt hlt), itemAt, List.getElem?_append_left hlt, itemAt]
  · rw [if_pos rfl, itemAt, List.getElem?_concat_length]
    rfl
  · have hlength : (items ++ [item]).length ≤ j := by
      rw [List.length_append, List.length_singleton]
      exact hgt
    rw [if_neg (Nat.ne_of_gt hgt), itemAt_of_length_le hlength,
      itemAt_of_length_le (Nat.le_of_lt hgt)]

theorem itemAt_setAt (name value : Text) (index : Nat) (items : List Item) (j : Nat) :
    itemAt (Item.setAt name value index items) j =
      if j = index then (itemAt items index).insert name value else itemAt items j := by
  induction index generalizing items j with
  | zero => cases items <;> cases j <;> rfl
  | succ index ih =>
    cases items with
    | nil =>
      cases j with
      | zero => rfl
      | succ j => simpa [itemAt, Item.setAt] using ih [] j
    | cons item items =>
      cases j with
      | zero => rfl
      | succ j => simpa [itemAt, Item.setAt] using ih items j

theorem item?_eq_itemAt (a : Answers) (ns : Text) (index : Nat) (name : Text) :
    a.item? ns index name = (itemAt (a.items ns) index).find? name := by
  rw [item?, Item.valueAt?, itemAt]
  cases (a.items ns)[index]? <;> rfl

theorem hasItem_eq_itemAt (a : Answers) (ns : Text) (index : Nat) (name : Text) :
    a.hasItem ns index name = (itemAt (a.items ns) index).contains name := by
  rw [hasItem, item?_eq_itemAt, OrderedMap.contains]

/-! ## Calls -/

/-- A call that changes the answers. -/
inductive Write
  | value (name value : Text)
  | choice (label : Text) (included : Bool)
  | item (ns : Text) (index : Nat) (name value : Text)
  | itemIfAbsent (ns : Text) (index : Nat) (name value : Text)
  | push (pairs : List (Text × Text))

namespace Write

/-- The answers after the call. -/
def apply (a : Answers) : Write → Answers
  | value name v => a.setValue name v
  | choice label included => a.setChoice label included
  | item ns index name v => a.setItem ns index name v
  | itemIfAbsent ns index name v => (a.setItemIfAbsent ns index name v).2
  | push pairs => a.pushItem pairs

/-- The call stores a value for the variable of the item at the index. -/
def Stores (a : Answers) (ns : Text) (index : Nat) (name : Text) : Write → Prop
  | value _ _ => False
  | choice _ _ => False
  | item ns' i n _ => ns' = ns ∧ i = index ∧ n = name
  | itemIfAbsent ns' i n _ => (ns' = ns ∧ i = index ∧ n = name) ∧ a.hasItem ns' i n = false
  | push pairs => repeatNamespace = ns ∧ (a.items ns).length = index ∧ name ∈ pairs.map Prod.fst

variable {a : Answers} {ns name : Text} {index : Nat}

/-! ### Places that are taken -/

theorem hasItem_setItem {ns' : Text} {i : Nat} {n : Text} (v : Text) :
    (a.setItem ns' i n v).hasItem ns index name = true ↔
      a.hasItem ns index name = true ∨ ns' = ns ∧ i = index ∧ n = name := by
  rw [hasItem, item?_setItem]
  split
  · rename_i hplace
    exact iff_of_true rfl (Or.inr hplace)
  · rename_i hplace
    rw [or_iff_left hplace, hasItem]

theorem hasItem_pushItem {pairs : List (Text × Text)} :
    (a.pushItem pairs).hasItem ns index name = true ↔ a.hasItem ns index name = true ∨
      repeatNamespace = ns ∧ (a.items ns).length = index ∧ name ∈ pairs.map Prod.fst := by
  rw [hasItem_eq_itemAt, hasItem_eq_itemAt, items_pushItem]
  by_cases hns : repeatNamespace = ns
  · subst hns
    rw [if_pos rfl, itemAt_append_singleton]
    by_cases hindex : index = (a.items repeatNamespace).length
    · have hfree : (itemAt (a.items repeatNamespace) index).contains name = false := by
        rw [itemAt_of_length_le (Nat.le_of_eq hindex.symm)]
        rfl
      rw [if_pos hindex, OrderedMap.contains_ofList, hfree]
      simp [hindex]
    · rw [if_neg hindex, or_iff_left fun h => hindex h.2.1.symm]
  · rw [if_neg hns, or_iff_left fun h => hns h.1]

/-- A write takes the places that it stores at, and frees none. -/
theorem hasItem_apply (w : Write) : (w.apply a).hasItem ns index name = true ↔
    a.hasItem ns index name = true ∨ w.Stores a ns index name := by
  cases w with
  | value n v => exact (or_iff_left not_false).symm
  | choice label included => exact (or_iff_left not_false).symm
  | item ns' i n v => exact hasItem_setItem v
  | itemIfAbsent ns' i n v =>
    rw [apply, setItemIfAbsent, Stores]
    split
    · rename_i htaken
      rw [or_iff_left]
      rintro ⟨-, hfree⟩
      rw [htaken] at hfree
      cases hfree
    · rename_i hfree
      rw [hasItem_setItem, and_iff_left (Bool.eq_false_iff.mpr hfree)]
  | push pairs => exact hasItem_pushItem

/-! ### The first free index -/

theorem nextFree_le_apply (w : Write) : a.nextFree ns name ≤ (w.apply a).nextFree ns name := by
  refine Nat.le_of_not_lt fun hlt => ?_
  have hfree := (w.apply a).hasItem_nextFree ns name
  rw [w.hasItem_apply.mpr (Or.inl (hasItem_of_lt_nextFree hlt))] at hfree
  cases hfree

theorem nextFree_lt_apply_iff (w : Write) :
    a.nextFree ns name < (w.apply a).nextFree ns name ↔
      w.Stores a ns (a.nextFree ns name) name := by
  constructor
  · intro hlt
    have htaken := w.hasItem_apply.mp (hasItem_of_lt_nextFree hlt)
    rw [a.hasItem_nextFree ns name] at htaken
    exact htaken.resolve_left Bool.false_ne_true
  · intro hstores
    refine lt_nextFree fun i hi => w.hasItem_apply.mpr ?_
    rcases Nat.eq_or_lt_of_le hi with rfl | hlt
    · exact Or.inr hstores
    · exact Or.inl (hasItem_of_lt_nextFree hlt)

end Write

/-- The answers after the calls. -/
def run (a : Answers) (ws : List Write) : Answers := ws.foldl Write.apply a

theorem run_append (a : Answers) (ws : List Write) (w : Write) :
    a.run (ws ++ [w]) = w.apply (a.run ws) := by
  rw [run, List.foldl_append]
  rfl

theorem nextFree_le_run (a : Answers) (ws : List Write) (ns name : Text) :
    a.nextFree ns name ≤ (a.run ws).nextFree ns name := by
  induction ws generalizing a with
  | nil => exact Nat.le_refl _
  | cons w ws ih => exact Nat.le_trans w.nextFree_le_apply (ih (w.apply a))

end NoteTemplate.Answers
