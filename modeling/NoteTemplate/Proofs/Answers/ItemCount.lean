import Mathlib.Data.List.TakeWhile
import Mathlib.Order.Bounds.Defs
import NoteTemplate.Answers.Basic

/-!
# Counting items

The items that a section takes are the first ones of the namespace, as long as they carry the
section's first variable.

* `Values.itemCount_unique`: the count is the only index at which a variable is absent while
  all smaller ones carry it.
* `Answers.isLeast_nextFree`: the first free index of the store.
* `Answers.itemCount_toValues`: counting stops at the first free index of the store.
-/

namespace NoteTemplate

theorem Values.itemCount_unique {v : Values} {ns name : Text} {n : Nat}
    (habsent : v.hasItem ns n name = false) (hbelow : ∀ i < n, v.hasItem ns i name = true) :
    v.itemCount ns name = n := by
  obtain ⟨hgap, hcount⟩ := v.itemCount_spec ns name
  rcases Nat.lt_trichotomy (v.itemCount ns name) n with h | h | h
  · rw [hbelow _ h] at hgap
    cases hgap
  · exact h
  · rw [hcount n h] at habsent
    cases habsent

namespace Answers

theorem hasItem_eq (a : Answers) (ns : Text) (i : Nat) (name : Text) :
    a.hasItem ns i name = (a.items ns)[i]?.any fun item => item.contains name := by
  unfold hasItem item? Item.valueAt? OrderedMap.contains
  cases (a.items ns)[i]? <;> rfl

/-- An item has the values that are in it. -/
theorem item?_eq_find? {a : Answers} {ns : Text} {i : Nat} {item : Item}
    (h : (a.items ns)[i]? = some item) : a.item? ns i = item.find? := by
  funext name
  rw [item?, Item.valueAt?, h]

theorem hasItem_nextFree (a : Answers) (ns name : Text) :
    a.hasItem ns (a.nextFree ns name) name = false := by
  let carries : Item → Bool := fun item => item.contains name
  rw [hasItem_eq, nextFree]
  induction a.items ns with
  | nil => rfl
  | cons item items ih =>
    by_cases h : carries item = true
    · rw [List.takeWhile_cons_of_pos (p := carries) h, List.length_cons, List.getElem?_cons_succ]
      exact ih
    · rw [List.takeWhile_cons_of_neg (p := carries) h]
      simpa using h

/-- An item that is counted carries the variable. -/
theorem getElem?_of_counted {a : Answers} {ns name : Text} {i : Nat} {item : Item}
    (h : ((a.items ns).takeWhile fun item => item.contains name)[i]? = some item) :
    (a.items ns)[i]? = some item ∧ item.contains name = true := by
  obtain ⟨hi, hitem⟩ := List.getElem?_eq_some_iff.mp h
  refine ⟨?_, ?_⟩
  · rw [← hitem]
    exact List.prefix_iff_getElem?.mp (List.takeWhile_prefix _) i hi
  · have hmem := List.getElem_mem hi
    rw [hitem] at hmem
    exact List.mem_takeWhile_imp (p := fun item : Item => item.contains name) hmem

theorem hasItem_of_lt_nextFree {a : Answers} {ns name : Text} {i : Nat}
    (h : i < a.nextFree ns name) : a.hasItem ns i name = true := by
  obtain ⟨hitem, hcontains⟩ := getElem?_of_counted (List.getElem?_eq_getElem h)
  rw [hasItem_eq, hitem]
  exact hcontains

theorem isLeast_nextFree (a : Answers) (ns name : Text) :
    IsLeast {i | a.hasItem ns i name = false} (a.nextFree ns name) := by
  refine ⟨a.hasItem_nextFree ns name, fun i hi => Nat.le_of_not_lt fun hlt => ?_⟩
  have htaken := hasItem_of_lt_nextFree hlt
  rw [show a.hasItem ns i name = false from hi] at htaken
  cases htaken

theorem lt_nextFree {a : Answers} {ns name : Text} {index : Nat}
    (h : ∀ i ≤ index, a.hasItem ns i name = true) : index < a.nextFree ns name := by
  refine Nat.lt_of_not_le fun hle => ?_
  have hfree := a.hasItem_nextFree ns name
  rw [h _ hle] at hfree
  cases hfree

theorem itemCount_toValues (a : Answers) (ns name : Text) :
    a.toValues.itemCount ns name = a.nextFree ns name :=
  Values.itemCount_unique (a.hasItem_nextFree ns name) fun _ hi => hasItem_of_lt_nextFree hi

end Answers

end NoteTemplate
