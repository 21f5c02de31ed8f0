import NoteTemplate.Answers.Basic
import NoteTemplate.Proofs.Json.Sorting
import NoteTemplate.Rendering

/-!
# Answers that are the same

Answers are compared by their look-ups, not by the order in which they came in.

* `Answers.same_iff`: the same answers are those with the same look-ups.
* `Answers.toValues_of_same`: a document is filled with the same values.
* `Answers.eq_of_same`: answers in the order of their names are equal if they are the same.
-/

namespace NoteTemplate.Answers

open Json.Value (Increasing eq_of_lookup)

variable {a b : Answers}

/-- What the items of a namespace say. -/
def found (items : List Item) : List (Text → Option Text) := items.map OrderedMap.find?

theorem sameBy_beq_iff {β : Type} [BEq β] [LawfulBEq β] {m n : OrderedMap Text β} :
    m.sameBy (· == ·) n = true ↔ m.find? = n.find? := by
  have heq : ∀ v w : β, (v == w) = true ↔ id v = id w := fun v w => beq_iff_eq
  rw [OrderedMap.sameBy_iff heq, funext_iff]
  simp only [Option.map_id_fun, id_eq]

theorem sameItems_iff {is js : List Item} : sameItems is js = true ↔ found is = found js := by
  induction is generalizing js with
  | nil =>
    cases js with
    | nil => exact iff_of_true rfl rfl
    | cons j js => exact iff_of_false Bool.false_ne_true (List.cons_ne_nil _ _).symm
  | cons i is ih =>
    cases js with
    | nil => exact iff_of_false Bool.false_ne_true (List.cons_ne_nil _ _)
    | cons j js =>
      rw [sameItems, Bool.and_eq_true, sameBy_beq_iff, ih]
      exact List.cons_eq_cons.symm

theorem same_iff :
    a.same b = true ↔ a.values.find? = b.values.find? ∧ a.choices.find? = b.choices.find? ∧
      ∀ ns, (a.namespaces.find? ns).map found = (b.namespaces.find? ns).map found := by
  have hitems : ∀ is js, sameItems is js = true ↔ found is = found js := fun _ _ => sameItems_iff
  rw [same, Bool.and_eq_true, Bool.and_eq_true, sameBy_beq_iff, sameBy_beq_iff, and_assoc,
    OrderedMap.sameBy_iff hitems]

theorem found_items (a : Answers) (ns : Text) :
    found (a.items ns) = ((a.namespaces.find? ns).map found).getD [] := by
  rw [items]
  cases a.namespaces.find? ns <;> rfl

theorem valueAt?_eq (items : List Item) (index : Nat) (name : Text) :
    Item.valueAt? items index name = (found items)[index]?.bind fun find => find name := by
  rw [Item.valueAt?, found, List.getElem?_map]
  cases items[index]? <;> rfl

theorem toValues_of_same (h : a.same b = true) : b.toValues = a.toValues := by
  obtain ⟨hvalues, hchoices, hnamespaces⟩ := same_iff.mp h
  have hfound : ∀ ns, found (b.items ns) = found (a.items ns) := by
    intro ns
    rw [found_items, found_items, hnamespaces]
  have hvalue : b.value? = a.value? := by
    funext name
    rw [value?, value?, hvalues]
  have hitem : b.item? = a.item? := by
    funext ns index name
    rw [item?, item?, valueAt?_eq, valueAt?_eq, hfound]
  have hhas : b.hasItem = a.hasItem := by
    funext ns index name
    rw [hasItem, hasItem, hitem]
  have hincluded : b.included = a.included := by
    funext label
    rw [included, included, hchoices]
  have hbound : (fun ns => (b.items ns).length) = fun ns => (a.items ns).length := by
    funext ns
    have hlength := congrArg List.length (hfound ns)
    rwa [found, found, List.length_map, List.length_map] at hlength
  simp only [toValues, hvalue, hitem, hhas, hincluded, hbound]

/-! ## Order -/

/-- All maps are in the order of their names. -/
structure Sorted (a : Answers) : Prop where
  values : Increasing a.values.entries
  choices : Increasing a.choices.entries
  namespaces : Increasing a.namespaces.entries
  items : ∀ p ∈ a.namespaces.entries, ∀ item ∈ p.2, Increasing item.entries

theorem eq_of_find? {β : Type} {m n : OrderedMap Text β} (hm : Increasing m.entries)
    (hn : Increasing n.entries) (h : m.find? = n.find?) : m = n :=
  OrderedMap.ext (eq_of_lookup hm hn fun k => congrFun h k)

theorem eq_of_found {is js : List Item} (his : ∀ item ∈ is, Increasing item.entries)
    (hjs : ∀ item ∈ js, Increasing item.entries) (h : found is = found js) : is = js := by
  induction is generalizing js with
  | nil =>
    cases js with
    | nil => rfl
    | cons j js => cases h
  | cons i is ih =>
    cases js with
    | nil => cases h
    | cons j js =>
      obtain ⟨hfirst, htail⟩ := List.cons_eq_cons.mp h
      have hi : i = j := eq_of_find? (his i List.mem_cons_self) (hjs j List.mem_cons_self) hfirst
      have his' := ih (fun item hitem => his item (List.mem_cons_of_mem i hitem))
        (fun item hitem => hjs item (List.mem_cons_of_mem j hitem)) htail
      rw [hi, his']

theorem eq_of_same (ha : a.Sorted) (hb : b.Sorted) (h : a.same b = true) : a = b := by
  obtain ⟨hvalues, hchoices, hnamespaces⟩ := same_iff.mp h
  have hfind : a.namespaces.find? = b.namespaces.find? := by
    funext ns
    have hns := hnamespaces ns
    cases hx : a.namespaces.find? ns with
    | none =>
      rw [hx, Option.map_none] at hns
      exact (Option.map_eq_none_iff.mp hns.symm).symm
    | some is =>
      rw [hx, Option.map_some] at hns
      obtain ⟨js, hy, hjs⟩ := Option.map_eq_some_iff.mp hns.symm
      have his : is = js := eq_of_found (ha.items _ (OrderedMap.mem_of_find? hx))
        (hb.items _ (OrderedMap.mem_of_find? hy)) hjs.symm
      rw [hy, his]
  obtain ⟨values, choices, namespaces⟩ := a
  obtain ⟨values', choices', namespaces'⟩ := b
  obtain rfl : values = values' := eq_of_find? ha.values hb.values hvalues
  obtain rfl : choices = choices' := eq_of_find? ha.choices hb.choices hchoices
  obtain rfl : namespaces = namespaces' := eq_of_find? ha.namespaces hb.namespaces hfind
  rfl

end NoteTemplate.Answers
