import NoteTemplate.Answers.Basic
import NoteTemplate.Proofs.OrderedMap
import NoteTemplate.Values.Table

/-!
# Values that are offered

A value that is offered for a place is stored if the place is free. So of several offers for one
place the first counts, whatever is offered in between, and it counts only if the place was free
before all of them.

* `Answers.offerAll`: one offer after the other, with what each of the calls tells.
* `at?_offer`: an offer can only fill its own place.
* `offerAll_first`: what a sequence of offers leaves behind, and what the calls tell.
-/

namespace NoteTemplate.Answers

open OrderedMap (IsFirst)

/-- The value at a place. -/
def at? (a : Answers) (p : ItemPlace) : Option Text := a.item? p.ns p.index p.name

/-- Stores a value at a place unless there is one, and tells whether it was stored. -/
def offer (a : Answers) (p : ItemPlace) (value : Text) : Bool × Answers :=
  a.setItemIfAbsent p.ns p.index p.name value

/-- Offers the values one after the other. -/
def offerAll (a : Answers) : List (ItemPlace × Text) → List Bool × Answers
  | [] => ([], a)
  | (p, value) :: os =>
    let (stored, b) := a.offer p value
    let (more, c) := b.offerAll os
    (stored :: more, c)

/-! ## One offer -/

variable {a : Answers} {p : ItemPlace} {value : Text}

theorem at?_offer (q : ItemPlace) :
    (a.offer p value).2.at? q = (a.at? q).or (if p = q then some value else none) := by
  have hplace : (p.ns = q.ns ∧ p.index = q.index ∧ p.name = q.name) ↔ p = q := by
    rw [ItemPlace.mk.injEq]
  rw [at?, offer, item?_setItemIfAbsent, at?]
  simp only [hplace]

theorem at?_offer_eq_none_iff {q : ItemPlace} :
    (a.offer p value).2.at? q = none ↔ a.at? q = none ∧ q ≠ p := by
  rw [at?_offer, Option.or_eq_none_iff, ite_eq_right_iff]
  simp [eq_comm]

theorem offer_stored : (a.offer p value).1 = decide (a.at? p = none) := by
  rw [offer, setItemIfAbsent, hasItem, at?]
  cases a.item? p.ns p.index p.name <;> rfl

/-- An offer leaves all that does not belong to an item. -/
theorem offer_frame :
    (a.offer p value).2.values = a.values ∧ (a.offer p value).2.choices = a.choices := by
  rw [offer, setItemIfAbsent]
  split <;> exact ⟨rfl, rfl⟩

/-! ## Sequences of offers -/

theorem at?_offerAll (a : Answers) (os : List (ItemPlace × Text)) (q : ItemPlace) :
    (a.offerAll os).2.at? q = (a.at? q).or (os.lookup q) := by
  induction os generalizing a with
  | nil => exact (Option.or_none).symm
  | cons o os ih =>
    show ((a.offer o.1 o.2).2.offerAll os).2.at? q = _
    rw [ih, at?_offer, Option.or_assoc, OrderedMap.lookup_cons]
    split
    · rw [Option.some_or]
    · rw [Option.none_or]

/-- A call stores its value if the place was free and no call before it was about the place. -/
theorem getElem?_offerAll (a : Answers) (os : List (ItemPlace × Text)) (i : Nat) :
    (a.offerAll os).1[i]? = os[i]?.map fun o =>
      decide (a.at? o.1 = none ∧ o.1 ∉ (os.take i).map Prod.fst) := by
  induction os generalizing a i with
  | nil => rfl
  | cons o os ih =>
    show ((a.offer o.1 o.2).1 :: ((a.offer o.1 o.2).2.offerAll os).1)[i]? = _
    cases i with
    | zero => simp [offer_stored]
    | succ i =>
      rw [List.getElem?_cons_succ, List.getElem?_cons_succ, ih]
      simp only [at?_offer_eq_none_iff, List.take_succ_cons, List.map_cons, List.mem_cons, not_or,
        and_assoc]

theorem offerAll_frame (a : Answers) (os : List (ItemPlace × Text)) :
    (a.offerAll os).2.values = a.values ∧ (a.offerAll os).2.choices = a.choices := by
  induction os generalizing a with
  | nil => exact ⟨rfl, rfl⟩
  | cons o os ih =>
    obtain ⟨hvalues, hchoices⟩ := ih (a.offer o.1 o.2).2
    exact ⟨hvalues.trans offer_frame.1, hchoices.trans offer_frame.2⟩

/-- After a sequence of offers a place has the value that it had before, if it had one, else the one
that was first offered for it, if there is one. A call tells that its value was stored if and only
if the place had none and the call was the first about it. -/
theorem offerAll_first (a : Answers) (os : List (ItemPlace × Text)) :
    let (stored, b) := a.offerAll os
    (∀ p value, b.at? p = some value ↔
      a.at? p = some value ∨ a.at? p = none ∧ IsFirst os p value) ∧
    (∀ p, b.at? p = none ↔ a.at? p = none ∧ p ∉ os.map Prod.fst) ∧
    (∀ i : Nat, stored[i]? = os[i]?.map fun o =>
      decide (a.at? o.1 = none ∧ o.1 ∉ (os.take i).map Prod.fst)) ∧
    b.values = a.values ∧ b.choices = a.choices := by
  refine ⟨fun p value => ?_, fun p => ?_, a.getElem?_offerAll os, a.offerAll_frame os⟩
  · rw [at?_offerAll, Option.or_eq_some_iff, OrderedMap.lookup_eq_some_iff_isFirst]
  · rw [at?_offerAll, Option.or_eq_none_iff, OrderedMap.lookup_eq_none_iff]

end NoteTemplate.Answers
