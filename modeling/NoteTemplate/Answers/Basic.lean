import NoteTemplate.OrderedMap
import NoteTemplate.Values

/-!
# Answers

The store of what a user supplied: values of variables, choices of optional blocks, and
namespaces, each a list of items that map variables to values. An item may be empty.

* `Answers.setItem`: writes one variable of one item; `Answers.setItemIfAbsent` keeps a value
  that is already there.
* `Answers.toValues`: what a document is filled with. A block without a choice is included.
* `item?_setItem`: a write changes one place and no other.
-/

namespace NoteTemplate

/-- Variables of one item with their values. -/
abbrev Item := OrderedMap Text Text

/-- The answers for one note. -/
structure Answers where
  values : OrderedMap Text Text
  choices : OrderedMap Text Bool
  namespaces : OrderedMap Text (List Item)
deriving DecidableEq, Inhabited

/-! ## Items of a namespace -/

namespace Item

/-- Writes a variable of the item at an index. Items before it that are missing become empty
ones. -/
def setAt (name value : Text) : (index : Nat) → List Item → List Item
  | 0, [] => [OrderedMap.empty.insert name value]
  | 0, item :: items => item.insert name value :: items
  | index + 1, [] => OrderedMap.empty :: setAt name value index []
  | index + 1, item :: items => item :: setAt name value index items

/-- The value of a variable of the item at an index. -/
def valueAt? (items : List Item) (index : Nat) (name : Text) : Option Text :=
  match items[index]? with
  | none => none
  | some item => item.find? name

theorem length_setAt (name value : Text) (index : Nat) (items : List Item) :
    (setAt name value index items).length = max items.length (index + 1) := by
  induction index generalizing items with
  | zero =>
    cases items with
    | nil => rfl
    | cons item items => simp only [setAt, List.length_cons]; omega
  | succ n ih =>
    cases items with
    | nil => simp only [setAt, List.length_cons, ih, List.length_nil]; omega
    | cons item items => simp only [setAt, List.length_cons, ih]; omega

theorem valueAt?_setAt (name value : Text) (index : Nat) (items : List Item) (j : Nat)
    (x : Text) : valueAt? (setAt name value index items) j x =
      if index = j ∧ name = x then some value else valueAt? items j x := by
  induction index generalizing items j with
  | zero =>
    cases items <;> cases j <;> simp [setAt, valueAt?]
  | succ n ih =>
    cases items with
    | nil =>
      cases j with
      | zero => simp [setAt, valueAt?]
      | succ k => simpa [setAt, valueAt?] using ih [] k
    | cons item items =>
      cases j with
      | zero => simp [setAt, valueAt?]
      | succ k => simpa [setAt, valueAt?] using ih items k

end Item

namespace Answers

/-- No answer at all. -/
def empty : Answers := ⟨∅, ∅, ∅⟩

/-! ## Reading -/

/-- The items of a namespace; an unknown one has none. -/
def items (a : Answers) (ns : Text) : List Item := (a.namespaces.find? ns).getD []

def value? (a : Answers) (name : Text) : Option Text := a.values.find? name

def hasValue (a : Answers) (name : Text) : Bool := a.values.contains name

def item? (a : Answers) (ns : Text) (index : Nat) (name : Text) : Option Text :=
  Item.valueAt? (a.items ns) index name

def hasItem (a : Answers) (ns : Text) (index : Nat) (name : Text) : Bool :=
  (a.item? ns index name).isSome

/-- A block is included unless its choice says otherwise. -/
def included (a : Answers) (label : Text) : Bool := (a.choices.find? label).getD true

/-- The first index at which a variable is absent. -/
def nextFree (a : Answers) (ns name : Text) : Nat :=
  ((a.items ns).takeWhile fun item => item.contains name).length

theorem lt_length_of_hasItem {a : Answers} {ns : Text} {index : Nat} {name : Text}
    (h : a.hasItem ns index name = true) : index < (a.items ns).length := by
  rcases Nat.lt_or_ge index (a.items ns).length with hlt | hge
  · exact hlt
  · simp [hasItem, item?, Item.valueAt?, List.getElem?_eq_none hge] at h

/-- The values that a document is filled with. -/
def toValues (a : Answers) : Values where
  value? := a.value?
  item? := a.item?
  hasItem := a.hasItem
  included := a.included
  bound ns := (a.items ns).length
  lt_bound := lt_length_of_hasItem

/-! ## Writing -/

def setValue (a : Answers) (name value : Text) : Answers :=
  { a with values := a.values.insert name value }

def setChoice (a : Answers) (label : Text) (included : Bool) : Answers :=
  { a with choices := a.choices.insert label included }

/-- Writes one variable of one item, which comes into being if it is missing. -/
def setItem (a : Answers) (ns : Text) (index : Nat) (name value : Text) : Answers :=
  { a with namespaces := a.namespaces.insert ns (Item.setAt name value index (a.items ns)) }

/-- Writes one variable of one item unless it has a value, and tells whether it wrote. -/
def setItemIfAbsent (a : Answers) (ns : Text) (index : Nat) (name value : Text) :
    Bool × Answers :=
  if a.hasItem ns index name then (false, a) else (true, a.setItem ns index name value)

/-- Appends an item to the namespace of the repeat sections. -/
def pushItem (a : Answers) (pairs : List (Text × Text)) : Answers :=
  let items := a.items repeatNamespace ++ [OrderedMap.ofList pairs]
  { a with namespaces := a.namespaces.insert repeatNamespace items }

theorem items_setItem (a : Answers) (ns : Text) (index : Nat) (name value other : Text) :
    (a.setItem ns index name value).items other =
      if ns = other then Item.setAt name value index (a.items ns) else a.items other := by
  by_cases h : ns = other <;> simp [items, setItem, h]

theorem item?_setItem (a : Answers) (ns : Text) (index : Nat) (name value : Text)
    (ns' : Text) (j : Nat) (x : Text) : (a.setItem ns index name value).item? ns' j x =
      if ns = ns' ∧ index = j ∧ name = x then some value else a.item? ns' j x := by
  unfold item?
  rw [items_setItem]
  by_cases h : ns = ns'
  · subst h
    simp [Item.valueAt?_setAt]
  · simp [h]

theorem item?_setItemIfAbsent (a : Answers) (ns : Text) (index : Nat) (name value : Text)
    (ns' : Text) (j : Nat) (x : Text) : (a.setItemIfAbsent ns index name value).2.item? ns' j x =
      (a.item? ns' j x).or (if ns = ns' ∧ index = j ∧ name = x then some value else none) := by
  rw [setItemIfAbsent]
  by_cases hplace : ns = ns' ∧ index = j ∧ name = x
  · rw [if_pos hplace]
    obtain ⟨rfl, rfl, rfl⟩ := hplace
    split
    · rename_i htaken
      exact (Option.or_of_isSome htaken).symm
    · rename_i hfree
      rw [item?_setItem, if_pos ⟨rfl, rfl, rfl⟩, Option.not_isSome_iff_eq_none.mp hfree,
        Option.none_or]
  · rw [if_neg hplace, Option.or_none]
    split
    · rfl
    · rw [item?_setItem, if_neg hplace]

theorem items_pushItem (a : Answers) (pairs : List (Text × Text)) (ns : Text) :
    (a.pushItem pairs).items ns =
      if repeatNamespace = ns then a.items repeatNamespace ++ [OrderedMap.ofList pairs]
      else a.items ns := by
  by_cases h : repeatNamespace = ns <;> simp [items, pushItem, h]

/-! ## Comparison -/

/-- The same items one by one, whatever the order of their variables. -/
def sameItems : List Item → List Item → Bool
  | [], [] => true
  | i :: is, j :: js => i.sameBy (· == ·) j && sameItems is js
  | _, _ => false

/-- The same answers, whatever the order in which they came in. -/
def same (a b : Answers) : Bool :=
  a.values.sameBy (· == ·) b.values && a.choices.sameBy (· == ·) b.choices &&
    a.namespaces.sameBy sameItems b.namespaces

end Answers

end NoteTemplate
