import Mathlib.Logic.Function.Basic
import NoteTemplate.Proofs.Answers.Writes

/-!
# The answers as a partial map

The answers are seen as partial maps, together with the number of items of each namespace and the
order in which keys came in. Each call that changes the answers changes them at one place. The empty
items that fill up a namespace up to this place are seen in the number of items only.

* `Ledger`: the keys of a map in their order, and the value of each.
* `View`, `Answers.view`: what the answers hold.
* `View.step`: what a call does to it.
* `view_run`: the answers after any sequence of calls hold what the steps of the calls make.
* `view_injective`: nothing else is in the answers.
-/

namespace NoteTemplate.Answers

open Placeholder (note)

/-! ## Ledgers -/

/-- Keys in the order in which they came in, and the values of the keys. -/
@[ext]
structure Ledger (β : Type) where
  keys : List Text
  value? : Text → Option β

namespace Ledger

variable {β : Type}

/-- No key has a value. -/
def empty : Ledger β := ⟨[], fun _ => none⟩

/-- Gives one key a value. A key that has one keeps its place. -/
def write (l : Ledger β) (key : Text) (value : β) : Ledger β :=
  ⟨note l.keys key, Function.update l.value? key (some value)⟩

/-- Keys at their first places, with their last values. -/
def ofPairs (ps : List (Text × β)) : Ledger β :=
  ⟨(ps.map Prod.fst).eraseDups, fun key => ps.reverse.lookup key⟩

/-- The ledger of a map. -/
def ofMap (m : OrderedMap Text β) : Ledger β := ⟨m.keys, m.find?⟩

theorem ofMap_empty : ofMap (∅ : OrderedMap Text β) = empty := rfl

theorem ofMap_insert (m : OrderedMap Text β) (key : Text) (value : β) :
    ofMap (m.insert key value) = (ofMap m).write key value := by
  refine Ledger.ext (m.keys_insert_eq_note key value) (funext fun k => ?_)
  show (m.insert key value).find? k = Function.update m.find? key (some value) k
  rw [OrderedMap.find?_insert, Function.update_apply]
  simp only [eq_comm]

theorem ofMap_ofList (ps : List (Text × β)) : ofMap (OrderedMap.ofList ps) = ofPairs ps := by
  refine Ledger.ext (OrderedMap.keys_ofList ps) (funext fun k => ?_)
  show (OrderedMap.empty.insertAll ps).find? k = _
  rw [OrderedMap.find?_insertAll, OrderedMap.find?_empty, Option.or_none]
  rfl

theorem ofMap_injective {m n : OrderedMap Text β} (h : ofMap m = ofMap n) : m = n :=
  OrderedMap.eq_of_keys_of_find? (congrArg keys h) fun k => congrFun (congrArg value? h) k

end Ledger

/-! ## Views -/

/-- What answers hold. -/
@[ext]
structure View where
  values : Ledger Text
  choices : Ledger Bool
  /-- the namespaces in the order in which they came in -/
  namespaces : List Text
  /-- how many items a namespace has -/
  count : Text → Nat
  /-- the variables of an item -/
  item : Text → Nat → Ledger Text

namespace View

/-- Replaces one item of a namespace, and the number of its items. -/
def setItem (V : View) (ns : Text) (index : Nat) (item : Ledger Text) (count : Nat) : View :=
  { V with
    namespaces := note V.namespaces ns
    count := Function.update V.count ns count
    item := Function.update V.item ns (Function.update (V.item ns) index item) }

/-- Writes one variable of one item. There are items up to its index then. -/
def writeItem (V : View) (ns : Text) (index : Nat) (name value : Text) : View :=
  V.setItem ns index ((V.item ns index).write name value) (max (V.count ns) (index + 1))

/-- What a call does. -/
def step (V : View) : Write → View
  | .value name v => { V with values := V.values.write name v }
  | .choice label included => { V with choices := V.choices.write label included }
  | .item ns index name v => V.writeItem ns index name v
  | .itemIfAbsent ns index name v =>
    if ((V.item ns index).value? name).isSome then V else V.writeItem ns index name v
  | .push pairs =>
    let count := V.count repeatNamespace
    V.setItem repeatNamespace count (.ofPairs pairs) (count + 1)

end View

/-- What the answers hold. -/
def view (a : Answers) : View where
  values := .ofMap a.values
  choices := .ofMap a.choices
  namespaces := a.namespaces.keys
  count ns := (a.items ns).length
  item ns index := .ofMap (itemAt (a.items ns) index)

/-! ## Calls -/

theorem items_insert (a : Answers) (ns : Text) (is : List Item) :
    items { a with namespaces := a.namespaces.insert ns is } = Function.update a.items ns is := by
  funext other
  rw [items, OrderedMap.find?_insert, Function.update_apply]
  by_cases h : ns = other
  · rw [if_pos h, if_pos h.symm]
    rfl
  · rw [if_neg h, if_neg (Ne.symm h)]
    rfl

/-- If one of the items of a namespace is replaced, the view changes at this place. -/
theorem view_insert (a : Answers) (ns : Text) {is : List Item} {index : Nat} {item : Item}
    (h : ∀ j, itemAt is j = if j = index then item else itemAt (a.items ns) j) :
    view { a with namespaces := a.namespaces.insert ns is } =
      a.view.setItem ns index (.ofMap item) is.length := by
  have hitems := items_insert a ns is
  refine View.ext rfl rfl (a.namespaces.keys_insert_eq_note ns is) ?_ ?_
  · funext other
    show (items _ other).length = Function.update a.view.count ns is.length other
    rw [hitems, Function.update_apply, Function.update_apply]
    split <;> rfl
  · funext other j
    show Ledger.ofMap (itemAt (items _ other) j) =
      Function.update a.view.item ns (Function.update (a.view.item ns) index (.ofMap item)) other j
    rw [hitems, Function.update_apply, Function.update_apply]
    split
    · rw [h, Function.update_apply]
      split <;> rfl
    · rfl

theorem view_setItem (a : Answers) (ns : Text) (index : Nat) (name value : Text) :
    (a.setItem ns index name value).view = a.view.writeItem ns index name value := by
  rw [setItem, view_insert a ns (itemAt_setAt name value index (a.items ns)), Ledger.ofMap_insert,
    Item.length_setAt]
  rfl

theorem view_pushItem (a : Answers) (pairs : List (Text × Text)) :
    (a.pushItem pairs).view = a.view.step (.push pairs) := by
  rw [pushItem, view_insert a repeatNamespace (itemAt_append_singleton _ _), Ledger.ofMap_ofList,
    List.length_append]
  rfl

theorem item?_eq_view (a : Answers) (ns : Text) (index : Nat) (name : Text) :
    a.item? ns index name = (a.view.item ns index).value? name :=
  a.item?_eq_itemAt ns index name

/-- Each call does to the view what its step says. -/
theorem view_apply (a : Answers) (w : Write) : (w.apply a).view = a.view.step w := by
  cases w with
  | value name v =>
    exact View.ext (Ledger.ofMap_insert a.values name v) rfl rfl rfl rfl
  | choice label included =>
    exact View.ext rfl (Ledger.ofMap_insert a.choices label included) rfl rfl rfl
  | item ns index name v => exact a.view_setItem ns index name v
  | itemIfAbsent ns index name v =>
    rw [Write.apply, setItemIfAbsent, hasItem, item?_eq_view, View.step]
    split
    · rfl
    · exact a.view_setItem ns index name v
  | push pairs => exact a.view_pushItem pairs

/-- After any sequence of calls the answers hold what the steps of the calls make of what they held
at first, and their values are those of the partial maps. There are no variables behind the items
of a namespace, so there are none either in the items that come into being between the old items
and one that is written. -/
theorem view_run (a : Answers) (ws : List Write) :
    let b := a.run ws
    b.view = ws.foldl View.step a.view ∧
    (∀ name, b.value? name = b.view.values.value? name) ∧
    (∀ label, b.included label = (b.view.choices.value? label).getD true) ∧
    (∀ ns index name, b.item? ns index name = (b.view.item ns index).value? name) ∧
    ∀ ns index, b.view.count ns ≤ index → b.view.item ns index = .empty := by
  refine ⟨?_, fun _ => rfl, fun _ => rfl, item?_eq_view _, fun ns index hle => ?_⟩
  · induction ws generalizing a with
    | nil => rfl
    | cons w ws ih =>
      show ((w.apply a).run ws).view = ws.foldl View.step (a.view.step w)
      rw [ih, view_apply]
  · exact (congrArg Ledger.ofMap (itemAt_of_length_le hle)).trans Ledger.ofMap_empty

/-- The view tells all. -/
theorem view_injective : Function.Injective view := by
  intro a b h
  have hitems (ns : Text) : a.items ns = b.items ns := by
    have hlength : (a.items ns).length = (b.items ns).length :=
      congrFun (congrArg View.count h) ns
    refine List.ext_getElem hlength fun i hi hi' => ?_
    have hitem : itemAt (a.items ns) i = itemAt (b.items ns) i :=
      Ledger.ofMap_injective (congrFun (congrFun (congrArg View.item h) ns) i)
    rwa [itemAt, itemAt, List.getElem?_eq_getElem hi, List.getElem?_eq_getElem hi'] at hitem
  have hkeys : a.namespaces.keys = b.namespaces.keys := congrArg View.namespaces h
  have hnamespaces : a.namespaces = b.namespaces := by
    refine OrderedMap.eq_of_keys_of_find? hkeys fun ns => ?_
    by_cases hns : ns ∈ a.namespaces.keys
    · obtain ⟨is, his⟩ := Option.isSome_iff_exists.mp (OrderedMap.mem_keys_iff.mp hns)
      obtain ⟨js, hjs⟩ := Option.isSome_iff_exists.mp (OrderedMap.mem_keys_iff.mp (hkeys ▸ hns))
      have hns := hitems ns
      rw [items, items, his, hjs] at hns
      rw [his, hjs]
      exact congrArg some hns
    · rw [(OrderedMap.find?_eq_none_iff _ _).mpr hns,
        (OrderedMap.find?_eq_none_iff _ _).mpr (hkeys ▸ hns)]
  have hvalues : a.values = b.values := Ledger.ofMap_injective (congrArg View.values h)
  have hchoices : a.choices = b.choices := Ledger.ofMap_injective (congrArg View.choices h)
  cases a
  cases b
  congr

end NoteTemplate.Answers
