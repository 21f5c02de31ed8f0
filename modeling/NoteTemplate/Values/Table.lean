import NoteTemplate.Values

/-!
# Tables of values

A table lists the values of a document one by one. Of several entries for one place the last
counts. An item can be listed as carrying a variable without having a value for it.
-/

namespace NoteTemplate

/-- The place of a value inside a namespace. -/
structure ItemPlace where
  ns : Text
  index : Nat
  name : Text
deriving DecidableEq, Repr

/-- Values, listed one by one. -/
structure ValueTable where
  values : List (Text × Text)
  items : List (ItemPlace × Text)
  /-- places that count as taken, with or without a value -/
  present : List ItemPlace
  included : List Text

namespace ValueTable

/-- The places that count as taken. -/
def places (t : ValueTable) : List ItemPlace := t.items.map Prod.fst ++ t.present

/-- A number above all indices of the places. -/
def bound (places : List ItemPlace) : Nat := (places.map fun p => p.index + 1).foldr max 0

theorem lt_bound_of_mem {places : List ItemPlace} {p : ItemPlace} (h : p ∈ places) :
    p.index < bound places := by
  induction places with
  | nil => cases h
  | cons q qs ih =>
    simp only [bound, List.map_cons, List.foldr_cons]
    rcases List.mem_cons.mp h with rfl | hm
    · exact Nat.lt_of_lt_of_le (Nat.lt_succ_self _) (Nat.le_max_left _ _)
    · exact Nat.lt_of_lt_of_le (ih hm) (Nat.le_max_right _ _)

/-- The values that the table lists. -/
def toValues (t : ValueTable) : Values where
  value? name := t.values.reverse.lookup name
  item? ns index name := t.items.reverse.lookup ⟨ns, index, name⟩
  hasItem ns index name := t.places.contains ⟨ns, index, name⟩
  included label := t.included.contains label
  bound _ := bound t.places
  lt_bound h := lt_bound_of_mem (List.contains_iff_mem.mp h)

end ValueTable

end NoteTemplate
