import NoteTemplate.Text.Basic

/-!
# Values

What a document is filled with: values of variables, values for the items of an indexed
namespace, and the choice of optional blocks. An absent value is never an error.

* `Values.itemCount_spec`: `itemCount` is the first index at which a variable is absent.
-/

namespace NoteTemplate

/-- The indexed namespace that all repeat sections of a document share. -/
def repeatNamespace : Text := ['r', 'e', 'p', 'e', 'a', 't']

/-- A source of values. -/
structure Values where
  /-- the value of a variable outside the sections -/
  value? : Text → Option Text
  /-- the value of a variable for one item of a namespace -/
  item? : (ns : Text) → (index : Nat) → (name : Text) → Option Text
  /-- whether an item of a namespace carries a variable at all -/
  hasItem : (ns : Text) → (index : Nat) → (name : Text) → Bool
  /-- whether an optional block is wanted -/
  included : (label : Text) → Bool
  /-- all items of a namespace have smaller indices -/
  bound : (ns : Text) → Nat
  lt_bound : ∀ {ns index name}, hasItem ns index name = true → index < bound ns

/-- The first of `i`, `i + 1`, … that fails `p`, if it comes within `fuel` steps. -/
def firstGapFrom (p : Nat → Bool) : (fuel i : Nat) → Nat
  | 0, i => i
  | fuel + 1, i => if p i then firstGapFrom p fuel (i + 1) else i

theorem firstGapFrom_spec {p : Nat → Bool} {fuel i : Nat} (h : ∀ j, p j = true → j < i + fuel) :
    i ≤ firstGapFrom p fuel i ∧ p (firstGapFrom p fuel i) = false ∧
      ∀ j, i ≤ j → j < firstGapFrom p fuel i → p j = true := by
  induction fuel generalizing i with
  | zero =>
    refine ⟨Nat.le_refl i, ?_, fun j hij hji => absurd hji (Nat.not_lt.mpr hij)⟩
    cases hp : p i with
    | false => exact hp
    | true => exact absurd (h i hp) (Nat.lt_irrefl i)
  | succ n ih =>
    by_cases hp : p i = true
    · have hn : ∀ j, p j = true → j < i + 1 + n := fun j hj => by have := h j hj; omega
      obtain ⟨h1, h2, h3⟩ := ih hn
      simp only [firstGapFrom, hp, if_true]
      refine ⟨by omega, h2, fun j hij hj => ?_⟩
      rcases Nat.eq_or_lt_of_le hij with rfl | hlt
      · exact hp
      · exact h3 j hlt hj
    · simp only [firstGapFrom, hp]
      exact ⟨Nat.le_refl i, by simpa using hp, fun j hij hji => absurd hji (Nat.not_lt.mpr hij)⟩

namespace Values

/-- The number of items, counted from index 0 upward as long as they carry the variable. -/
def itemCount (v : Values) (ns name : Text) : Nat :=
  firstGapFrom (fun i => v.hasItem ns i name) (v.bound ns) 0

theorem itemCount_spec (v : Values) (ns name : Text) :
    v.hasItem ns (v.itemCount ns name) name = false ∧
      ∀ i < v.itemCount ns name, v.hasItem ns i name = true := by
  have h := @firstGapFrom_spec (fun i => v.hasItem ns i name) (v.bound ns) 0
    (fun j hj => by simpa using v.lt_bound hj)
  exact ⟨h.2.1, fun i hi => h.2.2 i (Nat.zero_le i) hi⟩

end Values

end NoteTemplate
