import NoteTemplate.Json.Printer
import NoteTemplate.Proofs.Json.Grammar

/-!
# Printed values are read back

A value without numbers that is not nested too deep is printed as a text that is read as the
same value with its members sorted, whether it is printed with space or without.

* `items_intercalate`: items that are joined are items with space around them.
* `Value.written_indented`, `Value.written_compact`: a printed value is written as the grammar
  has it.
* `Value.ofText_pretty`: a printed value is read as its sorted form.
-/

namespace NoteTemplate.Json

open Value (newLine block)

/-! ## Lists -/

theorem isGap_newLine (level : Nat) : IsGap (newLine level) := by
  intro c hc
  rcases List.mem_cons.mp hc with rfl | hc
  · rfl
  · rw [List.eq_of_mem_replicate hc]
    rfl

theorem isGap_nil : IsGap [] := fun _ hc => absurd hc List.not_mem_nil

section Lines

variable {α : Type} {P : α → Text → Prop} {text : α → Text}

theorem items_intercalate {gap after : Text} (hgap : IsGap gap) (hafter : IsGap after) {xs : List α}
    (hne : xs ≠ []) (h : ∀ x ∈ xs, P x (text x)) :
    Items P xs (gap ++ (',' :: gap).intercalate (xs.map text) ++ after) := by
  induction xs with
  | nil => exact absurd rfl hne
  | cons x xs ih =>
    obtain ⟨hx, hxs⟩ := List.forall_mem_cons.mp h
    cases xs with
    | nil =>
      rw [List.map_singleton, List.intercalate_singleton]
      exact .single hgap hx hafter
    | cons y ys =>
      have hitems := ih (List.cons_ne_nil y ys) hxs
      have hcons := Items.cons hgap hx isGap_nil hitems
      simpa using hcons

theorem inside_intercalate {xs : List α} (h : ∀ x ∈ xs, P x (text x)) :
    Inside P xs ([','].intercalate (xs.map text)) := by
  cases xs with
  | nil => exact .empty isGap_nil
  | cons x xs =>
    have hitems := items_intercalate isGap_nil isGap_nil (List.cons_ne_nil x xs) h
    rw [List.nil_append, List.append_nil] at hitems
    exact .items hitems

/-- Behind the opening character of a printed list stand the items, and the end. -/
theorem inside_block (level : Nat) (opening closing : Char) {xs : List α}
    (h : ∀ x ∈ xs, P x (text x)) :
    ∃ t, block level opening closing (xs.map text) = opening :: t ++ [closing] ∧
      Inside P xs t := by
  cases xs with
  | nil => exact ⟨[], rfl, .empty isGap_nil⟩
  | cons x xs =>
    have hitems := items_intercalate (isGap_newLine (level + 1)) (isGap_newLine level)
      (List.cons_ne_nil x xs) h
    refine ⟨_, ?_, .items hitems⟩
    rw [block, if_neg (by simp)]
    simp

end Lines

/-! ## Values -/

namespace Value

theorem indentedElements_eq (level : Nat) (vs : List Value) :
    indentedElements level vs = vs.map (indented level) := by
  induction vs with
  | nil => rfl
  | cons v vs ih => rw [indentedElements, ih, List.map_cons]

theorem indentedMembers_eq (level : Nat) (ms : List (Text × Value)) :
    indentedMembers level ms =
      ms.map fun m => Quoted.write m.1 ++ ':' :: ' ' :: indented level m.2 := by
  induction ms with
  | nil => rfl
  | cons m ms ih => rw [indentedMembers, ih, List.map_cons]

theorem compactElements_eq (vs : List Value) : compactElements vs = vs.map compact := by
  induction vs with
  | nil => rfl
  | cons v vs ih => rw [compactElements, ih, List.map_cons]

theorem compactMembers_eq (ms : List (Text × Value)) :
    compactMembers ms = ms.map fun m => Quoted.write m.1 ++ ':' :: compact m.2 := by
  induction ms with
  | nil => rfl
  | cons m ms ih => rw [compactMembers, ih, List.map_cons]

/-- Arrays and objects are nested at most that deep, and there is no number among them. -/
inductive Fits : Nat → Value → Prop
  | null (depth : Nat) : Fits depth .null
  | bool (depth : Nat) (b : Bool) : Fits depth (.bool b)
  | string (depth : Nat) (s : Text) : Fits depth (.string s)
  | array {depth : Nat} {vs : List Value} :
      (∀ v ∈ vs, Fits depth v) → Fits (depth + 1) (.array vs)
  | object {depth : Nat} {ms : List (Text × Value)} :
      (∀ m ∈ ms, Fits depth m.2) → Fits (depth + 1) (.object ms)

theorem exists_block (level : Nat) (opening closing : Char) (lines : List Text) :
    ∃ body, block level opening closing lines = opening :: body := by
  rw [block]
  split
  · exact ⟨_, rfl⟩
  · exact ⟨_, rfl⟩

theorem written_of_atomic (depth : Nat) {v : Value} {t : Text} (h : Atomic v t) :
    Written depth v t := by
  cases depth with
  | zero => exact h
  | succ depth => exact Or.inl h

theorem atomic_of_written {depth : Nat} {v : Value} {t : Text} (h : Written depth v t)
    (hv : ∀ W, ¬ Compound W v t) : Atomic v t := by
  cases depth with
  | zero => exact h
  | succ depth => exact h.resolve_right (hv _)

theorem memberText_write {W : Value → Text → Prop} {m : Text × Value} {gap t : Text}
    (hgap : IsGap gap) (h : W m.2 t) :
    MemberText W m (Quoted.write m.1 ++ ':' :: (gap ++ t)) := by
  have hmember := MemberText.member (Quoted.spelled_flatMap_escape m.1) isGap_nil hgap h
  simpa [Quoted.write] using hmember

theorem isGap_blank : IsGap [' '] := by
  intro c hc
  rw [List.mem_singleton.mp hc]
  rfl

theorem atomic_bool (b : Bool) : Atomic (.bool b) (scalar (.bool b)) := by
  cases b with
  | true => exact .bool_true
  | false => exact .bool_false

theorem written_indented {depth : Nat} {v : Value} (h : Fits depth v) (level : Nat) :
    Written depth v (indented level v) := by
  -- What is inside stands one level further in and is nested one level less deep.
  induction h generalizing level with
  | null depth => exact written_of_atomic depth .null
  | bool depth b => exact written_of_atomic depth (atomic_bool b)
  | string depth s =>
    exact written_of_atomic depth (.string (Quoted.spelled_flatMap_escape s))
  | @array depth vs _ ih =>
    have hinside := inside_block (P := Written depth) level '[' ']'
      fun v hv => ih v hv (level + 1)
    obtain ⟨t, hblock, ht⟩ := hinside
    rw [indented, indentedElements_eq, hblock]
    exact Or.inr (.array ht)
  | @object depth ms _ ih =>
    have hmember (m : Text × Value) (hm : m ∈ ms) : MemberText (Written depth) m
        (Quoted.write m.1 ++ ':' :: ' ' :: indented (level + 1) m.2) :=
      memberText_write isGap_blank (ih m hm (level + 1))
    obtain ⟨t, hblock, ht⟩ := inside_block level '{' '}' hmember
    rw [indented, indentedMembers_eq, hblock]
    exact Or.inr (.object ht)

theorem written_compact {depth : Nat} {v : Value} (h : Fits depth v) :
    Written depth v (compact v) := by
  induction h with
  | null depth => exact written_of_atomic depth .null
  | bool depth b => exact written_of_atomic depth (atomic_bool b)
  | string depth s =>
    exact written_of_atomic depth (.string (Quoted.spelled_flatMap_escape s))
  | array _ ih =>
    rw [compact, compactElements_eq]
    exact Or.inr (.array (inside_intercalate ih))
  | object _ ih =>
    rw [compact, compactMembers_eq]
    exact Or.inr (.object (inside_intercalate fun m hm => memberText_write isGap_nil (ih m hm)))

theorem document_of_written {v : Value} {t : Text} (h : Written maxDepth v t) : v.Document t := by
  have hdocument := Document.document isGap_nil h isGap_nil
  rwa [List.nil_append, List.append_nil] at hdocument

theorem document_pretty {v : Value} (h : Fits maxDepth v) : v.Document v.pretty :=
  document_of_written (written_indented h 0)

theorem document_compact {v : Value} (h : Fits maxDepth v) : v.Document v.compact :=
  document_of_written (written_compact h)

/-- A printed document is read as its sorted form. -/
theorem ofText_pretty {v : Value} (h : Fits maxDepth v) : ofText v.pretty = .ok v.sorted :=
  ofText_eq_ok_iff.mpr ⟨v, document_pretty h, rfl⟩

end Value

end NoteTemplate.Json
