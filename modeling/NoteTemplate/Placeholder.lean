import NoteTemplate.Text.Basic

/-!
# Placeholders

`[name]` stands for the value of a variable. A name is one or more characters other than
`]`; a `[` inside it is part of the name. There is no way to write a bracket that is not a
placeholder's.

* `Placeholder.names`: the distinct names of a text, in the order of their first occurrence.
* `Placeholder.mem_names_iff`: these are the names that the scan meets.
-/

namespace NoteTemplate.Placeholder

/-- The placeholder of a variable. -/
def written (name : Text) : Text := '[' :: name ++ [']']

/-- The names met from left to right, repetitions included. A placeholder begins at the
first `[` that is not directly followed by `]` and has a `]` after it; the first `skip`
characters belong to a placeholder that has been read already. -/
def scan : (skip : Nat) → Text → List Text
  | _, [] => []
  | skip + 1, _ :: cs => scan skip cs
  | 0, c :: cs =>
    let name := cs.takeWhile (· ≠ ']')
    if c = '[' ∧ name ≠ [] ∧ name.length < cs.length then name :: scan (name.length + 1) cs
    else scan 0 cs

/-- Appends a name unless it is listed. -/
def note (known : List Text) (name : Text) : List Text :=
  if name ∈ known then known else known ++ [name]

/-- The distinct names of the placeholders of a text, in the order of first occurrence. -/
def names (s : Text) : List Text := (scan 0 s).foldl note []

theorem mem_note {known : List Text} {name x : Text} :
    x ∈ note known name ↔ x ∈ known ∨ x = name := by
  unfold note
  split
  · constructor
    · exact Or.inl
    · rintro (h | rfl) <;> assumption
  · simp

theorem nodup_note {known : List Text} {name : Text} (h : known.Nodup) :
    (note known name).Nodup := by
  unfold note
  split
  · exact h
  · rename_i hn
    rw [List.nodup_append]
    refine ⟨h, by simp, ?_⟩
    intro a ha b hb
    rw [List.mem_singleton] at hb
    subst hb
    exact fun e => hn (e ▸ ha)

theorem mem_foldl_note {found known : List Text} {x : Text} :
    x ∈ found.foldl note known ↔ x ∈ known ∨ x ∈ found := by
  induction found generalizing known with
  | nil => simp
  | cons n ns ih => rw [List.foldl_cons, ih, mem_note, List.mem_cons, or_assoc]

theorem nodup_foldl_note {found known : List Text} (h : known.Nodup) :
    (found.foldl note known).Nodup := by
  induction found generalizing known with
  | nil => exact h
  | cons n ns ih => exact ih (nodup_note h)

theorem mem_names_iff {s x : Text} : x ∈ names s ↔ x ∈ scan 0 s := by
  simp [names, mem_foldl_note]

theorem nodup_names (s : Text) : (names s).Nodup := nodup_foldl_note List.nodup_nil

end NoteTemplate.Placeholder
