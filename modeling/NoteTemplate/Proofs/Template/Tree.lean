import NoteTemplate.Document
import NoteTemplate.Proofs.Template.Search

/-!
# Template trees

A template that is well-formed is the printed form of a tree: parts that are always there and
parts that can be left out, each a list of pieces, among them sections around texts and
variables. Texts hold no mark, that is no bracket and no brace; names and labels are not empty
and hold no mark either.

* `Template.source`: the printed form of a tree.
* `Piece.avoids_source`: inside the printed pieces of a part no tag begins but those of
  sections.
* `Piece.avoids_literal`: with tokens in place of the sections, no tag of a repeat directive
  begins inside them.
-/

namespace NoteTemplate

/-- The characters that tags and placeholders are told by. -/
def Text.isMark (c : Char) : Bool := c = '[' || c = ']' || c = '{' || c = '}'

/-- No character is a mark. -/
def Text.Unmarked (s : Text) : Prop := ∀ c ∈ s, Text.isMark c = false

instance (s : Text) : Decidable (Text.Unmarked s) :=
  List.decidableBAll (fun c => Text.isMark c = false) s

theorem Text.Unmarked.not_mem {s : Text} {c : Char} (h : Text.Unmarked s)
    (hc : Text.isMark c = true) : c ∉ s := by
  intro hmem
  rw [h c hmem] at hc
  exact Bool.false_ne_true hc

namespace Template

/-- The name of a variable, or a label. -/
structure Name where
  text : Text
  ne_nil : text ≠ []
  unmarked : Text.Unmarked text

/-- A piece without pieces inside it. -/
inductive Leaf
  | text (s : Text) (unmarked : Text.Unmarked s)
  | placeholder (name : Name)

inductive Piece
  | leaf (l : Leaf)
  /-- a section -/
  | repeated (label : Name) (body : List Leaf)

/-- What a block is printed from. -/
inductive Part
  | plain (pieces : List Piece)
  | optional (label : Name) (pieces : List Piece)

def Part.isPlain : Part → Bool
  | plain _ => true
  | optional _ _ => false

end Template

/-- A template as a tree. Of two parts that follow each other at most one is plain. -/
structure Template where
  parts : List Template.Part
  isolated : parts.IsChain fun p q => p.isPlain = true → q.isPlain = false

namespace Template

/-! ## Printed form -/

def Leaf.source : Leaf → Text
  | text s _ => s
  | placeholder name => Placeholder.written name.text

def Piece.source : Piece → Text
  | leaf l => l.source
  | repeated label body =>
    Directive.written .repeated ⟨label.text, body.flatMap Leaf.source⟩

def Part.source : Part → Text
  | plain pieces => pieces.flatMap Piece.source
  | optional label pieces =>
    Directive.written .optional ⟨label.text, pieces.flatMap Piece.source⟩

/-- The text that a tree is printed as. -/
def source (t : Template) : Text := t.parts.flatMap Part.source

/-- A piece with a token in place of its section. -/
def Piece.literal : Piece → Text
  | leaf l => l.source
  | repeated label _ => RepeatSection.tokenOf label.text

/-! ## Where no tag begins -/

open Text

theorem Name.brace_not_mem (n : Name) : '{' ∉ n.text := n.unmarked.not_mem rfl

theorem Name.closingBrace_not_mem (n : Name) : '}' ∉ n.text := n.unmarked.not_mem rfl

theorem Leaf.brace_not_mem (l : Leaf) : '{' ∉ l.source := by
  cases l with
  | text s unmarked => exact unmarked.not_mem rfl
  | placeholder name =>
    have := name.brace_not_mem
    simp [source, Placeholder.written, this]

theorem Leaf.avoids_source (tag : Text) (body : List Leaf) :
    Avoids ('{' :: tag) (body.flatMap source) :=
  avoids_flatMap fun l _ => avoids_of_not_mem l.brace_not_mem

/-- No tag begins inside a directive if none does where its own tags and its body stand. -/
theorem avoids_written {tag : Text} {kind : DirectiveKind} {d : Directive}
    (hopener : Avoids ('{' :: tag) kind.opener) (hlabel : '{' ∉ d.label)
    (hbody : Avoids ('{' :: tag) d.body) (hcloser : Avoids ('{' :: tag) kind.closer) :
    Avoids ('{' :: tag) (d.written kind) := by
  have hend : Avoids ('{' :: tag) Directive.tagEnd := avoids_of_not_mem (by decide)
  exact avoids_append (avoids_append (avoids_append (avoids_append hopener
    (avoids_of_not_mem hlabel)) hend) hbody) hcloser

/-- Inside printed pieces no tag begins but those of sections. -/
theorem Piece.avoids_source {tag : Text}
    (hopener : Avoids ('{' :: tag) DirectiveKind.repeated.opener)
    (hcloser : Avoids ('{' :: tag) DirectiveKind.repeated.closer) (ps : List Piece) :
    Avoids ('{' :: tag) (ps.flatMap source) := by
  refine avoids_flatMap fun p _ => ?_
  cases p with
  | leaf l => exact avoids_of_not_mem l.brace_not_mem
  | repeated label body =>
    exact avoids_written hopener label.brace_not_mem (Leaf.avoids_source tag body) hcloser

theorem Piece.avoids_literal (p : Piece) :
    Avoids DirectiveKind.repeated.opener p.literal := by
  cases p with
  | leaf l => exact avoids_of_not_mem l.brace_not_mem
  | repeated label body =>
    exact avoids_append (avoids_append (by decide) (avoids_of_not_mem label.brace_not_mem))
      (avoids_of_not_mem (by decide))

end Template

end NoteTemplate
