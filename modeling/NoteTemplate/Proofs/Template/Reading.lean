import Mathlib.Data.List.Chain
import NoteTemplate.Proofs.Template.Tree

/-!
# Reading the printed form of a tree

A printed tree is read back: the document has a block for every part, in the order of the
parts, except for plain parts that are printed as blank text.

* `Template.parse_source`: the document that a printed tree is read as.
* `ofText_source`: the content that the printed pieces of a part are read as.
* `scan_literal`: the names met in a literal are those of the placeholders outside sections.
-/

namespace NoteTemplate.Template

open Text

/-! ## What a tree stands for -/

def Leaf.name? : Leaf → Option Text
  | text _ _ => none
  | placeholder name => some name.text

/-- The name of a placeholder outside the sections. -/
def Piece.name? : Piece → Option Text
  | leaf l => l.name?
  | repeated _ _ => none

/-- The distinct names of leaves, each where it comes first. -/
def Leaf.names (ls : List Leaf) : List Text := (ls.filterMap name?).eraseDups

/-- A section, with its body as it is printed. -/
def sectionOf (label : Name) (body : List Leaf) : RepeatSection :=
  ⟨label.text, body.flatMap Leaf.source, Leaf.names body⟩

def Piece.section? : Piece → Option RepeatSection
  | leaf _ => none
  | repeated label body => some (sectionOf label body)

/-- The content of the pieces of a part. -/
def Piece.content (ps : List Piece) : Content :=
  ⟨(ps.filterMap name?).eraseDups, ps.filterMap section?, ps.flatMap literal⟩

/-- The block of a part. A plain part that is printed as blank text has none. -/
def Part.block? : Part → Option Block
  | plain pieces =>
    if isBlank (pieces.flatMap Piece.source) then none else some (.plain (Piece.content pieces))
  | optional label pieces => some (.optional label.text (Piece.content pieces))

/-! ## Contents -/

theorem Name.scan_append (n : Name) (s : Text) :
    Placeholder.scan 0 (Placeholder.written n.text ++ s) = n.text :: Placeholder.scan 0 s :=
  Placeholder.scan_written_append n.ne_nil (n.unmarked.not_mem rfl) s

theorem Leaf.scan_append (l : Leaf) (s : Text) :
    Placeholder.scan 0 (l.source ++ s) = l.name?.toList ++ Placeholder.scan 0 s := by
  cases l with
  | text t unmarked => exact Placeholder.scan_append (unmarked.not_mem rfl) s
  | placeholder name => exact name.scan_append s

theorem Leaf.scan_source (ls : List Leaf) :
    Placeholder.scan 0 (ls.flatMap source) = ls.filterMap name? := by
  induction ls with
  | nil => rfl
  | cons l ls ih =>
    rw [List.flatMap_cons, scan_append, ih, List.filterMap_cons]
    cases l.name? <;> rfl

theorem bracket_not_mem_literal (label : Name) (body : List Leaf) :
    '[' ∉ (Piece.repeated label body).literal :=
  RepeatSection.not_mem_tokenOf (by decide) (label.unmarked.not_mem rfl)

theorem Piece.scan_append (p : Piece) (s : Text) :
    Placeholder.scan 0 (p.literal ++ s) = p.name?.toList ++ Placeholder.scan 0 s := by
  cases p with
  | leaf l => exact l.scan_append s
  | repeated label body => exact Placeholder.scan_append (bracket_not_mem_literal label body) s

theorem Piece.scan_literal (ps : List Piece) :
    Placeholder.scan 0 (ps.flatMap literal) = ps.filterMap name? := by
  induction ps with
  | nil => rfl
  | cons p ps ih =>
    rw [List.flatMap_cons, scan_append, ih, List.filterMap_cons]
    cases p.name? <;> rfl

theorem ofDirective_source (label : Name) (body : List Leaf) :
    RepeatSection.ofDirective ⟨label.text, body.flatMap Leaf.source⟩ = sectionOf label body := by
  rw [RepeatSection.ofDirective, Placeholder.names_eq_eraseDups, Leaf.scan_source]
  rfl

/-- The first section is taken out from behind a text in which no directive begins. -/
theorem extract_repeated {before : Text} (h : Avoids DirectiveKind.repeated.opener before)
    (label : Name) (body : List Leaf) (after : Text) :
    Content.extract (before ++ (Piece.repeated label body).source ++ after) =
      let tail := Content.extract (before ++ (Piece.repeated label body).literal ++ after)
      ⟨sectionOf label body :: tail.sections, tail.literal⟩ := by
  have hbody : Avoids DirectiveKind.repeated.closer (body.flatMap Leaf.source) :=
    Leaf.avoids_source _ body
  have hfind := Directive.find?_append (d := ⟨label.text, body.flatMap Leaf.source⟩) h
    label.ne_nil label.closingBrace_not_mem hbody after
  rw [Piece.source, Content.extract_of_find?_eq_some hfind, ofDirective_source]
  rfl

/-- The sections of pieces are taken out one after the other. The text before them, in which
tokens stand already, is searched again each time. -/
theorem extract_source {before : Text} (h : Avoids DirectiveKind.repeated.opener before)
    (ps : List Piece) :
    Content.extract (before ++ ps.flatMap Piece.source) =
      ⟨ps.filterMap Piece.section?, before ++ ps.flatMap Piece.literal⟩ := by
  induction ps generalizing before with
  | nil =>
    rw [List.flatMap_nil, List.append_nil,
      Content.extract_of_find?_eq_none (Directive.find?_of_avoids h)]
    simp
  | cons p ps ih =>
    have ih := ih (avoids_append h p.avoids_literal)
    rw [List.flatMap_cons, ← List.append_assoc]
    cases p with
    | leaf l =>
      rw [Piece.literal] at ih
      rw [Piece.source, ih, List.filterMap_cons, List.flatMap_cons, List.append_assoc]
      rfl
    | repeated label body =>
      rw [extract_repeated h, ih]
      simp [Piece.section?]

theorem ofText_source (ps : List Piece) :
    Content.ofText (ps.flatMap Piece.source) = Piece.content ps := by
  have h := extract_source (avoids_nil DirectiveKind.repeated.opener) ps
  rw [List.nil_append, List.nil_append] at h
  rw [Content.ofText, h, Piece.content]
  simp only [Placeholder.names_eq_eraseDups, Piece.scan_literal]

/-! ## Blocks -/

theorem blocks_of_avoids {gap : Text} (h : Avoids DirectiveKind.optional.opener gap) :
    (Document.parse gap).blocks = Block.ofGap gap := by
  rw [Document.parse, Directive.split_of_find?_eq_none (Directive.find?_of_avoids h)]
  rfl

/-- The first optional directive, with the gap before it, gives the first blocks. -/
theorem blocks_append {gap : Text} (h : Avoids DirectiveKind.optional.opener gap) (label : Name)
    (ps : List Piece) (after : Text) :
    (Document.parse (gap ++ (Part.optional label ps).source ++ after)).blocks =
      Block.ofGap gap ++ .optional label.text (Piece.content ps) ::
        (Document.parse after).blocks := by
  have hbody : Avoids DirectiveKind.optional.closer (ps.flatMap Piece.source) :=
    Piece.avoids_source (by decide) (by decide) ps
  have hfind := Directive.find?_append (d := ⟨label.text, ps.flatMap Piece.source⟩) h
    label.ne_nil label.closingBrace_not_mem hbody after
  rw [Part.source, Document.parse, Directive.split_of_find?_eq_some hfind]
  simp [Document.parse, Document.ofPieces, Block.ofDirective, ofText_source]

theorem ofGap_source (ps : List Piece) :
    Block.ofGap (ps.flatMap Piece.source) = (Part.block? (.plain ps)).toList := by
  rw [Block.ofGap, ofText_source, Part.block?]
  split <;> rfl

/-- The blocks of a gap and of the parts behind it. The gap ends where these begin: it is empty,
or no plain part follows. -/
theorem blocks_source {parts : List Part} (gap : List Piece)
    (hparts : parts.IsChain fun p q => p.isPlain = true → q.isPlain = false)
    (hgap : gap = [] ∨ ∀ p ∈ parts.head?, p.isPlain = false) :
    (Document.parse (gap.flatMap Piece.source ++ parts.flatMap Part.source)).blocks =
      (Part.block? (.plain gap)).toList ++ parts.filterMap Part.block? := by
  have hopener (ps : List Piece) : Avoids DirectiveKind.optional.opener (ps.flatMap Piece.source) :=
    Piece.avoids_source (by decide) (by decide) ps
  induction parts generalizing gap with
  | nil => simp [blocks_of_avoids (hopener gap), ofGap_source]
  | cons p parts ih =>
    -- A plain part is the gap before what follows, and an optional one ends the gap.
    cases p with
    | plain ps =>
      have hnil : gap = [] := by
        rcases hgap with h | h
        · exact h
        · exact absurd (h (.plain ps) rfl) (by simp [Part.isPlain])
      subst hnil
      have hnext : ∀ q ∈ parts.head?, q.isPlain = false := fun q hq =>
        (List.isChain_cons.mp hparts).1 q hq rfl
      have ih := ih ps (List.isChain_cons.mp hparts).2 (Or.inr hnext)
      rw [List.flatMap_nil, List.nil_append, List.flatMap_cons, Part.source, ih,
        List.filterMap_cons]
      cases Part.block? (.plain ps) <;> rfl
    | optional label ps =>
      have ih := ih [] (List.isChain_cons.mp hparts).2 (Or.inl rfl)
      rw [List.flatMap_nil, List.nil_append] at ih
      rw [List.flatMap_cons, ← List.append_assoc, blocks_append (hopener gap), ih, ofGap_source]
      simp [Part.block?]

theorem blocks_parse (t : Template) :
    (Document.parse t.source).blocks = t.parts.filterMap Part.block? := by
  have h := blocks_source [] t.isolated (Or.inl rfl)
  rw [List.flatMap_nil, List.nil_append] at h
  rw [source, h]
  rfl

/-- A printed tree is read as the blocks of its parts. -/
theorem parse_source (t : Template) :
    Document.parse t.source = ⟨t.parts.filterMap Part.block?⟩ := by
  rw [← blocks_parse]

end NoteTemplate.Template
