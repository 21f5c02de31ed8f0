import NoteTemplate.Directive
import NoteTemplate.Log
import NoteTemplate.Placeholder

/-!
# Contents

A content is what a stretch of template text means: its variables, its repeat sections, and
a literal in which every section is held by a token, `{{section:label}}`.

* `Content.extract` takes out the first repeat directive, leaves a token in its place, and
  begins again with the text that results until no directive is left.
* `Content.ofText`: the variables are those of the literal, so a variable that occurs inside
  a section only is not one of them.
-/

namespace NoteTemplate

/-- Text that is repeated once per item. -/
structure RepeatSection where
  label : Text
  /-- the text of one item, with placeholders -/
  content : Text
  /-- the distinct variables of an item -/
  names : List Text
deriving DecidableEq, Repr

namespace RepeatSection

/-- The section that a directive describes. -/
def ofDirective (d : Directive) : RepeatSection := ⟨d.label, d.body, Placeholder.names d.body⟩

/-- What holds the place of a section with this label. -/
def tokenOf (label : Text) : Text :=
  ['{', '{', 's', 'e', 'c', 't', 'i', 'o', 'n', ':'] ++ label ++ ['}', '}']

/-- A token has the characters that every token has, and those of its label. -/
theorem not_mem_tokenOf {c : Char} {label : Text} (hevery : c ∉ tokenOf []) (h : c ∉ label) :
    c ∉ tokenOf label := by
  simp only [tokenOf, List.mem_append, not_or] at hevery ⊢
  exact ⟨⟨hevery.1.1, h⟩, hevery.2⟩

/-- What holds the place of the section in a literal. -/
def token (s : RepeatSection) : Text := tokenOf s.label

/-- The variable whose presence decides whether there is an item. -/
def first? (s : RepeatSection) : Option Text := s.names.head?

end RepeatSection

/-- The parsed form of a stretch of template text. -/
structure Content where
  /-- the distinct variables outside the sections -/
  names : List Text
  sections : List RepeatSection
  /-- the text with a token for each section -/
  literal : Text
deriving DecidableEq, Repr

namespace Content

/-! ## Extraction -/

/-- Sections in the order in which they were taken out, and the text they left. -/
structure Extracted where
  sections : List RepeatSection
  literal : Text
deriving DecidableEq, Repr

/-- The text with a token in place of the directive found. -/
def withToken (f : Directive.Found) : Text :=
  f.before ++ RepeatSection.tokenOf f.directive.label ++ f.after

/-- The two tags of a directive are ten characters longer than its token. -/
theorem length_withToken {s : Text} {f : Directive.Found}
    (h : Directive.find? .repeated s = some f) :
    (withToken f).length + f.directive.body.length + 10 = s.length := by
  conv => rhs; rw [Directive.eq_of_find? h]
  simp only [withToken, RepeatSection.tokenOf, List.length_append, Directive.length_written,
    DirectiveKind.repeated, List.length_cons, List.length_nil]
  omega

/-- Takes out the repeat directives one after the other, each time the leftmost. -/
def extract (s : Text) : Extracted :=
  match _h : Directive.find? .repeated s with
  | none => ⟨[], s⟩
  | some f =>
    let tail := extract (withToken f)
    ⟨RepeatSection.ofDirective f.directive :: tail.sections, tail.literal⟩
termination_by s.length
decreasing_by
  have := length_withToken _h
  omega

theorem extract_of_find?_eq_none {s : Text} (h : Directive.find? .repeated s = none) :
    extract s = ⟨[], s⟩ := by
  rw [extract]
  split
  · rfl
  · rename_i heq
    rw [h] at heq
    cases heq

theorem extract_of_find?_eq_some {s : Text} {f : Directive.Found}
    (h : Directive.find? .repeated s = some f) :
    extract s = ⟨RepeatSection.ofDirective f.directive :: (extract (withToken f)).sections,
      (extract (withToken f)).literal⟩ := by
  rw [extract]
  split
  · rename_i heq
    rw [h] at heq
    cases heq
  · rename_i g heq
    rw [h] at heq
    cases heq
    rfl

/-- Parses a stretch of template text. -/
def ofText (s : Text) : Content :=
  let e := extract s
  ⟨Placeholder.names e.literal, e.sections, e.literal⟩

/-! ## Report -/

/-- A section, once it is taken out, is reported with the number of its variables. -/
def sectionRecord (s : RepeatSection) : Log.Record :=
  Log.debug .sections ("Extracted repeat section '" ++ String.ofList s.label ++ "' with " ++
    toString s.names.length ++ " variable(s).")

/-- The sections taken out, then a warning for each kind of tag that is left over. -/
def report (s : Text) : List Log.Record :=
  let e := extract s
  let kind := DirectiveKind.repeated
  e.sections.map sectionRecord ++
    (if Text.contains e.literal kind.opener then
      [Log.warn .sections "Unterminated repeat directive left as literal text."] else []) ++
    (if Text.contains e.literal kind.closer then
      [Log.warn .sections ("Unpaired '" ++ String.ofList kind.closer ++ "' left as literal text.")]
    else [])

end Content

end NoteTemplate
