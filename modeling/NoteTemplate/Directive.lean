import NoteTemplate.Text.Basic

/-!
# Directives

A directive is a label and a body between two tags, `{{repeat:label}}body{{/repeat}}` for
instance. A label is one or more characters other than `}`. The leftmost opening tag
that has a closing tag after it is paired with the nearest one, so directives never nest.

* `Directive.find?`: the first directive of a text.
* `Directive.split`: all directives of a text and the gaps around them.
* `eq_of_find?`: the parts that `find?` returns make up the text.
-/

namespace NoteTemplate

/-- A kind of directive, given by how its opening tag begins and by its closing tag. -/
structure DirectiveKind where
  opener : Text
  closer : Text

namespace DirectiveKind

/-- Its body is repeated once per item. -/
def repeated : DirectiveKind :=
  ⟨['{', '{', 'r', 'e', 'p', 'e', 'a', 't', ':'],
    ['{', '{', '/', 'r', 'e', 'p', 'e', 'a', 't', '}', '}']⟩

/-- Its body can be left out. -/
def optional : DirectiveKind :=
  ⟨['{', '{', 'o', 'p', 't', 'i', 'o', 'n', 'a', 'l', ':'],
    ['{', '{', '/', 'o', 'p', 't', 'i', 'o', 'n', 'a', 'l', '}', '}']⟩

end DirectiveKind

/-- A label and the text it governs. -/
structure Directive where
  label : Text
  body : Text
deriving DecidableEq, Repr

namespace Directive

/-- What ends an opening tag. -/
def tagEnd : Text := ['}', '}']

/-- The directive as it stands in a text. -/
def written (kind : DirectiveKind) (d : Directive) : Text :=
  kind.opener ++ d.label ++ tagEnd ++ d.body ++ kind.closer

/-- A directive with the text on both sides of it. -/
structure Found where
  before : Text
  directive : Directive
  after : Text
deriving DecidableEq, Repr

/-! ## Search -/

/-- The directive that begins with the first character of the text, and what follows it. -/
def read? (kind : DirectiveKind) (s : Text) : Option (Directive × Text) :=
  match kind.opener.isPrefixOf? s with
  | none => none
  | some rest =>
    let label := rest.takeWhile (· ≠ '}')
    if label = [] then none
    else
      match tagEnd.isPrefixOf? (rest.dropWhile (· ≠ '}')) with
      | none => none
      | some inner =>
        match Text.cut? kind.closer inner with
        | none => none
        | some (body, after) => some (⟨label, body⟩, after)

/-- The leftmost directive. -/
def find? (kind : DirectiveKind) : Text → Option Found
  | [] => none
  | c :: cs =>
    match read? kind (c :: cs) with
    | some (d, after) => some ⟨[], d, after⟩
    | none => (find? kind cs).map fun f => { f with before := c :: f.before }

theorem eq_of_cut? {needle s before after : Text} (h : Text.cut? needle s = some (before, after)) :
    s = before ++ needle ++ after := by
  induction s generalizing before with
  | nil =>
    simp only [Text.cut?] at h
    split at h
    · simp_all
    · simp at h
  | cons c cs ih =>
    simp only [Text.cut?] at h
    split at h
    · rename_i rest hrest
      simp only [Option.some.injEq, Prod.mk.injEq] at h
      obtain ⟨rfl, rfl⟩ := h
      exact Text.eq_append_of_isPrefixOf? hrest
    · simp only [Option.map_eq_some_iff, Prod.mk.injEq, Prod.exists] at h
      obtain ⟨a, b, hab, rfl, rfl⟩ := h
      simp [ih hab]

theorem eq_of_read? {kind : DirectiveKind} {s after : Text} {d : Directive}
    (h : read? kind s = some (d, after)) : s = d.written kind ++ after := by
  simp only [read?] at h
  split at h
  · simp at h
  rename_i rest hrest
  split at h
  · simp at h
  split at h
  · simp at h
  rename_i inner hinner
  split at h
  · simp at h
  rename_i body tail hcut
  simp only [Option.some.injEq, Prod.mk.injEq] at h
  obtain ⟨rfl, rfl⟩ := h
  have hlabel := List.takeWhile_append_dropWhile (p := fun c => decide (c ≠ '}')) (l := rest)
  rw [Text.eq_append_of_isPrefixOf? hinner, eq_of_cut? hcut] at hlabel
  rw [Text.eq_append_of_isPrefixOf? hrest]
  conv => lhs; rw [← hlabel]
  simp [written]

theorem eq_of_find? {kind : DirectiveKind} {s : Text} {f : Found} (h : find? kind s = some f) :
    s = f.before ++ f.directive.written kind ++ f.after := by
  induction s generalizing f with
  | nil => simp [find?] at h
  | cons c cs ih =>
    simp only [find?] at h
    split at h
    · rename_i d after hread
      simp only [Option.some.injEq] at h
      subst h
      simpa using eq_of_read? hread
    · simp only [Option.map_eq_some_iff] at h
      obtain ⟨g, hg, rfl⟩ := h
      conv => lhs; rw [ih hg]
      simp

theorem length_written (kind : DirectiveKind) (d : Directive) :
    (d.written kind).length =
      kind.opener.length + d.label.length + 2 + d.body.length + kind.closer.length := by
  simp [written, tagEnd]
  omega

theorem length_after_lt {kind : DirectiveKind} {s : Text} {f : Found}
    (h : find? kind s = some f) : f.after.length < s.length := by
  conv => rhs; rw [eq_of_find? h]
  simp only [List.length_append, length_written]
  omega

/-! ## Splitting -/

/-- The directives of a text, each with the gap before it, and the gap after the last one. -/
structure Pieces where
  directives : List (Text × Directive)
  rest : Text
deriving DecidableEq, Repr

/-- The directives found from left to right, none of which overlaps the one before. -/
def split (kind : DirectiveKind) (s : Text) : Pieces :=
  match _h : find? kind s with
  | none => ⟨[], s⟩
  | some f =>
    let tail := split kind f.after
    ⟨(f.before, f.directive) :: tail.directives, tail.rest⟩
termination_by s.length
decreasing_by exact length_after_lt _h

/-- The text that the pieces make up. -/
def Pieces.written (kind : DirectiveKind) (p : Pieces) : Text :=
  p.directives.flatMap (fun g => g.1 ++ g.2.written kind) ++ p.rest

theorem split_of_find?_eq_none {kind : DirectiveKind} {s : Text} (h : find? kind s = none) :
    split kind s = ⟨[], s⟩ := by
  rw [split]
  split
  · rfl
  · rename_i heq
    rw [h] at heq
    cases heq

theorem split_of_find?_eq_some {kind : DirectiveKind} {s : Text} {f : Found}
    (h : find? kind s = some f) :
    split kind s =
      ⟨(f.before, f.directive) :: (split kind f.after).directives, (split kind f.after).rest⟩ := by
  rw [split]
  split
  · rename_i heq
    rw [h] at heq
    cases heq
  · rename_i g heq
    rw [h] at heq
    cases heq
    rfl

end Directive

end NoteTemplate
