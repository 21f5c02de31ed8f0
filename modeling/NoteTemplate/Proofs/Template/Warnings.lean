import NoteTemplate.Proofs.Template.Rounds

/-!
# Tags that are left over

What is left of a tag when a template is parsed is literal text, and a warning is to say so. Tags
of repeat directives are looked for in every literal. An opening tag of an optional directive is
looked for only behind the last optional directive, and a closing one nowhere.

* `Log.Warned`: there is a warning among some records.
* `Document.warned_report_iff`: when there is a warning.
* `Document.warned_of_left`: the tags that are reported.
* `Document.left_unreported`: a tag that is not.
-/

namespace NoteTemplate

open Text

/-! ## Warnings -/

namespace Log

/-- There is a warning among the records. -/
def Warned (rs : List Record) : Prop := ∃ r ∈ rs, r.level = .warn

instance (rs : List Record) : Decidable (Warned rs) := List.decidableBEx _ rs

theorem not_warned_nil : ¬ Warned [] := by
  rintro ⟨r, hr, -⟩
  exact List.not_mem_nil hr

theorem warned_cons {r : Record} {rs : List Record} :
    Warned (r :: rs) ↔ r.level = .warn ∨ Warned rs := by
  simp only [Warned, List.exists_mem_cons_iff]

theorem warned_append {rs ss : List Record} : Warned (rs ++ ss) ↔ Warned rs ∨ Warned ss := by
  simp only [Warned, List.mem_append, or_and_right, exists_or]

theorem warned_flatMap {α : Type} {f : α → List Record} {xs : List α} :
    Warned (xs.flatMap f) ↔ ∃ x ∈ xs, Warned (f x) := by
  constructor
  · rintro ⟨r, hr, hlevel⟩
    obtain ⟨x, hx, hr⟩ := List.mem_flatMap.mp hr
    exact ⟨x, hx, r, hr, hlevel⟩
  · rintro ⟨x, hx, r, hr, hlevel⟩
    exact ⟨r, List.mem_flatMap.mpr ⟨x, hx, hr⟩, hlevel⟩

/-- A warning that is given on a condition. -/
theorem warned_if {p : Bool} {origin : Origin} {message : String} :
    Warned (if p then [warn origin message] else []) ↔ p = true := by
  cases p with
  | false => simp [not_warned_nil]
  | true => simp [warned_cons, warn]

end Log

open Log (Warned)

/-! ## Repeat directives -/

namespace Content

/-- A tag of a repeat directive is left in the literal. -/
def RepeatTagLeft (c : Content) : Prop :=
  DirectiveKind.repeated.opener <:+: c.literal ∨ DirectiveKind.repeated.closer <:+: c.literal

/-- A tag of a directive is left in the literal. -/
def TagLeft (c : Content) : Prop :=
  DirectiveKind.optional.opener <:+: c.literal ∨ DirectiveKind.optional.closer <:+: c.literal ∨
    c.RepeatTagLeft

instance (c : Content) : Decidable c.RepeatTagLeft := instDecidableOr

instance (c : Content) : Decidable c.TagLeft := instDecidableOr

theorem not_warned_sections (ss : List RepeatSection) : ¬ Warned (ss.map sectionRecord) := by
  rintro ⟨r, hr, hlevel⟩
  obtain ⟨s, -, rfl⟩ := List.mem_map.mp hr
  cases hlevel

theorem warned_report_iff (s : Text) : Warned (report s) ↔ (ofText s).RepeatTagLeft := by
  rw [report, Log.warned_append, Log.warned_append, Log.warned_if, Log.warned_if, contains_iff,
    contains_iff, iff_false_intro (not_warned_sections _), false_or]
  rfl

/-- What is left of an opening tag of an optional directive was there before. -/
theorem opener_infix_of_literal {s : Text}
    (h : DirectiveKind.optional.opener <:+: (ofText s).literal) :
    DirectiveKind.optional.opener <:+: s := by
  have hopener : BehindHead DirectiveKind.optional.opener DirectiveKind.repeated.opener :=
    ⟨by decide, by decide, by decide, by decide⟩
  have htoken : BehindHead DirectiveKind.optional.opener tokenOpener :=
    ⟨by decide, by decide, by decide, by decide⟩
  obtain ⟨ds, hrounds, -⟩ := exists_rounds s
  have hle := hrounds.occurrences_le hopener htoken
  exact infix_of_occurrences_pos (Nat.lt_of_lt_of_le (occurrences_pos h) hle)

end Content

/-! ## Documents -/

namespace Document

open Directive (Pieces)

theorem warned_gapReport_iff (gap : Text) :
    Warned (gapReport gap) ↔ ∃ b ∈ Block.ofGap gap, b.content.RepeatTagLeft := by
  rw [gapReport, Block.ofGap]
  split
  · simp [Log.not_warned_nil]
  · rw [Content.warned_report_iff]
    simp [Block.content]

theorem warned_directiveReport_iff (d : Directive) :
    Warned (directiveReport d) ↔ (Block.ofDirective d).content.RepeatTagLeft := by
  rw [directiveReport, Log.warned_cons, Content.warned_report_iff]
  simp [Log.debug, Block.ofDirective, Block.content]

theorem exists_block_iff {P : Block → Prop} (p : Pieces) :
    (∃ b ∈ (ofPieces p).blocks, P b) ↔
      (∃ g ∈ p.directives, (∃ b ∈ Block.ofGap g.1, P b) ∨ P (Block.ofDirective g.2)) ∨
        ∃ b ∈ Block.ofGap p.rest, P b := by
  obtain ⟨gs, rest⟩ := p
  induction gs with
  | nil => simp [ofPieces]
  | cons g gs ih =>
    dsimp only at ih ⊢
    rw [blocks_cons, List.exists_mem_cons_iff, or_assoc, ← ih]
    simp only [List.mem_append, List.mem_cons, or_and_right, exists_or, exists_eq_left, or_assoc]

/-- There is a warning if and only if a tag of a repeat directive is left in some literal, or an
opening tag stands behind the last optional directive. -/
theorem warned_report_iff (source : Text) :
    Warned (report source) ↔ (∃ b ∈ (parse source).blocks, b.content.RepeatTagLeft) ∨
      DirectiveKind.optional.opener <:+: (Directive.split .optional source).rest := by
  have hlast (m : String) : ¬ Warned [Log.debug .blocks m] := by
    simp [Log.warned_cons, Log.not_warned_nil, Log.debug]
  rw [report, Log.warned_append, Log.warned_append, Log.warned_append, Log.warned_flatMap,
    Log.warned_if, contains_iff, warned_gapReport_iff, iff_false_intro (hlast _), or_false]
  simp only [Log.warned_append, warned_gapReport_iff, warned_directiveReport_iff]
  rw [or_right_comm, ← exists_block_iff]
  rfl

/-- The last block, if it is plain, is the text behind the last optional directive. -/
theorem eq_ofText_of_getLast? {p : Pieces} {c : Content}
    (h : (ofPieces p).blocks.getLast? = some (.plain c)) : c = Content.ofText p.rest := by
  obtain ⟨gs, rest⟩ := p
  rw [ofPieces, Block.ofGap] at h
  split at h
  · -- Behind the last directive there is nothing, so the last block is optional.
    rcases List.eq_nil_or_concat' gs with rfl | ⟨gs, g, rfl⟩
    · cases h
    · simp [Block.ofDirective] at h
  · simpa using h.symm

/-- The tags that are reported: those of repeat directives, wherever they are left, and an opening
tag of an optional directive in the text behind the last of these. -/
theorem warned_of_left (source : Text) :
    (Warned (report source) ↔ (∃ b ∈ (parse source).blocks, b.content.RepeatTagLeft) ∨
      DirectiveKind.optional.opener <:+: (Directive.split .optional source).rest) ∧
    ∀ c, (parse source).blocks.getLast? = some (.plain c) →
      DirectiveKind.optional.opener <:+: c.literal → Warned (report source) := by
  refine ⟨warned_report_iff source, fun c hlast hopener => ?_⟩
  rw [eq_ofText_of_getLast? hlast] at hopener
  exact (warned_report_iff source).mpr (Or.inr (Content.opener_infix_of_literal hopener))

/-- A stray closing tag, an optional directive, a repeat directive with an opening tag in its body,
and another opening tag. -/
def leftoverText : Text :=
  ("{{/optional}}{{optional:a}}x{{/optional}}" ++ "{{repeat:r}}{{optional:b}}{{/repeat}}" ++
    "{{optional:c}}").toList

theorem warned_of_left_leftoverText :
    (parse leftoverText).blocks.getLast? = some (.plain ⟨[],
      [⟨['r'], "{{optional:b}}".toList, []⟩], "{{section:r}}{{optional:c}}".toList⟩) ∧
    DirectiveKind.optional.opener <:+: "{{section:r}}{{optional:c}}".toList ∧
    Warned (report leftoverText) := by
  have hlast : (parse leftoverText).blocks.getLast? = some (.plain ⟨[],
      [⟨['r'], "{{optional:b}}".toList, []⟩], "{{section:r}}{{optional:c}}".toList⟩) := by
    decide +kernel
  have hopener : DirectiveKind.optional.opener <:+: "{{section:r}}{{optional:c}}".toList := by
    decide
  exact ⟨hlast, hopener, (warned_of_left leftoverText).2 _ hlast hopener⟩

/-- A closing tag of an optional directive that is left over is not reported. -/
theorem left_unreported :
    (∃ b ∈ (parse "a{{/optional}}".toList).blocks, b.content.TagLeft) ∧
      ¬ Warned (report "a{{/optional}}".toList) := by
  decide +kernel

/-- Nor is an opening tag without a label before an optional directive. -/
example :
    let s := ("\x7b\x7boptional:\x7d\x7d" ++ "x{{optional:a}}y{{/optional}}").toList
    (∃ b ∈ (parse s).blocks, b.content.TagLeft) ∧ ¬ Warned (report s) := by
  decide +kernel

/-- Nor is an opening tag inside an optional directive. -/
example :
    let s := "{{optional:a}}x{{optional:b}}y{{/optional}}".toList
    (∃ b ∈ (parse s).blocks, b.content.TagLeft) ∧ ¬ Warned (report s) := by
  decide +kernel

end Document

end NoteTemplate
