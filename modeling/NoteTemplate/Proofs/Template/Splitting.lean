import Mathlib.Data.List.Chain
import Mathlib.Data.List.TakeWhile
import NoteTemplate.Document
import NoteTemplate.Proofs.Template.Search

/-!
# The pieces of a source

Any text, well-formed or not, is cut into directives and the gaps around them in one way only:
the bodies hold no closing tag, and no complete directive begins inside a gap. The search from
left to right finds these pieces, and the blocks of a document are theirs.

* `Directive.Begins`: a complete directive begins a text.
* `Directive.find?_eq_some_iff`: what the search finds.
* `Directive.Pieces.cuts_iff`: pieces cut a text as required if and only if they are those that
  `Directive.split` returns.
* `Document.blocks_of_cut`: the blocks of a source.
-/

namespace NoteTemplate

namespace Directive

open Text

variable {kind : DirectiveKind}

/-! ## Complete directives -/

/-- A complete directive begins the text: an opening tag with a label, and a closing tag
somewhere behind it. -/
def Begins (kind : DirectiveKind) (s : Text) : Prop :=
  ∃ label rest, s = kind.opener ++ label ++ tagEnd ++ rest ∧ label ≠ [] ∧ '}' ∉ label ∧
    kind.closer <:+: rest

/-- A directive that is read back as it is written: it has a label, and its body ends at the
first closing tag. -/
structure WellFormed (kind : DirectiveKind) (d : Directive) : Prop where
  label_ne_nil : d.label ≠ []
  brace_not_mem : '}' ∉ d.label
  closer_not_infix : ¬ kind.closer <:+: d.body

theorem not_begins_nil : ¬ Begins kind [] := by
  rintro ⟨label, rest, h, -, -, -⟩
  simp [tagEnd] at h

theorem begins_written {d : Directive} (h : d.WellFormed kind) (after : Text) :
    Begins kind (d.written kind ++ after) := by
  refine ⟨d.label, d.body ++ kind.closer ++ after, ?_, h.label_ne_nil, h.brace_not_mem, ?_⟩
  · simp [written]
  · exact ⟨d.body, after, rfl⟩

theorem opened_of_read? {s after : Text} {d : Directive} (h : read? kind s = some (d, after)) :
    ∃ inner, s = kind.opener ++ d.label ++ tagEnd ++ inner ∧ d.label ≠ [] ∧ '}' ∉ d.label ∧
      cut? kind.closer inner = some (d.body, after) := by
  rw [read?] at h
  split at h
  · cases h
  rename_i rest hrest
  dsimp only at h
  split at h
  · cases h
  rename_i hne
  split at h
  · cases h
  rename_i inner hinner
  split at h
  · cases h
  rename_i body tail hcut
  cases h
  have hlabel := List.takeWhile_append_dropWhile (p := fun c => decide (c ≠ '}')) (l := rest)
  refine ⟨inner, ?_, hne, ?_, hcut⟩
  · rw [eq_append_of_isPrefixOf? hinner] at hlabel
    rw [eq_append_of_isPrefixOf? hrest]
    conv => lhs; rw [← hlabel]
    simp
  · intro hmem
    have himp := List.mem_takeWhile_imp hmem
    simp at himp

theorem read?_eq_some_iff (hcloser : Unbordered kind.closer) {s after : Text} {d : Directive} :
    read? kind s = some (d, after) ↔ s = d.written kind ++ after ∧ d.WellFormed kind := by
  constructor
  · intro h
    obtain ⟨inner, -, hne, hlabel, hcut⟩ := opened_of_read? h
    exact ⟨eq_of_read? h, hne, hlabel, ((cut?_eq_some_iff_of_unbordered hcloser).mp hcut).2⟩
  · rintro ⟨rfl, hd⟩
    have hcut : cut? kind.closer (d.body ++ kind.closer ++ after) = some (d.body, after) :=
      (cut?_eq_some_iff_of_unbordered hcloser).mpr ⟨rfl, hd.closer_not_infix⟩
    have hread := @read?_opened kind d.label hd.label_ne_nil hd.brace_not_mem
      (d.body ++ kind.closer ++ after)
    rw [hcut] at hread
    simpa [written] using hread

theorem read?_eq_none_iff {s : Text} : read? kind s = none ↔ ¬ Begins kind s := by
  constructor
  · rintro hnone ⟨label, rest, rfl, hne, hlabel, hclosed⟩
    rw [read?_opened hne hlabel, Option.map_eq_none_iff, cut?_eq_none_iff] at hnone
    exact hnone hclosed
  · intro hnot
    rw [Option.eq_none_iff_forall_ne_some]
    rintro ⟨d, after⟩ hread
    obtain ⟨inner, hs, hne, hlabel, hcut⟩ := opened_of_read? hread
    have hclosed : kind.closer <:+: inner := ⟨d.body, after, (cut?_eq_some_iff.mp hcut).1.symm⟩
    exact hnot ⟨d.label, inner, hs, hne, hlabel, hclosed⟩

/-! ## The first directive -/

theorem find?_eq_none_iff {s : Text} :
    find? kind s = none ↔ ∀ t, t <:+ s → ¬ Begins kind t := by
  induction s with
  | nil =>
    refine iff_of_true rfl fun t ht => ?_
    rw [List.suffix_nil.mp ht]
    exact not_begins_nil
  | cons c cs ih =>
    have hsuffix : (∀ t, t <:+ c :: cs → ¬ Begins kind t) ↔
        ¬ Begins kind (c :: cs) ∧ ∀ t, t <:+ cs → ¬ Begins kind t := by
      simp only [List.suffix_cons_iff, or_imp, forall_and, forall_eq]
    rw [hsuffix, ← ih, ← read?_eq_none_iff, find?]
    cases read? kind (c :: cs) with
    | none => simp
    | some p => simp

/-- The directive that is found is well-formed, and no complete directive begins before it. -/
theorem find?_eq_some_iff (hcloser : Unbordered kind.closer) {s : Text} {f : Found} :
    find? kind s = some f ↔
      s = f.before ++ f.directive.written kind ++ f.after ∧ f.directive.WellFormed kind ∧
        ∀ t, t <:+ f.before → t ≠ [] → ¬ Begins kind (t ++ f.directive.written kind ++ f.after) := by
  obtain ⟨before, d, after⟩ := f
  dsimp only
  induction s generalizing before with
  | nil =>
    refine iff_of_false (by simp [find?]) ?_
    rintro ⟨h, -, -⟩
    have hlength := congrArg List.length h
    rw [List.length_append, List.length_append, length_written, List.length_nil] at hlength
    omega
  | cons c cs ih =>
    rw [find?]
    cases hread : read? kind (c :: cs) with
    | some p =>
      obtain ⟨d', after'⟩ := p
      obtain ⟨hcons, hd'⟩ := (read?_eq_some_iff hcloser).mp hread
      constructor
      · intro h
        cases h
        exact ⟨hcons, hd', fun t ht hne => absurd (List.suffix_nil.mp ht) hne⟩
      · rintro ⟨h, hd, hfirst⟩
        -- A complete directive begins here, so the gap before the first one is empty.
        have hnil : before = [] := by
          by_contra hne
          refine hfirst before List.suffix_rfl hne ?_
          rw [← h, hcons]
          exact begins_written hd' after'
        subst hnil
        have hread' := (read?_eq_some_iff hcloser).mpr ⟨h, hd⟩
        rw [hread] at hread'
        cases hread'
        rfl
    | none =>
      have hnot := read?_eq_none_iff.mp hread
      rw [Option.map_eq_some_iff]
      constructor
      · rintro ⟨⟨before', d', after'⟩, hfind, heq⟩
        cases heq
        obtain ⟨rfl, hd, hfirst⟩ := (ih before').mp hfind
        refine ⟨rfl, hd, fun t ht hne => ?_⟩
        rcases List.suffix_cons_iff.mp ht with rfl | ht
        · exact hnot
        · exact hfirst t ht hne
      · rintro ⟨h, hd, hfirst⟩
        cases before with
        | nil =>
          rw [h, List.nil_append] at hnot
          exact absurd (begins_written hd after) hnot
        | cons b before =>
          obtain ⟨rfl, hcs⟩ := List.cons_eq_cons.mp h
          refine ⟨⟨before, d, after⟩, (ih before).mpr ⟨hcs, hd, fun t ht => ?_⟩, rfl⟩
          exact hfirst t (ht.trans (List.suffix_cons _ _))

/-! ## All directives -/

/-- A piece of a text. -/
inductive Span
  | gap (s : Text)
  | directive (d : Directive)

def Span.written (kind : DirectiveKind) : Span → Text
  | gap s => s
  | directive d => d.written kind

namespace Pieces

/-- Gaps and directives in turn, from the first gap to the last one. -/
def spans (p : Pieces) : List Span :=
  p.directives.flatMap (fun g => [.gap g.1, .directive g.2]) ++ [.gap p.rest]

/-- The pieces make up the text, every directive among them ends at the first closing tag behind
its opening tag, and no complete directive begins inside a gap. -/
structure Cuts (kind : DirectiveKind) (p : Pieces) (s : Text) : Prop where
  written : p.spans.flatMap (Span.written kind) = s
  wellFormed : ∀ d, Span.directive d ∈ p.spans → d.WellFormed kind
  gap : ∀ before gap after, p.spans = before ++ .gap gap :: after →
    ∀ t, t <:+ gap → t ≠ [] → ¬ Begins kind (t ++ after.flatMap (Span.written kind))

theorem spans_cons (g : Text × Directive) (gs : List (Text × Directive)) (rest : Text) :
    spans ⟨g :: gs, rest⟩ = .gap g.1 :: .directive g.2 :: spans ⟨gs, rest⟩ := rfl

theorem cuts_nil_iff {rest s : Text} :
    Cuts kind ⟨[], rest⟩ s ↔ rest = s ∧ ∀ t, t <:+ s → ¬ Begins kind t := by
  have hspans : spans ⟨[], rest⟩ = [.gap rest] := rfl
  constructor
  · intro h
    obtain rfl : rest = s := by simpa [hspans, Span.written] using h.written
    refine ⟨rfl, fun t ht hbegins => ?_⟩
    have hne : t ≠ [] := by
      rintro rfl
      exact not_begins_nil hbegins
    exact h.gap [] rest [] rfl t ht hne (by simpa using hbegins)
  · rintro ⟨rfl, hnone⟩
    refine ⟨by simp [hspans, Span.written], fun d hd => by simp [hspans] at hd, ?_⟩
    intro before gap after heq t ht hne hbegins
    obtain ⟨rfl, hgap⟩ | ⟨before', rfl, hnil⟩ := List.cons_eq_append_iff.mp heq
    · cases hgap
      exact hnone t ht (by simpa using hbegins)
    · simp at hnil

theorem cuts_cons_iff {g : Text × Directive} {gs : List (Text × Directive)} {rest s : Text} :
    Cuts kind ⟨g :: gs, rest⟩ s ↔ ∃ after, s = g.1 ++ g.2.written kind ++ after ∧
      g.2.WellFormed kind ∧
      (∀ t, t <:+ g.1 → t ≠ [] → ¬ Begins kind (t ++ g.2.written kind ++ after)) ∧
      Cuts kind ⟨gs, rest⟩ after := by
  have hwritten (tail : List Span) :
      (Span.gap g.1 :: .directive g.2 :: tail).flatMap (Span.written kind) =
        g.1 ++ g.2.written kind ++ tail.flatMap (Span.written kind) := by
    simp [Span.written]
  constructor
  · rintro ⟨hs, hwell, hgap⟩
    rw [spans_cons] at hs hwell hgap
    refine ⟨_, by rw [← hs, hwritten], hwell g.2 (by simp), fun t ht hne => ?_, rfl, ?_, ?_⟩
    · rw [List.append_assoc]
      exact hgap [] g.1 _ rfl t ht hne
    · exact fun d hd => hwell d (List.mem_cons_of_mem _ (List.mem_cons_of_mem _ hd))
    · intro before gap after heq
      exact hgap (.gap g.1 :: .directive g.2 :: before) gap after (by rw [heq]; rfl)
  · rintro ⟨after, rfl, hd, hfirst, ⟨hs, hwell, hgap⟩⟩
    refine ⟨by rw [spans_cons, hwritten, hs], fun d hmem => ?_, ?_⟩
    · rw [spans_cons] at hmem
      rcases List.mem_cons.mp hmem with heq | hmem
      · cases heq
      · rcases List.mem_cons.mp hmem with heq | hmem
        · cases heq
          exact hd
        · exact hwell d hmem
    · -- The gap is the first one, or one of those behind the first directive.
      intro before gap tail heq t ht hne
      rw [spans_cons] at heq
      obtain ⟨rfl, hhead⟩ | ⟨before, rfl, htail⟩ := List.cons_eq_append_iff.mp heq
      · cases hhead
        have hnot := hfirst t ht hne
        rw [List.append_assoc, ← hs] at hnot
        exact hnot
      · obtain ⟨rfl, hhead⟩ | ⟨before, rfl, hspans⟩ := List.cons_eq_append_iff.mp htail
        · cases hhead
        · exact hgap before gap tail hspans t ht hne

/-- A text is cut into the pieces that the search from left to right finds, and into no others. -/
theorem cuts_iff (hcloser : Unbordered kind.closer) {p : Pieces} {s : Text} :
    p.Cuts kind s ↔ split kind s = p := by
  obtain ⟨gs, rest⟩ := p
  induction gs generalizing s with
  | nil =>
    rw [cuts_nil_iff, ← find?_eq_none_iff]
    cases hfind : find? kind s with
    | none => simp [split_of_find?_eq_none hfind, eq_comm]
    | some f => simp [split_of_find?_eq_some hfind]
  | cons g gs ih =>
    rw [cuts_cons_iff]
    cases hfind : find? kind s with
    | none =>
      rw [split_of_find?_eq_none hfind]
      refine iff_of_false ?_ (by simp)
      rintro ⟨after, hs, hd, hfirst, -⟩
      have hfound := (find?_eq_some_iff hcloser (f := ⟨g.1, g.2, after⟩)).mpr ⟨hs, hd, hfirst⟩
      rw [hfind] at hfound
      cases hfound
    | some f =>
      rw [split_of_find?_eq_some hfind]
      constructor
      · rintro ⟨after, hs, hd, hfirst, hcuts⟩
        have hfound := (find?_eq_some_iff hcloser (f := ⟨g.1, g.2, after⟩)).mpr ⟨hs, hd, hfirst⟩
        obtain rfl : f = ⟨g.1, g.2, after⟩ := Option.some.inj (hfind.symm.trans hfound)
        rw [ih.mp hcuts]
      · intro heq
        obtain ⟨hs, hd, hfirst⟩ := (find?_eq_some_iff hcloser).mp hfind
        cases heq
        exact ⟨f.after, hs, hd, hfirst, ih.mpr rfl⟩

end Pieces

end Directive

/-! ## Blocks -/

open Directive (Begins Span)

/-- The block of a piece. A blank gap has none. -/
def Block.ofSpan? : Span → Option Block
  | .gap s => if Text.isBlank s then none else some (.plain (Content.ofText s))
  | .directive d => some (.optional d.label (Content.ofText d.body))

namespace Document

theorem unbordered_closer : Text.Unbordered DirectiveKind.optional.closer := by decide

theorem ofGap_eq (s : Text) : Block.ofGap s = (Block.ofSpan? (.gap s)).toList := by
  rw [Block.ofGap, Block.ofSpan?]
  split <;> rfl

theorem blocks_cons (g : Text × Directive) (gs : List (Text × Directive)) (rest : Text) :
    (ofPieces ⟨g :: gs, rest⟩).blocks =
      Block.ofGap g.1 ++ Block.ofDirective g.2 :: (ofPieces ⟨gs, rest⟩).blocks := by
  simp [ofPieces]

theorem blocks_ofPieces (p : Directive.Pieces) :
    (ofPieces p).blocks = p.spans.filterMap Block.ofSpan? := by
  obtain ⟨gs, rest⟩ := p
  induction gs with
  | nil =>
    have hspans : Directive.Pieces.spans ⟨[], rest⟩ = [.gap rest] := rfl
    rw [hspans, ofPieces, List.flatMap_nil, List.nil_append, ofGap_eq, List.filterMap_cons]
    cases Block.ofSpan? (.gap rest) <;> rfl
  | cons g gs ih =>
    rw [blocks_cons, ih, ofGap_eq, Directive.Pieces.spans_cons, List.filterMap_cons]
    cases Block.ofSpan? (.gap g.1) <;> rfl

/-- A directive stands between two gaps, so of two neighbours one is optional. -/
theorem isChain_ofPieces (p : Directive.Pieces) :
    (ofPieces p).blocks.IsChain fun b c => b.label?.isSome ∨ c.label?.isSome := by
  obtain ⟨gs, rest⟩ := p
  induction gs with
  | nil =>
    rw [blocks_ofPieces]
    show (List.filterMap Block.ofSpan? [.gap rest]).IsChain _
    rw [List.filterMap_cons]
    cases Block.ofSpan? (.gap rest) <;> simp
  | cons g gs ih =>
    have hdirective : (Block.ofDirective g.2 :: (ofPieces ⟨gs, rest⟩).blocks).IsChain
        fun b c => b.label?.isSome ∨ c.label?.isSome :=
      List.isChain_cons.mpr ⟨fun _ _ => Or.inl rfl, ih⟩
    rw [blocks_cons, Block.ofGap]
    split
    · exact hdirective
    · exact List.isChain_cons.mpr ⟨fun b hb => Or.inr (by cases hb; rfl), hdirective⟩

/-- Every source is cut into gaps and optional directives in exactly one way. Its document has a
block for each of these pieces, in their order, except for blank gaps. -/
theorem blocks_of_cut (source : Text) :
    ∃ p : Directive.Pieces, p.Cuts .optional source ∧
      (∀ q : Directive.Pieces, q.Cuts .optional source → q = p) ∧
      (parse source).blocks = p.spans.filterMap Block.ofSpan? ∧
      (∀ s ∈ p.spans, Block.ofSpan? s = none → ∃ gap, s = .gap gap ∧ Text.isBlank gap = true) ∧
      ((parse source).blocks.IsChain fun b c => b.label?.isSome ∨ c.label?.isSome) ∧
      ((∀ t, t <:+ source → ¬ Begins .optional t) →
        (parse source).blocks =
          if Text.isBlank source then [] else [.plain (Content.ofText source)]) := by
  refine ⟨Directive.split .optional source, ?_, ?_, blocks_ofPieces _, ?_, isChain_ofPieces _, ?_⟩
  · exact (Directive.Pieces.cuts_iff unbordered_closer).mpr rfl
  · exact fun q hq => ((Directive.Pieces.cuts_iff unbordered_closer).mp hq).symm
  · intro s _ hs
    cases s with
    | gap gap =>
      rw [Block.ofSpan?, ite_eq_left_iff] at hs
      refine ⟨gap, rfl, ?_⟩
      by_contra hblank
      cases hs hblank
    | directive d => cases hs
  · intro hnone
    have hsplit := Directive.split_of_find?_eq_none (Directive.find?_eq_none_iff.mpr hnone)
    rw [parse, hsplit]
    rfl

end Document

end NoteTemplate
