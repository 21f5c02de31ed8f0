import NoteTemplate.Proofs.Template.Extraction
import NoteTemplate.Rendering

/-!
# Templates put together

Text that is put behind a template cannot change the directives that are found in it. An opening
tag before the last of them is closed by that one at the latest, with a label that ends there, so
it finds nothing more in what is appended. Only the last gap is read again, together with what
follows.

* `Directive.find?_append_right`: the first directive of a text stays the first one.
* `Directive.split_append`: the directives of a text stay, and the search goes on with the last gap.
* `Document.parse_append_of_closed`: behind a directive that closes a template, the template that
  is appended is parsed and rendered on its own.
-/

namespace NoteTemplate

open Text

namespace Directive

variable {kind : DirectiveKind}

theorem written_append_ne_brace (hkind : '}' ∉ kind.opener) {d : Directive}
    (hd : d.WellFormed kind) (after rest : Text) : d.written kind ++ after ≠ '}' :: rest := by
  intro htag
  have hne : kind.opener ++ d.label ≠ [] := List.append_ne_nil_of_right_ne_nil _ hd.label_ne_nil
  obtain ⟨c, cs, hcs⟩ := List.exists_cons_of_ne_nil hne
  rw [written, hcs] at htag
  obtain rfl : c = '}' := List.head_eq_of_cons_eq htag
  exact List.not_mem_append hkind hd.brace_not_mem (hcs ▸ List.mem_cons_self)

/-- Whether a directive begins before another one does not depend on what is far behind. -/
theorem begins_of_begins_append (hkind : '}' ∉ kind.opener) {d : Directive}
    (hd : d.WellFormed kind) {t after b : Text}
    (h : Begins kind (t ++ d.written kind ++ (after ++ b))) :
    Begins kind (t ++ d.written kind ++ after) := by
  by_cases ht : '}' ∈ t
  · -- The opening tag ends before the directive, whose closing tag closes it.
    have hclosed : kind.closer <:+: d.written kind ++ after :=
      ⟨kind.opener ++ d.label ++ tagEnd ++ d.body, after, rfl⟩
    rw [List.append_assoc] at h ⊢
    exact begins_append_of_brace_mem hkind ht (written_append_ne_brace hkind hd _) hclosed h
  · -- The opening tag ends with that of the directive.
    obtain ⟨label, rest, heq, hne, hlabel, -⟩ := h
    have hbefore : '}' ∉ t ++ (kind.opener ++ d.label) :=
      List.not_mem_append ht (List.not_mem_append hkind hd.brace_not_mem)
    have hopened : '}' ∉ kind.opener ++ label := List.not_mem_append hkind hlabel
    have hstop : (t ++ (kind.opener ++ d.label)) ++ '}' :: '}' ::
        (d.body ++ kind.closer ++ (after ++ b)) = (kind.opener ++ label) ++ '}' :: '}' :: rest := by
      simpa [written, tagEnd] using heq
    obtain ⟨hlabels, -⟩ := eq_and_eq_of_stop hbefore hopened hstop
    refine ⟨label, d.body ++ kind.closer ++ after, ?_, hne, hlabel, d.body, after, rfl⟩
    rw [← hlabels]
    simp only [written, List.append_assoc]

theorem find?_append_right (hkind : '}' ∉ kind.opener) (hcloser : Unbordered kind.closer)
    {s : Text} {f : Found} (h : find? kind s = some f) (b : Text) :
    find? kind (s ++ b) = some { f with after := f.after ++ b } := by
  obtain ⟨hs, hd, hfirst⟩ := (find?_eq_some_iff hcloser).mp h
  refine (find?_eq_some_iff hcloser).mpr ⟨?_, hd, fun t ht hne hbegins => ?_⟩
  · dsimp only
    rw [← List.append_assoc, ← hs]
  · exact hfirst t ht hne (begins_of_begins_append hkind hd hbegins)

/-- The directives of a text are found also when another text is put behind it. The search goes on
with the last gap. -/
theorem split_append (hkind : '}' ∉ kind.opener) (hcloser : Unbordered kind.closer) (a b : Text) :
    split kind (a ++ b) =
      ⟨(split kind a).directives ++ (split kind ((split kind a).rest ++ b)).directives,
        (split kind ((split kind a).rest ++ b)).rest⟩ := by
  induction hn : a.length using Nat.strongRecOn generalizing a with
  | _ n ih =>
    subst hn
    cases hfind : find? kind a with
    | none => rw [split_of_find?_eq_none hfind, List.nil_append]
    | some f =>
      have hrest := ih _ (length_after_lt hfind) f.after rfl
      rw [split_of_find?_eq_some (find?_append_right hkind hcloser hfind b),
        split_of_find?_eq_some hfind, hrest, List.cons_append]

end Directive

namespace Document

/-- A template that is empty, or that ends with the last of its optional directives. -/
def Closed (source : Text) : Prop :=
  source = [] ∨ (Directive.split .optional source).directives ≠ [] ∧
    (Directive.split .optional source).rest = []

instance (source : Text) : Decidable (Closed source) := instDecidableOr

theorem Closed.rest_eq_nil {a : Text} (h : Closed a) :
    (Directive.split .optional a).rest = [] := by
  rcases h with rfl | ⟨-, hrest⟩
  · rw [Directive.split_of_find?_eq_none rfl]
  · exact hrest

theorem blocks_append_pieces (gs : List (Text × Directive)) (p : Directive.Pieces) :
    (ofPieces ⟨gs ++ p.directives, p.rest⟩).blocks =
      (ofPieces ⟨gs, []⟩).blocks ++ (ofPieces p).blocks := by
  have hgap : Block.ofGap [] = [] := rfl
  simp only [ofPieces, hgap, List.flatMap_append, List.append_assoc, List.nil_append]

/-- What is put behind a closed template changes nothing in how the template is parsed, and is
parsed on its own. So the note is the two notes one after the other. -/
theorem parse_append_of_closed {a : Text} (h : Closed a) (b : Text) :
    (parse (a ++ b)).blocks = (parse a).blocks ++ (parse b).blocks ∧
      ∀ v : Values, (parse (a ++ b)).assemble v = (parse a).assemble v ++ (parse b).assemble v := by
  have hsplit : Directive.split .optional (a ++ b) =
      ⟨(Directive.split .optional a).directives ++ (Directive.split .optional b).directives,
        (Directive.split .optional b).rest⟩ := by
    rw [Directive.split_append (by decide) unbordered_closer, h.rest_eq_nil, List.nil_append]
  have hblocks : (parse (a ++ b)).blocks = (parse a).blocks ++ (parse b).blocks := by
    have hparse : parse a = ofPieces ⟨(Directive.split .optional a).directives, []⟩ := by
      rw [← h.rest_eq_nil]
      rfl
    rw [hparse, parse, hsplit, blocks_append_pieces]
    rfl
  refine ⟨hblocks, fun v => ?_⟩
  rw [assemble, hblocks, List.flatMap_append]
  rfl

/-- An opening tag without a label, a stray closing tag, and a directive with another opening tag
in its label. -/
def closedText : Text :=
  ("\x7b\x7boptional:\x7d\x7d" ++ "x{{/optional}}" ++ "\x7b\x7boptional:a" ++
    "{{optional:b}}[N]{{/optional}}").toList

/-- A stray closing tag, a directive, and an opening tag that is not closed. -/
def appendedText : Text := "{{/optional}}y{{optional:c}}z{{/optional}}{{optional:d}}".toList

theorem parse_append_of_closed_closedText :
    Closed closedText ∧
      ((parse (closedText ++ appendedText)).blocks =
          (parse closedText).blocks ++ (parse appendedText).blocks ∧
        ∀ v : Values, (parse (closedText ++ appendedText)).assemble v =
          (parse closedText).assemble v ++ (parse appendedText).assemble v) ∧
      (parse closedText).blocks.map Block.label? =
        [none, some ("a" ++ "\x7b\x7boptional:b").toList] := by
  have hclosed : Closed closedText := by decide +kernel
  exact ⟨hclosed, parse_append_of_closed hclosed appendedText, by decide +kernel⟩

end Document

end NoteTemplate
