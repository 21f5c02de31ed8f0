import Mathlib.Algebra.Ring.Nat
import NoteTemplate.Proofs.Template.Extraction
import NoteTemplate.Proofs.Text.Counting

/-!
# The rounds of the extraction

Each round of the extraction puts a token in the place of the first directive of the whole text. A
label goes over into its token, and with it the beginnings of tags, or a whole closing tag, that
stand in the label. A round takes away one closing tag all the same, and a fixed number of
characters beside the body, whatever the text is.

* `Content.Rounds`: a run of the loop, with the directives that it takes out.
* `Content.occurrences_tag`: what is counted in a text with a tag, be it a token or an opening tag.
* `Content.occurrences_closer_withToken`: a round takes away one closing tag.
* `Content.Rounds.occurrences_le`: what a run cannot bring in.
* `Content.extract_invariants`: what a run takes out and what it leaves.
-/

namespace NoteTemplate.Content

open Directive Text

/-! ## Runs of the loop -/

/-- The loop, entered with `s`, takes out the directives one after the other and ends with `t`. -/
inductive Rounds : Text → List Directive → Text → Prop
  | done {s : Text} (h : find? .repeated s = none) : Rounds s [] s
  | round {s t : Text} {f : Found} {ds : List Directive} (h : find? .repeated s = some f)
      (rest : Rounds (withToken f) ds t) : Rounds s (f.directive :: ds) t

theorem Rounds.unique {s t t' : Text} {ds ds' : List Directive} (h : Rounds s ds t)
    (h' : Rounds s ds' t') : ds' = ds ∧ t' = t := by
  induction h generalizing ds' with
  | done hfind =>
    cases h' with
    | done => exact ⟨rfl, rfl⟩
    | round hfind' => cases hfind.symm.trans hfind'
  | round hfind _ ih =>
    cases h' with
    | done hfind' => cases hfind'.symm.trans hfind
    | round hfind' hrest' =>
      cases hfind.symm.trans hfind'
      obtain ⟨rfl, rfl⟩ := ih hrest'
      exact ⟨rfl, rfl⟩

/-- The loop ends, for each round makes the text shorter. -/
theorem exists_rounds (s : Text) : ∃ ds, Rounds s ds (extract s).literal ∧
    (extract s).sections = ds.map RepeatSection.ofDirective := by
  induction hn : s.length using Nat.strongRecOn generalizing s with
  | _ n ih =>
    subst hn
    cases hfind : find? .repeated s with
    | none =>
      rw [extract_of_find?_eq_none hfind]
      exact ⟨[], .done hfind, rfl⟩
    | some f =>
      have hlt : (withToken f).length < s.length := by
        have hlength := length_withToken hfind
        omega
      obtain ⟨ds, hrounds, hsections⟩ := ih _ hlt (withToken f) rfl
      rw [extract_of_find?_eq_some hfind, hsections]
      exact ⟨f.directive :: ds, .round hfind hrounds, rfl⟩

theorem Rounds.find?_eq_none {s t : Text} {ds : List Directive} (h : Rounds s ds t) :
    find? .repeated t = none := by
  induction h with
  | done hfind => exact hfind
  | round _ _ ih => exact ih

theorem Rounds.wellFormed {s t : Text} {ds : List Directive} (h : Rounds s ds t) :
    ∀ d ∈ ds, d.WellFormed .repeated := by
  induction h with
  | done => exact fun d hd => absurd hd List.not_mem_nil
  | round hfind _ ih =>
    obtain ⟨-, hd, -⟩ := (find?_eq_some_iff unbordered_repeated_closer).mp hfind
    exact List.forall_mem_cons.mpr ⟨hd, ih⟩

/-! ## What is counted -/

/-- In a tag with this head the needle occurs only behind the head: no occurrence begins in the
head, runs into it, or runs over the end of the tag. -/
structure BehindHead (needle head : Text) : Prop where
  ne_nil : needle ≠ []
  inside : Avoids needle head
  before : Avoids head needle.tail
  behind : ∀ u ∈ needle.inits, u ≠ [] → u ≠ needle → ¬ u <:+ tagEnd ∧ ¬ tagEnd <:+ u

theorem occurrences_tag {needle head : Text} (h : BehindHead needle head)
    (before label behind : Text) :
    occurrences needle (before ++ (head ++ label ++ tagEnd) ++ behind) =
      occurrences needle before + occurrences needle (label ++ tagEnd) +
        occurrences needle behind := by
  have hseam : ¬ Crosses needle (before ++ (head ++ label ++ tagEnd)) behind := by
    rw [← List.append_assoc]
    exact not_crosses_of_last h.behind _ behind
  have hhead : ¬ Crosses needle before (head ++ label ++ tagEnd) := by
    rw [List.append_assoc]
    exact not_crosses_of_head h.before before _
  rw [occurrences_append h.ne_nil hseam, occurrences_append h.ne_nil hhead,
    List.append_assoc head, occurrences_append_of_avoids h.inside]

/-- A text in which a directive is found, and the text with its token: they differ in the head of
a tag, and in the body and the closing tag behind it. -/
theorem eq_tag_of_find? {s : Text} {f : Found} (h : find? .repeated s = some f) :
    s = f.before ++ (DirectiveKind.repeated.opener ++ f.directive.label ++ tagEnd) ++
        (f.directive.body ++ DirectiveKind.repeated.closer ++ f.after) ∧
      withToken f = f.before ++ (tokenOpener ++ f.directive.label ++ tagEnd) ++ f.after := by
  refine ⟨?_, rfl⟩
  conv => lhs; rw [eq_of_find? h]
  simp only [written, List.append_assoc]

/-- What a round takes away from the occurrences of a needle are those in the body and in the
closing tag. -/
theorem occurrences_withToken {needle : Text}
    (hopener : BehindHead needle DirectiveKind.repeated.opener)
    (htoken : BehindHead needle tokenOpener) {s : Text} {f : Found}
    (h : find? .repeated s = some f) :
    occurrences needle s + occurrences needle f.after = occurrences needle (withToken f) +
      occurrences needle (f.directive.body ++ DirectiveKind.repeated.closer ++ f.after) := by
  obtain ⟨hs, hwith⟩ := eq_tag_of_find? h
  rw [hs, hwith, occurrences_tag hopener, occurrences_tag htoken]
  omega

/-- A round takes away one closing tag. -/
theorem occurrences_closer_withToken {s : Text} {f : Found} (h : find? .repeated s = some f) :
    occurrences DirectiveKind.repeated.closer s =
      occurrences DirectiveKind.repeated.closer (withToken f) + 1 := by
  have hopener : BehindHead DirectiveKind.repeated.closer DirectiveKind.repeated.opener :=
    ⟨by decide, by decide, by decide, by decide⟩
  have htoken : BehindHead DirectiveKind.repeated.closer tokenOpener :=
    ⟨by decide, by decide, by decide, by decide⟩
  have hcount := occurrences_withToken hopener htoken h
  obtain ⟨-, hd, -⟩ := (find?_eq_some_iff unbordered_repeated_closer).mp h
  have hcut : cut? DirectiveKind.repeated.closer
      (f.directive.body ++ DirectiveKind.repeated.closer ++ f.after) =
        some (f.directive.body, f.after) :=
    (cut?_eq_some_iff_of_unbordered unbordered_repeated_closer).mpr ⟨rfl, hd.closer_not_infix⟩
  rw [occurrences_of_cut? unbordered_repeated_closer hcut] at hcount
  omega

theorem Rounds.occurrences_closer {s t : Text} {ds : List Directive} (h : Rounds s ds t) :
    occurrences DirectiveKind.repeated.closer s =
      occurrences DirectiveKind.repeated.closer t + ds.length := by
  induction h with
  | done => rfl
  | round hfind _ ih => rw [occurrences_closer_withToken hfind, ih, List.length_cons, Nat.add_assoc]

/-- A run brings in no occurrence of a needle that the tags have only in their labels. -/
theorem Rounds.occurrences_le {needle : Text}
    (hopener : BehindHead needle DirectiveKind.repeated.opener)
    (htoken : BehindHead needle tokenOpener) {s t : Text} {ds : List Directive}
    (h : Rounds s ds t) : occurrences needle t ≤ occurrences needle s := by
  induction h with
  | done => exact Nat.le_refl _
  | @round s t f ds hfind _ ih =>
    have hcount := occurrences_withToken hopener htoken hfind
    have hbehind := occurrences_le_append needle
      (f.directive.body ++ DirectiveKind.repeated.closer) f.after
    omega

theorem Rounds.length_eq {s t : Text} {ds : List Directive} (h : Rounds s ds t) :
    s.length = t.length + (ds.map fun d => d.body.length + 10).sum := by
  induction h with
  | done => rfl
  | round hfind _ ih =>
    have hlength := length_withToken hfind
    rw [List.map_cons, List.sum_cons]
    omega

/-! ## What is left -/

theorem Rounds.extract_eq {s t : Text} {ds : List Directive} (h : Rounds s ds t) :
    extract t = ⟨[], t⟩ :=
  extract_of_find?_eq_none h.find?_eq_none

/-- The loop has one run. It takes out well-formed directives, with one closing tag and ten
characters beside the body each, and leaves a text in which there is none. -/
theorem extract_invariants (s : Text) :
    (∃ ds, (∀ ds' t, Rounds s ds' t ↔ ds' = ds ∧ t = (extract s).literal) ∧
      (extract s).sections = ds.map RepeatSection.ofDirective) ∧
    (∀ x ∈ (extract s).sections, x.label ≠ [] ∧ '}' ∉ x.label ∧
      ¬ DirectiveKind.repeated.closer <:+: x.content ∧ x.names = Placeholder.names x.content) ∧
    occurrences DirectiveKind.repeated.closer s =
      occurrences DirectiveKind.repeated.closer (extract s).literal +
        (extract s).sections.length ∧
    s.length = (extract s).literal.length +
      ((extract s).sections.map fun x => x.content.length + 10).sum ∧
    extract (extract s).literal = ⟨[], (extract s).literal⟩ ∧
    ofText (ofText s).literal = ⟨(ofText s).names, [], (ofText s).literal⟩ := by
  obtain ⟨ds, hrounds, hsections⟩ := exists_rounds s
  refine ⟨⟨ds, fun ds' t => ⟨hrounds.unique, ?_⟩, hsections⟩, ?_, ?_, ?_, hrounds.extract_eq, ?_⟩
  · rintro ⟨rfl, rfl⟩
    exact hrounds
  · rw [hsections]
    intro x hx
    obtain ⟨d, hd, rfl⟩ := List.mem_map.mp hx
    obtain ⟨hne, hlabel, hbody⟩ := hrounds.wellFormed d hd
    exact ⟨hne, hlabel, hbody, rfl⟩
  · rw [hsections, List.length_map]
    exact hrounds.occurrences_closer
  · rw [hsections, List.map_map]
    exact hrounds.length_eq
  · show ofText (extract s).literal = _
    rw [ofText, hrounds.extract_eq]
    rfl

/-- The label of the first directive ends like a closing tag, so its token has a closing tag. -/
example :
    let s := ("\x7b\x7brepeat:\x7b\x7b/repeat\x7d\x7d" ++ "{{repeat:x}}{{/repeat}}").toList
    (extract s).literal = ("\x7b\x7bsection:\x7b\x7b/repeat\x7d\x7d").toList ∧
      occurrences DirectiveKind.repeated.closer s = 2 := by
  decide +kernel

end NoteTemplate.Content
