import NoteTemplate.Content
import NoteTemplate.Proofs.Template.Splitting

/-!
# Taking out repeat directives

The sections of a text are taken out one by one: the first directive gives way to a token, and the
search begins again at the first character. The text that is searched again has tokens in it, and
gaps with stray tags around them. Nevertheless the search finds what it would have found behind the
directive, unless a label has an opening tag of its own.

* `Directive.Passed`: no complete directive begins in a text, given what stands behind it.
* `Directive.find?_append_of_passed`: the search passes over such a text.
* `Content.passed_token`: the text before a directive, and its token, are passed over as the text
  before the directive was.
* `Content.extract_eq_split`: the sections that are taken out are those of a single pass.
-/

namespace NoteTemplate

open Text

/-! ## Texts that the search passes over -/

namespace Directive

variable {kind : DirectiveKind}

/-- No complete directive begins inside `a` when `b` stands behind it. -/
def Passed (kind : DirectiveKind) (a b : Text) : Prop :=
  ∀ t, t <:+ a → t ≠ [] → ¬ Begins kind (t ++ b)

theorem passed_nil (b : Text) : Passed kind [] b := by
  intro t ht hne
  exact absurd (List.suffix_nil.mp ht) hne

theorem passed_cons {c : Char} {cs b : Text} :
    Passed kind (c :: cs) b ↔ ¬ Begins kind (c :: cs ++ b) ∧ Passed kind cs b := by
  constructor
  · intro h
    exact ⟨h _ List.suffix_rfl (List.cons_ne_nil c cs),
      fun t ht => h t (ht.trans (List.suffix_cons c cs))⟩
  · rintro ⟨hhead, htail⟩ t ht hne
    rcases List.suffix_cons_iff.mp ht with rfl | ht
    · exact hhead
    · exact htail t ht hne

theorem passed_append {a b s : Text} (ha : Passed kind a (b ++ s)) (hb : Passed kind b s) :
    Passed kind (a ++ b) s := by
  induction a with
  | nil => exact hb
  | cons c cs ih =>
    obtain ⟨hhead, htail⟩ := passed_cons.mp ha
    refine passed_cons.mpr ⟨?_, ih htail⟩
    simpa using hhead

theorem passed_of_avoids {a : Text} (h : Avoids kind.opener a) (b : Text) :
    Passed kind a b := by
  rintro t ht hne ⟨label, rest, heq, -, -, -⟩
  refine h t ht hne b ?_
  rw [heq, List.append_assoc, List.append_assoc]
  exact List.prefix_append _ _

theorem find?_append_of_passed {a b : Text} (h : Passed kind a b) :
    find? kind (a ++ b) = (find? kind b).map fun f => { f with before := a ++ f.before } := by
  induction a with
  | nil => cases hfind : find? kind b <;> simp [hfind]
  | cons c cs ih =>
    obtain ⟨hhead, htail⟩ := passed_cons.mp h
    have hread : read? kind (c :: (cs ++ b)) = none := read?_eq_none_iff.mpr hhead
    rw [List.cons_append, find?, hread, ih htail, Option.map_map]
    rfl

end Directive

/-- A needle that is not in a text cannot begin there either, if a character follows that the
needle does not have. -/
theorem Text.avoids_append_single {needle a : Text} {c : Char} (hc : c ∉ needle)
    (h : ¬ needle <:+: a) : Avoids needle (a ++ [c]) := by
  intro t ht hne rest hp
  rcases List.suffix_concat_iff.mp ht with rfl | ⟨t, rfl, hsuffix⟩
  · exact hne rfl
  rw [List.append_assoc] at hp
  rcases List.prefix_or_prefix_of_prefix hp (List.prefix_append t _) with hp | ⟨u, rfl⟩
  · exact h (hp.isInfix.trans hsuffix.isInfix)
  · cases u with
    | nil => exact h (by simpa using hsuffix.isInfix)
    | cons d u =>
      obtain ⟨rfl, -⟩ := List.cons_prefix_cons.mp ((List.prefix_append_right_inj t).mp hp)
      exact hc (List.mem_append_right t List.mem_cons_self)

/-- A character that is in neither beginning divides two equal texts at the same place. -/
theorem Text.eq_and_eq_of_stop {c : Char} {a b s t : Text} (ha : c ∉ a) (hb : c ∉ b)
    (h : a ++ c :: s = b ++ c :: t) : a = b ∧ s = t := by
  have hprefix : a ++ c :: s <+: b ++ c :: t := by rw [h]
  obtain rfl : a = b := eq_of_prefix_stop ha hb hprefix
  exact ⟨rfl, List.cons_injective (List.append_cancel_left h)⟩

/-! ## Opening tags -/

/-- An opening tag that ends inside `t` opens a directive there with any other text behind `t` in
which a closing tag stands. -/
theorem Directive.begins_append_of_brace_mem {kind : DirectiveKind} (hkind : '}' ∉ kind.opener)
    {t u u' : Text} (ht : '}' ∈ t) (hu : ∀ rest, u ≠ '}' :: rest)
    (hclosed : kind.closer <:+: u') (h : Begins kind (t ++ u)) : Begins kind (t ++ u') := by
  obtain ⟨label, rest, heq, hne, hbrace, -⟩ := h
  obtain ⟨a, t, rfl, ha⟩ := List.eq_append_cons_of_mem ht
  have hopened : '}' ∉ kind.opener ++ label := List.not_mem_append hkind hbrace
  have hstop : a ++ '}' :: (t ++ u) = (kind.opener ++ label) ++ '}' :: '}' :: rest := by
    simpa [tagEnd] using heq
  obtain ⟨rfl, hrest⟩ := eq_and_eq_of_stop ha hopened hstop
  cases t with
  | nil => exact absurd hrest (hu _)
  | cons c t =>
    obtain rfl : c = '}' := List.head_eq_of_cons_eq hrest
    refine ⟨label, t ++ u', ?_, hne, hbrace, ?_⟩
    · simp [tagEnd]
    · exact hclosed.trans (List.suffix_append t u').isInfix

/-! ## Tokens -/

namespace Content

open Directive

/-- What a token begins with. -/
def tokenOpener : Text := ['{', '{', 's', 'e', 'c', 't', 'i', 'o', 'n', ':']

theorem tokenOf_eq (label : Text) :
    RepeatSection.tokenOf label = tokenOpener ++ label ++ tagEnd := rfl

theorem brace_not_mem_opener : '}' ∉ DirectiveKind.repeated.opener := by decide

theorem avoids_opener_tokenOf {label : Text}
    (h : ¬ DirectiveKind.repeated.opener <:+: label) :
    Avoids DirectiveKind.repeated.opener (RepeatSection.tokenOf label) := by
  have hend : tagEnd = ['}'] ++ ['}'] := rfl
  rw [tokenOf_eq, hend, List.append_assoc, ← List.append_assoc label]
  refine avoids_append (by decide) (avoids_append ?_ (by decide))
  exact avoids_append_single (by decide) h

/-- An opening tag that begins before a tag and does not end there runs on to the end of that tag.
It does not begin in the tag, so all of it is before the tag's label. -/
theorem exists_of_begins_opened {head t label after : Text} (hhead : '}' ∉ head)
    (hopener : Avoids head DirectiveKind.repeated.opener.tail) (hne : t ≠ []) (ht : '}' ∉ t)
    (hlabel : '}' ∉ label) (h : Begins .repeated (t ++ (head ++ label ++ tagEnd) ++ after)) :
    ∃ l, '}' ∉ l ∧ t = DirectiveKind.repeated.opener ++ l := by
  obtain ⟨label', rest, heq, -, hbrace, -⟩ := h
  have hopened : '}' ∉ DirectiveKind.repeated.opener ++ label' :=
    List.not_mem_append brace_not_mem_opener hbrace
  have hinside : '}' ∉ t ++ (head ++ label) :=
    List.not_mem_append ht (List.not_mem_append hhead hlabel)
  have hstop : (t ++ (head ++ label)) ++ '}' :: '}' :: after =
      (DirectiveKind.repeated.opener ++ label') ++ '}' :: '}' :: rest := by
    simpa [tagEnd] using heq
  obtain ⟨hlabels, -⟩ := eq_and_eq_of_stop hinside hopened hstop
  rcases List.append_eq_append_iff.mp hlabels with ⟨u, hu, htag⟩ | ⟨l, rfl, -⟩
  · by_cases hnil : u = []
    · rw [hnil, List.append_nil] at hu
      exact ⟨[], List.not_mem_nil, by rw [← hu, List.append_nil]⟩
    · obtain ⟨c, t, rfl⟩ := List.exists_cons_of_ne_nil hne
      refine absurd ⟨label, htag⟩ (hopener u ?_ hnil label')
      rw [hu]
      exact List.suffix_append t u
  · exact ⟨l, fun hl => ht (List.mem_append_right _ hl), rfl⟩

/-- An opening tag whose label runs on to a directive, and takes in the directive's own opening
tag, is closed as the directive is. -/
theorem begins_of_opened {l : Text} (hl : '}' ∉ l) {d : Directive}
    (hd : d.WellFormed .repeated) (after : Text) :
    Begins .repeated (DirectiveKind.repeated.opener ++ l ++ d.written .repeated ++ after) := by
  refine ⟨l ++ DirectiveKind.repeated.opener ++ d.label,
    d.body ++ DirectiveKind.repeated.closer ++ after, ?_, ?_, ?_, ?_⟩
  · simp only [written, List.append_assoc]
  · exact List.append_ne_nil_of_right_ne_nil _ hd.label_ne_nil
  · exact List.not_mem_append (List.not_mem_append hl brace_not_mem_opener) hd.brace_not_mem
  · exact ⟨d.body, after, rfl⟩

/-- A directive that begins before a tag, be it a token or an opening tag, begins there as well
with a directive in the place of the tag. -/
theorem begins_of_begins_opened {head : Text} (hnil : head ≠ []) (hhead : '}' ∉ head)
    (hopener : Avoids head DirectiveKind.repeated.opener.tail) {d : Directive}
    (hd : d.WellFormed .repeated) {t label after : Text} (hne : t ≠ []) (hlabel : '}' ∉ label)
    (h : Begins .repeated (t ++ (head ++ label ++ tagEnd) ++ after)) (after' : Text) :
    Begins .repeated (t ++ d.written .repeated ++ after') := by
  by_cases ht : '}' ∈ t
  · rw [List.append_assoc] at h ⊢
    refine begins_append_of_brace_mem brace_not_mem_opener ht (fun rest htag => hhead ?_) ?_ h
    · obtain ⟨c, cs, rfl⟩ := List.exists_cons_of_ne_nil hnil
      obtain rfl : c = '}' := List.head_eq_of_cons_eq htag
      exact List.mem_cons_self
    · exact ⟨DirectiveKind.repeated.opener ++ d.label ++ tagEnd ++ d.body, after', rfl⟩
  · obtain ⟨l, hl, rfl⟩ := exists_of_begins_opened hhead hopener hne ht hlabel h
    exact begins_of_opened hl hd after'

/-- The text before a directive, together with its token, is passed over if the text before it
was. -/
theorem passed_token {d : Directive} (hd : d.WellFormed .repeated)
    (hlabel : ¬ DirectiveKind.repeated.opener <:+: d.label) {a after : Text}
    (h : Passed .repeated a (d.written .repeated ++ after)) :
    Passed .repeated (a ++ RepeatSection.tokenOf d.label) after := by
  refine passed_append (fun t ht hne hbegins => ?_)
    (passed_of_avoids (avoids_opener_tokenOf hlabel) after)
  rw [← List.append_assoc] at hbegins
  have hopener : tokenOpener ≠ [] := by decide
  have hbefore := begins_of_begins_opened hopener (by decide) (by decide) hd hne hd.brace_not_mem
    hbegins after
  rw [List.append_assoc] at hbefore
  exact h t ht hne hbefore

/-! ## A single pass -/

/-- What a single pass takes out: a section for each directive, and the gaps with the tokens
between them. -/
def ofPieces (p : Pieces) : Extracted :=
  ⟨p.directives.map fun g => RepeatSection.ofDirective g.2,
    p.directives.flatMap (fun g => g.1 ++ RepeatSection.tokenOf g.2.label) ++ p.rest⟩

theorem unbordered_repeated_closer : Unbordered DirectiveKind.repeated.closer := by decide

/-- Behind a text that the search passes over, the sections are taken out as they are in a single
pass. -/
theorem extract_append {a s : Text} (ha : Passed .repeated a s)
    (h : ∀ g ∈ (split .repeated s).directives, ¬ DirectiveKind.repeated.opener <:+: g.2.label) :
    extract (a ++ s) = ⟨(ofPieces (split .repeated s)).sections,
      a ++ (ofPieces (split .repeated s)).literal⟩ := by
  -- One directive of `s` is taken out at a time; its token goes over to what is passed.
  induction hn : s.length using Nat.strongRecOn generalizing a s with
  | _ n ih =>
    subst hn
    have hfound := find?_append_of_passed ha
    cases hfind : find? .repeated s with
    | none =>
      rw [hfind, Option.map_none] at hfound
      rw [extract_of_find?_eq_none hfound, split_of_find?_eq_none hfind]
      rfl
    | some f =>
      rw [hfind, Option.map_some] at hfound
      rw [split_of_find?_eq_some hfind] at h ⊢
      obtain ⟨hs, hd, hfirst⟩ := (find?_eq_some_iff unbordered_repeated_closer).mp hfind
      have hlabel := h (f.before, f.directive) List.mem_cons_self
      have hbefore : Passed .repeated (a ++ f.before)
          (f.directive.written .repeated ++ f.after) := by
        refine passed_append ?_ fun t ht hne => ?_
        · rw [← List.append_assoc, ← hs]
          exact ha
        · rw [← List.append_assoc]
          exact hfirst t ht hne
      have hrest := ih _ (length_after_lt hfind) (passed_token hd hlabel hbefore)
        (fun g hg => h g (List.mem_cons_of_mem _ hg)) rfl
      rw [extract_of_find?_eq_some hfound, withToken, hrest]
      simp [ofPieces]

/-- Taking out the directives one by one, with a new search from the first character for each, is
the same as taking them out in a single pass, unless a label has an opening tag of its own. -/
theorem extract_eq_split {s : Text}
    (h : ∀ g ∈ (split .repeated s).directives, ¬ DirectiveKind.repeated.opener <:+: g.2.label) :
    (split .repeated s).Cuts .repeated s ∧ extract s = ofPieces (split .repeated s) :=
  ⟨(Pieces.cuts_iff unbordered_repeated_closer).mpr rfl, extract_append (passed_nil s) h⟩

/-- Stray tags before, between and inside the directives, and labels with braces, one of them the
beginning of a closing tag. -/
def strayTags : Text :=
  ("\x7d\x7b\x7brepeat:\x7b\x7b/repeat\x7d\x7d" ++ "\x7b\x7brepeat:a" ++ "{{/repeat}}[X]" ++
    "{{repeat:b}}{{/repeat}}" ++ "\x7b\x7bsection:\x7b\x7brepeat:\x7d" ++
    "\x7b\x7brepeat:\x7bc\x7d\x7d" ++ "[Y]\x7d" ++ "{{/repeat}}{{/repeat}}{{repeat:d}}").toList

theorem split_strayTags : split .repeated strayTags =
    ⟨[("\x7d".toList, ⟨"\x7b\x7b/repeat".toList, "\x7b\x7brepeat:a".toList⟩),
      ("[X]".toList, ⟨['b'], []⟩),
      ("\x7b\x7bsection:\x7b\x7brepeat:\x7d".toList, ⟨"\x7bc".toList, "[Y]\x7d".toList⟩)],
      "{{/repeat}}{{repeat:d}}".toList⟩ := by
  decide +kernel

theorem extract_strayTags :
    (∀ g ∈ (split .repeated strayTags).directives,
      ¬ DirectiveKind.repeated.opener <:+: g.2.label) ∧
    (extract strayTags).literal =
      ("\x7d\x7b\x7bsection:\x7b\x7b/repeat\x7d\x7d" ++ "[X]{{section:b}}" ++
        "\x7b\x7bsection:\x7b\x7brepeat:\x7d\x7b\x7bsection:\x7bc\x7d\x7d" ++
        "{{/repeat}}{{repeat:d}}").toList ∧
    (extract strayTags).sections.map (·.label) =
      ["\x7b\x7b/repeat".toList, ['b'], "\x7bc".toList] := by
  have hlabels : ∀ g ∈ (split .repeated strayTags).directives,
      ¬ DirectiveKind.repeated.opener <:+: g.2.label := by
    rw [split_strayTags]
    decide
  refine ⟨hlabels, ?_⟩
  rw [(extract_eq_split hlabels).2, split_strayTags]
  decide

/-- With an opening tag in a label there is a directive more than a single pass finds. -/
example :
    let s := ("\x7b\x7brepeat:a" ++ "{{repeat:b}}x{{/repeat}}y{{/repeat}}").toList
    (split .repeated s).directives.length = 1 ∧ (extract s).sections.length = 2 := by
  decide +kernel

end Content

end NoteTemplate
