import NoteTemplate.Proofs.Rendering.Substitution
import NoteTemplate.Proofs.Template.Evaluation
import NoteTemplate.Proofs.Template.Labels

/-!
# Directives that share a label

A token tells a section by its label alone, and a section replaces every token that has its label.
Of several directives with one label the first therefore takes the places of all of them: it is
expanded in each of these places, and the bodies of the others are not used.

* `Content.replaceAll_settled`, `Content.foldl_replace_settled`: a section settles the places that
  the sections before it have left.
* `Content.fill_shared`: the text of a content whose directives may share labels.
* `Content.not_expanded_separately`: two directives with one label and different bodies.
-/

namespace NoteTemplate

open Text

/-! ## Items of a directive -/

namespace Directive

open Template (UnmarkedValues unmarked_item unmarkedValues_find? expansion_of_first?)

/-- The body with the values of each item, from the first item on, as long as the items carry the
first variable of the body. -/
def expansion (a : Answers) (d : Directive) : Text :=
  match (Placeholder.scan 0 d.body).head? with
  | none => []
  | some first =>
    ((a.items repeatNamespace).takeWhile fun item => item.contains first).flatMap fun item =>
      Placeholder.fill item.find? d.body

theorem item_ofDirective {a : Answers} (ha : a.Unmarked) {d : Directive}
    (hnames : ∀ n ∈ Placeholder.names d.body, '[' ∉ n) {ns : Text} {i : Nat} {item : Item}
    (hitem : (a.items ns)[i]? = some item) :
    (RepeatSection.ofDirective d).item a.toValues ns i = Placeholder.fill item.find? d.body := by
  have hvalue : a.toValues.item? ns i = item.find? := Answers.item?_eq_find? hitem
  have hunmarked : UnmarkedValues item.find? := unmarked_item ha (List.mem_of_getElem? hitem)
  rw [RepeatSection.item, hvalue]
  exact Placeholder.foldl_substitute_eq_fill (Placeholder.independent_of_not_mem hnames) fun n _ =>
    hunmarked.not_mem rfl n

theorem expansion_ofDirective {a : Answers} (ha : a.Unmarked) {d : Directive}
    (hnames : ∀ n ∈ Placeholder.names d.body, '[' ∉ n) :
    (RepeatSection.ofDirective d).expansion a.toValues repeatNamespace = d.expansion a := by
  have hfirst : (RepeatSection.ofDirective d).first? = (Placeholder.scan 0 d.body).head? := by
    show (Placeholder.names d.body).head? = _
    rw [Placeholder.names_eq_eraseDups, Placeholder.head?_eraseDups]
  rw [expansion]
  cases hvariable : (Placeholder.scan 0 d.body).head? with
  | none =>
    rw [hvariable] at hfirst
    rw [RepeatSection.expansion, RepeatSection.itemCount, hfirst]
    rfl
  | some first =>
    rw [hvariable] at hfirst
    exact expansion_of_first? hfirst fun i item hitem => item_ofDirective ha hnames hitem

theorem brace_not_mem_expansion {a : Answers} (ha : a.Unmarked) {d : Directive}
    (hd : '{' ∉ d.body) : '{' ∉ d.expansion a := by
  rw [expansion]
  split
  · exact List.not_mem_nil
  · intro hmem
    obtain ⟨item, hitem, hmem⟩ := List.mem_flatMap.mp hmem
    have hvalues := Template.unmarked_item ha ((List.takeWhile_prefix _).subset hitem)
    exact Placeholder.not_mem_fill hd (fun n => hvalues.not_mem rfl n) hmem

namespace Pieces

/-- The first directive that has the label of `d`. -/
def leading (p : Pieces) (d : Directive) : Directive :=
  ((p.directives.map Prod.snd).find? fun e => e.label = d.label).getD d

/-- There are no braces but those of the tags, no bracket begins in a label, and no name, be it of
the text or of a body, has an opening bracket. -/
structure Plain (p : Pieces) : Prop where
  gap : ∀ g ∈ p.gaps, '{' ∉ g
  label : ∀ g ∈ p.directives, '{' ∉ g.2.label ∧ '[' ∉ g.2.label
  body : ∀ g ∈ p.directives, '{' ∉ g.2.body
  name : ∀ n ∈ Placeholder.names (Content.ofPieces p).literal, '{' ∉ n ∧ '[' ∉ n
  bodyName : ∀ g ∈ p.directives, ∀ n ∈ Placeholder.names g.2.body, '[' ∉ n

theorem Plain.opener_not_infix {p : Pieces} (hp : p.Plain) :
    ∀ g ∈ p.directives, ¬ DirectiveKind.repeated.opener <:+: g.2.label := by
  intro g hg hinfix
  have hbrace : '{' ∈ g.2.label := hinfix.subset (by decide)
  exact (hp.label g hg).1 hbrace

theorem Plain.bracket_not_mem {p : Pieces} (hp : p.Plain) :
    ∀ g ∈ p.directives, '[' ∉ g.2.label := fun g hg => (hp.label g hg).2

theorem brace_not_mem_label {p : Pieces} {s : Text} (hcuts : p.Cuts .repeated s) :
    ∀ g ∈ p.directives, '}' ∉ g.2.label := by
  intro g hg
  refine (hcuts.wellFormed g.2 ?_).brace_not_mem
  exact List.mem_append_left _ (List.mem_flatMap.mpr ⟨g, hg, by simp⟩)

end Pieces

end Directive

/-! ## Places that share a token -/

namespace Content

open Directive (Pieces)
open Template (avoids_token UnmarkedValues unmarkedValues_find?)

/-- If no name has a brace, no placeholder runs over the beginning of a token. -/
theorem scannedApart_of_names {gs : List (Text × Directive)} {rest : Text}
    (hlabel : ∀ g ∈ gs, '[' ∉ g.2.label)
    (h : ∀ n ∈ Placeholder.scan 0 (gs.flatMap held ++ rest), '{' ∉ n) : ScannedApart gs rest := by
  induction gs with
  | nil => trivial
  | cons g gs ih =>
    obtain ⟨hg, hgs⟩ := List.forall_mem_cons.mp hlabel
    have hbrace : '{' ≠ ']' := by decide
    have hfirst : ¬ Placeholder.Straddles [] g.1
        (RepeatSection.tokenOf g.2.label ++ (gs.flatMap held ++ rest)) := by
      intro hstraddles
      obtain ⟨n, hn, hmem⟩ := Placeholder.exists_name_of_straddles hbrace hstraddles
      refine h n ?_ hmem
      rw [List.flatMap_cons, held, List.append_assoc, List.append_assoc]
      exact hn
    refine ⟨by rwa [List.append_assoc], ih hgs fun n hn => h n ?_⟩
    rw [List.flatMap_cons, List.append_assoc]
    refine Placeholder.name_mem_parts.mp ?_
    rw [parts_held hg hfirst]
    exact List.mem_append_right _ (Placeholder.name_mem_parts.mpr hn)

/-- A gap with its values, and behind it what stands in the place of the directive: a token as long
as its label is not done. -/
def settled (a : Answers) (done : Text → Option Text) (g : Text × Directive) : Text :=
  Placeholder.fill a.value? g.1 ++ (done g.2.label).getD (RepeatSection.tokenOf g.2.label)

section Places

variable {a : Answers} {gs : List (Text × Directive)} {rest : Text} {done : Text → Option Text}

theorem replaceAll_settled (hgaps : ∀ g ∈ gs, '{' ∉ Placeholder.fill a.value? g.1)
    (hrest : '{' ∉ rest) (hlabels : ∀ g ∈ gs, '{' ∉ g.2.label ∧ '}' ∉ g.2.label)
    (hdone : ∀ l t, done l = some t → '{' ∉ t) {label : Text} (hlabel : '}' ∉ label)
    (new : Text) :
    replaceAll (RepeatSection.tokenOf label) new (gs.flatMap (settled a done) ++ rest) =
      gs.flatMap (settled a fun l => (done l).or (if l = label then some new else none)) ++
        rest := by
  have hne : RepeatSection.tokenOf label ≠ [] := List.cons_ne_nil _ _
  induction gs with
  | nil => exact replaceAll_of_avoids (avoids_of_not_mem hrest)
  | cons g gs ih =>
    obtain ⟨hgap, hgaps⟩ := List.forall_mem_cons.mp hgaps
    obtain ⟨⟨hopening, hclosing⟩, hlabels⟩ := List.forall_mem_cons.mp hlabels
    have ih := ih hgaps hlabels
    have hbefore : Avoids (RepeatSection.tokenOf label) (Placeholder.fill a.value? g.1) :=
      avoids_of_not_mem hgap
    rw [List.flatMap_cons, List.flatMap_cons, settled, settled]
    simp only [List.append_assoc]
    rw [replaceAll_append hbefore]
    cases hg : done g.2.label with
    | some t =>
      have hsettled : Avoids (RepeatSection.tokenOf label) t := avoids_of_not_mem (hdone _ t hg)
      rw [Option.getD_some, replaceAll_append hsettled, ih]
      rfl
    | none =>
      by_cases heq : g.2.label = label
      · rw [Option.getD_none, heq, replaceAll_needle_append hne, ih, if_pos rfl]
        rfl
      · have hother := avoids_token (Ne.symm heq) hlabel hclosing hopening
        rw [Option.getD_none, replaceAll_append hother, ih, if_neg heq]
        rfl

theorem foldl_replace_settled (hgaps : ∀ g ∈ gs, '{' ∉ Placeholder.fill a.value? g.1)
    (hrest : '{' ∉ rest) (hlabels : ∀ g ∈ gs, '{' ∉ g.2.label ∧ '}' ∉ g.2.label)
    (hdone : ∀ l t, done l = some t → '{' ∉ t) {ds : List Directive}
    (hds : ∀ d ∈ ds, '}' ∉ d.label ∧ '{' ∉ d.expansion a) :
    ds.foldl (fun t d => replaceAll (RepeatSection.tokenOf d.label) (d.expansion a) t)
        (gs.flatMap (settled a done) ++ rest) =
      gs.flatMap (settled a fun l =>
        (done l).or ((ds.find? fun d => d.label = l).map (·.expansion a))) ++ rest := by
  induction ds generalizing done with
  | nil => simp
  | cons d ds ih =>
    obtain ⟨⟨hlabel, hnew⟩, hds⟩ := List.forall_mem_cons.mp hds
    rw [List.foldl_cons, replaceAll_settled hgaps hrest hlabels hdone hlabel, ih ?_ hds]
    · congr 3
      funext l
      rw [Option.or_assoc]
      by_cases heq : d.label = l
      · simp [heq]
      · simp [heq, Ne.symm heq]
    · intro l t ht
      rcases Option.or_eq_some_iff.mp ht with ht | ⟨-, ht⟩
      · exact hdone l t ht
      · split at ht
        · cases ht
          exact hnew
        · cases ht

end Places

/-! ## The text of a content -/

/-- A literal is filled gap by gap, and its tokens stay. -/
theorem fill_literal {p : Pieces} (hbracket : ∀ g ∈ p.directives, '[' ∉ g.2.label)
    (h : ScannedApart p.directives p.rest) (a : Answers) :
    Placeholder.fill a.value? (ofPieces p).literal =
      p.directives.flatMap (settled a fun _ => none) ++ Placeholder.fill a.value? p.rest := by
  have htoken (t : Text) : (t.map Placeholder.Part.char).flatMap (Placeholder.Part.fill a.value?) =
      t := by
    rw [List.flatMap_map]
    exact List.flatMap_singleton' t
  rw [literal_ofPieces, Placeholder.fill, parts_literal hbracket h, List.flatMap_append,
    List.flatMap_assoc]
  simp only [List.flatMap_append, htoken]
  rfl

/-- Substitution leaves the tokens and fills the gaps between them. -/
theorem foldl_substitute_literal {p : Pieces} (hp : p.Plain) {a : Answers} (ha : a.Unmarked) :
    (Placeholder.names (ofPieces p).literal).foldl (fun t n => substitute n (a.value? n) t)
        (ofPieces p).literal =
      p.directives.flatMap (settled a fun _ => none) ++ Placeholder.fill a.value? p.rest := by
  have hvalues : UnmarkedValues a.value? := unmarkedValues_find? ha.values
  have hscanned : ScannedApart p.directives p.rest := by
    refine scannedApart_of_names hp.bracket_not_mem fun n hn => (hp.name n ?_).1
    exact Placeholder.mem_names_iff.mpr hn
  rw [← fill_literal hp.bracket_not_mem hscanned]
  refine Placeholder.foldl_substitute_eq_fill ?_ fun n _ => hvalues.not_mem rfl n
  exact Placeholder.independent_of_not_mem fun n hn => (hp.name n hn).2

theorem foldl_sections {p : Pieces} (hp : p.Plain) {a : Answers} (ha : a.Unmarked) (t : Text) :
    (ofPieces p).sections.foldl
        (fun t r => replaceAll r.token (r.expansion a.toValues repeatNamespace) t) t =
      (p.directives.map Prod.snd).foldl
        (fun t d => replaceAll (RepeatSection.tokenOf d.label) (d.expansion a) t) t := by
  rw [ofPieces, List.foldl_map, List.foldl_map]
  refine List.foldl_ext _ _ _ fun t g hg => ?_
  rw [Directive.expansion_ofDirective ha (hp.bodyName g hg)]
  rfl

/-- Once all sections are done, the first directive with its label stands in the place of each. -/
theorem settled_leading {p : Pieces} {g : Text × Directive} (hg : g ∈ p.directives)
    (a : Answers) :
    settled a (fun l => none.or
        (((p.directives.map Prod.snd).find? fun d => d.label = l).map (·.expansion a))) g =
      Placeholder.fill a.value? g.1 ++ (p.leading g.2).expansion a := by
  refine congrArg (Placeholder.fill a.value? g.1 ++ ·) ?_
  dsimp only
  rw [Option.none_or, Pieces.leading]
  cases hfind : (p.directives.map Prod.snd).find? fun d => d.label = g.2.label with
  | some d => rfl
  | none =>
    have hnone := List.find?_eq_none.mp hfind g.2 (List.mem_map_of_mem hg)
    exact absurd (decide_eq_true rfl) hnone

/-- The text of a content whose directives may share labels: in the place of each directive stands
the expansion of the first directive with the same label. -/
theorem fill_shared {s : Text} (hs : (Directive.split .repeated s).Plain) {a : Answers}
    (ha : a.Unmarked) :
    (ofText s).fill a.toValues repeatNamespace =
      (Directive.split .repeated s).directives.flatMap (fun g =>
          Placeholder.fill a.value? g.1 ++
            ((Directive.split .repeated s).leading g.2).expansion a) ++
        Placeholder.fill a.value? (Directive.split .repeated s).rest := by
  have hcuts : (Directive.split .repeated s).Cuts .repeated s :=
    (Pieces.cuts_iff unbordered_repeated_closer).mpr rfl
  generalize Directive.split .repeated s = p at hs hcuts ⊢
  have hclosing := Pieces.brace_not_mem_label hcuts
  have hgap : ∀ g ∈ p.gaps, '{' ∉ Placeholder.fill a.value? g := fun g hg =>
    Placeholder.not_mem_fill (hs.gap g hg) ((unmarkedValues_find? ha.values).not_mem rfl)
  have hdirectives : ∀ d ∈ p.directives.map Prod.snd, '}' ∉ d.label ∧ '{' ∉ d.expansion a := by
    intro d hd
    obtain ⟨g, hg, rfl⟩ := List.mem_map.mp hd
    exact ⟨hclosing g hg, Directive.brace_not_mem_expansion ha (hs.body g hg)⟩
  have hnone : ∀ l t : Text, (fun _ : Text => (none : Option Text)) l = some t → '{' ∉ t :=
    fun _ _ h => by cases h
  have hsettled := foldl_replace_settled
    (fun g hg => hgap g.1 (List.mem_append_left _ (List.mem_map_of_mem hg)))
    (hgap p.rest (List.mem_append_right _ (List.mem_singleton_self p.rest)))
    (fun g hg => ⟨(hs.label g hg).1, hclosing g hg⟩) hnone hdirectives
  have hsubstituted : (ofText s).substituted a.toValues =
      p.directives.flatMap (settled a fun _ => none) ++ Placeholder.fill a.value? p.rest := by
    rw [ofText_of_cuts hcuts hs.opener_not_infix]
    exact foldl_substitute_literal hs ha
  rw [fill, hsubstituted, ofText_of_cuts hcuts hs.opener_not_infix, foldl_sections hs ha, hsettled]
  exact congrArg (· ++ _) (List.flatMap_congr fun g hg => settled_leading hg a)

/-- Three directives, the first and the last of which share a label, in
`a[N]{{repeat:r}}[X]/[Y];{{/repeat}}, ]{{repeat:s}}<[Y]>{{/repeat}} {{repeat:r}}[Y].{{/repeat}}[N`. -/
def sharedText : Text :=
  ("a[N]{{repeat:r}}[X]/[Y];{{/repeat}}, ]{{repeat:s}}<[Y]>{{/repeat}} " ++
    "{{repeat:r}}[Y].{{/repeat}}[N").toList

/-- Two items, of which the second lacks the variable `X`, and a value with a line break. -/
def sharedAnswers : Answers :=
  (((Answers.empty.setValue ['N'] ['A', '\n', 'B']).setItem repeatNamespace 0 ['X'] ['1']
    ).setItem repeatNamespace 0 ['Y'] ['2']).setItem repeatNamespace 1 ['Y'] ['3']

theorem split_sharedText : Directive.split .repeated sharedText =
    ⟨[("a[N]".toList, ⟨['r'], "[X]/[Y];".toList⟩), (", ]".toList, ⟨['s'], "<[Y]>".toList⟩),
      ([' '], ⟨['r'], "[Y].".toList⟩)], "[N".toList⟩ := by
  decide +kernel

theorem fill_shared_sharedText :
    (Directive.split .repeated sharedText).Plain ∧ sharedAnswers.Unmarked ∧
      (ofText sharedText).fill sharedAnswers.toValues repeatNamespace =
        "aA<br>B1/2;, ]<2><3> 1/2;[N".toList := by
  have hplain : (Directive.split .repeated sharedText).Plain := by
    rw [split_sharedText]
    exact ⟨by decide, by decide, by decide, by decide +kernel, by decide +kernel⟩
  have hunmarked : sharedAnswers.Unmarked := ⟨by decide, by decide⟩
  refine ⟨hplain, hunmarked, ?_⟩
  rw [fill_shared hplain hunmarked, split_sharedText]
  decide +kernel

/-- Directives that share a label are not expanded separately: of
`{{repeat:r}}[X];{{/repeat}}{{repeat:r}}[Y].{{/repeat}}` the second is lost. -/
theorem not_expanded_separately :
    ¬ ∀ s, (Directive.split .repeated s).Plain →
      ¬ ((Directive.split .repeated s).directives.map fun g => g.2.label).Nodup →
      ∀ a : Answers, a.Unmarked →
        (ofText s).fill a.toValues repeatNamespace =
          (Directive.split .repeated s).directives.flatMap (fun g =>
              Placeholder.fill a.value? g.1 ++ g.2.expansion a) ++
            Placeholder.fill a.value? (Directive.split .repeated s).rest := by
  intro h
  have hsplit : Directive.split .repeated
      "{{repeat:r}}[X];{{/repeat}}{{repeat:r}}[Y].{{/repeat}}".toList =
        ⟨[([], ⟨['r'], "[X];".toList⟩), ([], ⟨['r'], "[Y].".toList⟩)], []⟩ := by
    decide +kernel
  have h := h "{{repeat:r}}[X];{{/repeat}}{{repeat:r}}[Y].{{/repeat}}".toList
  rw [hsplit] at h
  have hplain : Pieces.Plain ⟨[([], ⟨['r'], "[X];".toList⟩), ([], ⟨['r'], "[Y].".toList⟩)], []⟩ :=
    ⟨by decide, by decide, by decide, by decide +kernel, by decide +kernel⟩
  have htext := h hplain (by decide)
    ((Answers.empty.setItem repeatNamespace 0 ['X'] ['1']).setItem repeatNamespace 0 ['Y'] ['2'])
    ⟨by decide, by decide⟩
  exact absurd htext (by decide +kernel)

end Content

end NoteTemplate
