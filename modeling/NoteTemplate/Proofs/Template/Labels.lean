import NoteTemplate.Proofs.Template.Extraction
import NoteTemplate.Proofs.Template.Scanning
import NoteTemplate.Proofs.Template.Tree

/-!
# Labels and variables

The variables of a content are scanned in its literal, where the tokens of the sections stand with
their labels. If no bracket pair spans a token, and no label has an opening bracket, the scan finds
in the literal what it finds in the gaps around the directives, and a label is of no influence. A
label with a placeholder in it brings in a variable of its own.

* `Content.parts_literal`: a literal is scanned gap by gap.
* `Directive.Pieces.cuts_relabel`: a directive with another label is found in the same place.
* `Content.names_relabel`: the variables of a text are those of its gaps, whatever the labels are.
* `Content.label_read_as_placeholder`: the variable that a label brings in.
-/

namespace NoteTemplate

open Text

/-! ## Literals -/

namespace Content

open Placeholder (parts Part Straddles)

/-- A gap and the token of the directive behind it. -/
def held (g : Text × Directive) : Text := g.1 ++ RepeatSection.tokenOf g.2.label

theorem literal_ofPieces (p : Directive.Pieces) :
    (ofPieces p).literal = p.directives.flatMap held ++ p.rest := rfl

/-- No placeholder that the scan of the literal meets begins in a gap and ends in the token behind
it or further on. -/
def NoneStraddles (p : Directive.Pieces) : Prop :=
  ∀ i < p.directives.length, ∀ g ∈ p.directives[i]?,
    ¬ Straddles ((p.directives.take i).flatMap held) g.1
      (RepeatSection.tokenOf g.2.label ++ (p.directives.drop (i + 1)).flatMap held ++ p.rest)

/-- Each gap is scanned on its own, whatever stands before it. -/
def ScannedApart : List (Text × Directive) → Text → Prop
  | [], _ => True
  | g :: gs, rest =>
    ¬ Straddles [] g.1 (RepeatSection.tokenOf g.2.label ++ gs.flatMap held ++ rest) ∧
      ScannedApart gs rest

theorem parts_held {g : Text × Directive} {tail : Text} (hlabel : '[' ∉ g.2.label)
    (h : ¬ Straddles [] g.1 (RepeatSection.tokenOf g.2.label ++ tail)) :
    parts 0 (held g ++ tail) =
      parts 0 g.1 ++ (RepeatSection.tokenOf g.2.label).map .char ++ parts 0 tail := by
  rw [held, List.append_assoc, Placeholder.parts_append h,
    Placeholder.parts_append_of_not_mem (RepeatSection.not_mem_tokenOf (by decide) hlabel),
    List.append_assoc]

theorem parts_literal {gs : List (Text × Directive)} {rest : Text}
    (hlabel : ∀ g ∈ gs, '[' ∉ g.2.label) (h : ScannedApart gs rest) :
    parts 0 (gs.flatMap held ++ rest) =
      gs.flatMap (fun g => parts 0 g.1 ++ (RepeatSection.tokenOf g.2.label).map .char) ++
        parts 0 rest := by
  induction gs with
  | nil => rfl
  | cons g gs ih =>
    obtain ⟨hfirst, htail⟩ := h
    have hg := hlabel g List.mem_cons_self
    rw [List.append_assoc] at hfirst
    have ih := ih (fun g' hg' => hlabel g' (List.mem_cons_of_mem g hg')) htail
    rw [List.flatMap_cons, List.append_assoc, parts_held hg hfirst, ih, List.flatMap_cons]
    simp only [List.append_assoc]

/-- The names met in a literal are those met in the gaps. -/
theorem scan_literal {gs : List (Text × Directive)} {rest : Text}
    (hlabel : ∀ g ∈ gs, '[' ∉ g.2.label) (h : ScannedApart gs rest) :
    Placeholder.scan 0 (gs.flatMap held ++ rest) =
      (gs.map Prod.fst ++ [rest]).flatMap (Placeholder.scan 0) := by
  have htoken (s : Text) : (s.map Part.char).filterMap Part.name? = [] := by
    rw [List.filterMap_map]
    exact List.filterMap_eq_nil_iff.mpr fun _ _ => rfl
  rw [← Placeholder.filterMap_name?_parts, parts_literal hlabel h]
  simp only [List.filterMap_append, List.filterMap_flatMap, Placeholder.filterMap_name?_parts,
    htoken, List.append_nil, List.flatMap_append, List.flatMap_map, List.flatMap_singleton]

/-- What straddles a gap straddles it as well behind a text that is scanned on its own. -/
theorem straddles_append {x a g b : Text} {ps : List Part}
    (hparts : parts 0 (x ++ (a ++ g ++ b)) = ps ++ parts 0 (a ++ g ++ b))
    (hps : ps.flatMap Part.written = x) (h : Straddles a g b) : Straddles (x ++ a) g b := by
  obtain ⟨qs, n, rs, heq, hbegin, hinside, hend⟩ := h
  refine ⟨ps ++ qs, n, rs, ?_, ?_, ?_, ?_⟩
  · rw [List.append_assoc x a g, List.append_assoc x, hparts, heq, List.append_assoc]
  all_goals simp only [List.flatMap_append, List.length_append, hps] at *; omega

theorem scannedApart_of_noneStraddles {gs : List (Text × Directive)} {rest : Text}
    (hlabel : ∀ g ∈ gs, '[' ∉ g.2.label) (h : NoneStraddles ⟨gs, rest⟩) : ScannedApart gs rest := by
  induction gs with
  | nil => trivial
  | cons g gs ih =>
    have hfirst : ¬ Straddles [] g.1
        (RepeatSection.tokenOf g.2.label ++ gs.flatMap held ++ rest) :=
      h 0 (Nat.zero_lt_succ _) g rfl
    refine ⟨hfirst, ih (fun g' hg' => hlabel g' (List.mem_cons_of_mem g hg')) ?_⟩
    intro i hi g' hg' hstraddles
    dsimp only at hi hg' hstraddles
    -- The first gap and its token are scanned apart from what follows them.
    rw [List.append_assoc] at hfirst
    have hparts := parts_held (hlabel g List.mem_cons_self) hfirst
    have hwritten : (parts 0 g.1 ++ (RepeatSection.tokenOf g.2.label).map Part.char).flatMap
        Part.written = held g := by
      rw [List.flatMap_append, Placeholder.flatMap_written_parts, List.flatMap_map]
      exact congrArg (g.1 ++ ·) (List.flatMap_singleton' _)
    have hgs : gs = gs.take i ++ g' :: gs.drop (i + 1) := by
      obtain ⟨hlt, rfl⟩ := List.getElem?_eq_some_iff.mp hg'
      rw [← List.drop_eq_getElem_cons hlt, List.take_append_drop]
    have htail : gs.flatMap held ++ rest = (gs.take i).flatMap held ++ g'.1 ++
        (RepeatSection.tokenOf g'.2.label ++ (gs.drop (i + 1)).flatMap held ++ rest) := by
      conv => lhs; rw [hgs]
      simp [held]
    have hlater : ¬ Straddles (held g ++ (gs.take i).flatMap held) g'.1
        (RepeatSection.tokenOf g'.2.label ++ (gs.drop (i + 1)).flatMap held ++ rest) :=
      h (i + 1) (Nat.succ_lt_succ hi) g' hg'
    refine hlater (straddles_append ?_ hwritten hstraddles)
    rw [← htail]
    exact hparts

end Content

/-! ## Other labels -/

namespace Directive

/-- `g'` is `g`, or its directive has another label, in which there is no bracket and no brace. -/
def Relabels (g g' : Text × Directive) : Prop :=
  g' = g ∨ ∃ label, label ≠ [] ∧ Unmarked label ∧ g' = (g.1, ⟨label, g.2.body⟩)

theorem Relabels.gap_eq {g g' : Text × Directive} (h : Relabels g g') : g'.1 = g.1 := by
  rcases h with rfl | ⟨label, -, -, rfl⟩ <;> rfl

namespace Pieces

/-- The text before, between and behind the directives. -/
def gaps (p : Pieces) : List Text := p.directives.map Prod.fst ++ [p.rest]

theorem gaps_relabel {gs gs' : List (Text × Directive)} (h : List.Forall₂ Relabels gs gs')
    (rest : Text) : gaps ⟨gs', rest⟩ = gaps ⟨gs, rest⟩ := by
  induction h with
  | nil => rfl
  | cons hlabel _ ih => exact congrArg₂ List.cons hlabel.gap_eq ih

/-- What holds of the labels, and of every text without marks, holds of the other labels. -/
theorem forall_label_relabel (P : Text → Prop) (hP : ∀ label, Unmarked label → P label)
    {gs gs' : List (Text × Directive)} (hlabels : List.Forall₂ Relabels gs gs')
    (h : ∀ g ∈ gs, P g.2.label) : ∀ g ∈ gs', P g.2.label := by
  induction hlabels with
  | nil => exact h
  | cons hlabel _ ih =>
    obtain ⟨hfirst, hrest⟩ := List.forall_mem_cons.mp h
    refine List.forall_mem_cons.mpr ⟨?_, ih hrest⟩
    rcases hlabel with rfl | ⟨label, -, hmarks, rfl⟩
    · exact hfirst
    · exact hP label hmarks

/-- The directives of a text are found in their places also with other labels. -/
theorem cuts_relabel {gs gs' : List (Text × Directive)} {rest s : Text}
    (hlabels : List.Forall₂ Relabels gs gs') (h : Cuts .repeated ⟨gs, rest⟩ s) :
    Cuts .repeated ⟨gs', rest⟩ (Pieces.written .repeated ⟨gs', rest⟩) := by
  induction hlabels generalizing s with
  | nil => exact cuts_nil_iff.mpr ⟨rfl, (cuts_nil_iff.mp h).1 ▸ (cuts_nil_iff.mp h).2⟩
  | cons hlabel hlabels ih =>
    rename_i g g' gs gs'
    obtain ⟨after, -, hwell, hgap, hrest⟩ := cuts_cons_iff.mp h
    have hwell' : g'.2.WellFormed .repeated := by
      rcases hlabel with rfl | ⟨label, hne, hmarks, rfl⟩
      · exact hwell
      · exact ⟨hne, hmarks.not_mem rfl, hwell.closer_not_infix⟩
    refine cuts_cons_iff.mpr ⟨_, ?_, hwell', ?_, ih hrest⟩
    · simp [Pieces.written]
    · rw [hlabel.gap_eq]
      intro t ht hne hbegins
      have htag (tail : Text) : t ++ g'.2.written .repeated ++ tail =
          t ++ (DirectiveKind.repeated.opener ++ g'.2.label ++ tagEnd) ++
            (g'.2.body ++ DirectiveKind.repeated.closer ++ tail) := by
        simp [Directive.written]
      rw [htag] at hbegins
      exact hgap t ht hne (Content.begins_of_begins_opened (by decide) (by decide) (by decide)
        hwell hne hwell'.brace_not_mem hbegins after)

end Pieces

end Directive

namespace Content

open Directive (Pieces Relabels)

theorem closing_mem_tokenOf {g g' : Text × Directive} (h : Relabels g g')
    (hmem : ']' ∈ RepeatSection.tokenOf g'.2.label) : ']' ∈ RepeatSection.tokenOf g.2.label := by
  rcases h with rfl | ⟨label, -, hmarks, rfl⟩
  · exact hmem
  · exact absurd hmem (RepeatSection.not_mem_tokenOf (by decide) (hmarks.not_mem rfl))

theorem closing_mem_literal {gs gs' : List (Text × Directive)} {rest : Text}
    (hlabels : List.Forall₂ Relabels gs gs') (hmem : ']' ∈ gs'.flatMap held ++ rest) :
    ']' ∈ gs.flatMap held ++ rest := by
  induction hlabels with
  | nil => exact hmem
  | cons hlabel hlabels ih =>
    simp only [List.flatMap_cons, held, List.append_assoc, List.mem_append, hlabel.gap_eq]
      at hmem ih ⊢
    rcases hmem with hmem | hmem | hmem
    · exact Or.inl hmem
    · exact Or.inr (Or.inl (closing_mem_tokenOf hlabel hmem))
    · exact Or.inr (Or.inr (ih hmem))

theorem scannedApart_relabel {gs gs' : List (Text × Directive)} {rest : Text}
    (hlabels : List.Forall₂ Relabels gs gs') (h : ScannedApart gs rest) :
    ScannedApart gs' rest := by
  induction hlabels with
  | nil => trivial
  | cons hlabel hlabels ih =>
    obtain ⟨hfirst, htail⟩ := h
    refine ⟨fun hstraddles => hfirst ?_, ih htail⟩
    rw [hlabel.gap_eq, List.append_assoc] at hstraddles
    rw [List.append_assoc]
    -- A token begins with a brace, so no bracket is closed directly behind a gap.
    refine Placeholder.straddles_of_straddles hstraddles (fun hmem => ?_) (fun tail htail => ?_)
    · rcases List.mem_append.mp hmem with hmem | hmem
      · exact List.mem_append_left _ (closing_mem_tokenOf hlabel hmem)
      · exact List.mem_append_right _ (closing_mem_literal hlabels hmem)
    · have hc : '{' = ']' := List.head_eq_of_cons_eq htail
      exact absurd hc (by decide)

/-- What a text means when its directives are those of the pieces. -/
theorem ofText_of_cuts {p : Pieces} {s : Text} (hcuts : p.Cuts .repeated s)
    (hopener : ∀ g ∈ p.directives, ¬ DirectiveKind.repeated.opener <:+: g.2.label) :
    ofText s =
      ⟨Placeholder.names (ofPieces p).literal, (ofPieces p).sections, (ofPieces p).literal⟩ := by
  have hsplit := (Pieces.cuts_iff unbordered_repeated_closer).mp hcuts
  have hextract := extract_append (Directive.passed_nil s) (by rwa [hsplit])
  rw [List.nil_append, List.nil_append, hsplit] at hextract
  rw [ofText, hextract]

theorem names_ofPieces {p : Pieces} (hbracket : ∀ g ∈ p.directives, '[' ∉ g.2.label)
    (h : ScannedApart p.directives p.rest) :
    Placeholder.names (ofPieces p).literal =
      (p.gaps.flatMap (Placeholder.scan 0)).eraseDups := by
  rw [Placeholder.names_eq_eraseDups, literal_ofPieces, scan_literal hbracket h]
  rfl

/-- If no bracket pair spans a token and no label has an opening bracket, the variables of a text
are those of its gaps, and other labels change none of them. -/
theorem names_relabel {s : Text}
    (hopener : ∀ g ∈ (Directive.split .repeated s).directives,
      ¬ DirectiveKind.repeated.opener <:+: g.2.label)
    (hapart : NoneStraddles (Directive.split .repeated s))
    (hbracket : ∀ g ∈ (Directive.split .repeated s).directives, '[' ∉ g.2.label) :
    (ofText s).sections =
        (Directive.split .repeated s).directives.map (fun g => RepeatSection.ofDirective g.2) ∧
      (ofText s).names =
        ((Directive.split .repeated s).gaps.flatMap (Placeholder.scan 0)).eraseDups ∧
      ∀ gs', List.Forall₂ Relabels (Directive.split .repeated s).directives gs' →
        (ofText (Pieces.written .repeated ⟨gs', (Directive.split .repeated s).rest⟩)).names =
          (ofText s).names := by
  have hcuts : (Directive.split .repeated s).Cuts .repeated s :=
    (Pieces.cuts_iff unbordered_repeated_closer).mpr rfl
  have hscanned := scannedApart_of_noneStraddles hbracket hapart
  have hnames : (ofText s).names =
      ((Directive.split .repeated s).gaps.flatMap (Placeholder.scan 0)).eraseDups := by
    rw [ofText_of_cuts hcuts hopener]
    exact names_ofPieces hbracket hscanned
  refine ⟨by rw [ofText_of_cuts hcuts hopener]; rfl, hnames, fun gs' hlabels => ?_⟩
  have hcuts' := Pieces.cuts_relabel hlabels hcuts
  have hopener' : ∀ g ∈ gs', ¬ DirectiveKind.repeated.opener <:+: g.2.label := by
    refine Pieces.forall_label_relabel (fun label => ¬ DirectiveKind.repeated.opener <:+: label)
      (fun label hmarks hinfix => ?_) hlabels hopener
    have hbrace : '{' ∈ label := hinfix.subset (by decide)
    exact hmarks.not_mem rfl hbrace
  have hbracket' : ∀ g ∈ gs', '[' ∉ g.2.label :=
    Pieces.forall_label_relabel (fun label => '[' ∉ label) (fun label hmarks => hmarks.not_mem rfl)
      hlabels hbracket
  have hnames' := names_ofPieces (p := ⟨gs', (Directive.split .repeated s).rest⟩) hbracket'
    (scannedApart_relabel hlabels hscanned)
  rw [Pieces.gaps_relabel hlabels] at hnames'
  rw [ofText_of_cuts hcuts' hopener', hnames]
  exact hnames'

/-- `[] [x]`, a directive whose label has a closing bracket and a brace, `][z[x]`, a second
directive, `[x] [open`, a third one, and `tail`. -/
def labelledText : Text :=
  ("[] [x]" ++ "\x7b\x7brepeat:]\x7bl\x7d\x7d" ++ "[y]{{/repeat}}][z[x]" ++
    "{{repeat:m}}no{{/repeat}}" ++ "[x] [open" ++ "{{repeat:n}}{{/repeat}}" ++ "tail").toList

theorem split_labelledText : Directive.split .repeated labelledText =
    ⟨[("[] [x]".toList, ⟨"]\x7bl".toList, "[y]".toList⟩),
      ("][z[x]".toList, ⟨['m'], "no".toList⟩), ("[x] [open".toList, ⟨['n'], []⟩)],
      "tail".toList⟩ := by
  decide +kernel

theorem names_relabel_labelledText :
    (∀ g ∈ (Directive.split .repeated labelledText).directives,
      ¬ DirectiveKind.repeated.opener <:+: g.2.label ∧ '[' ∉ g.2.label) ∧
    NoneStraddles (Directive.split .repeated labelledText) ∧
    (ofText labelledText).names = [['x'], "z[x".toList] ∧
    (ofText ("[] [x]{{repeat:l}}[y]{{/repeat}}][z[x]{{repeat:m}}no{{/repeat}}[x] [open".toList ++
      "{{repeat:other}}{{/repeat}}tail".toList)).names = [['x'], "z[x".toList] := by
  have hopener : ∀ g ∈ (Directive.split .repeated labelledText).directives,
      ¬ DirectiveKind.repeated.opener <:+: g.2.label := by
    rw [split_labelledText]
    decide
  have hbracket : ∀ g ∈ (Directive.split .repeated labelledText).directives,
      '[' ∉ g.2.label := by
    rw [split_labelledText]
    decide
  have hapart : NoneStraddles (Directive.split .repeated labelledText) := by
    rw [split_labelledText]
    unfold NoneStraddles
    decide +kernel
  obtain ⟨-, hnames, hrelabel⟩ := names_relabel hopener hapart hbracket
  have hnames : (ofText labelledText).names = [['x'], "z[x".toList] := by
    rw [hnames, split_labelledText]
    decide +kernel
  have hlabels : List.Forall₂ Relabels (Directive.split .repeated labelledText).directives
      [("[] [x]".toList, ⟨['l'], "[y]".toList⟩), ("][z[x]".toList, ⟨['m'], "no".toList⟩),
        ("[x] [open".toList, ⟨"other".toList, []⟩)] := by
    rw [split_labelledText]
    refine .cons (Or.inr ⟨['l'], by decide, by decide, rfl⟩) (.cons (Or.inl rfl) (.cons ?_ .nil))
    exact Or.inr ⟨"other".toList, by decide, by decide, rfl⟩
  refine ⟨fun g hg => ⟨hopener g hg, hbracket g hg⟩, hapart, hnames, ?_⟩
  have hother := hrelabel _ hlabels
  rw [split_labelledText, hnames] at hother
  exact hother

/-- Another label, which no other directive has, can change the variables, for a placeholder in a
label is read as one of them. -/
theorem label_read_as_placeholder :
    ¬ ∀ s,
      (∀ g ∈ (Directive.split .repeated s).directives,
        ¬ DirectiveKind.repeated.opener <:+: g.2.label) →
      NoneStraddles (Directive.split .repeated s) →
      ∀ ds g es, (Directive.split .repeated s).directives = ds ++ g :: es →
      ∀ label, label ≠ [] → Unmarked label → (∀ g' ∈ ds ++ es, g'.2.label ≠ label) →
        (ofText (Pieces.written .repeated ⟨ds ++ (g.1, ⟨label, g.2.body⟩) :: es,
          (Directive.split .repeated s).rest⟩)).names = (ofText s).names := by
  intro h
  have hsplit : Directive.split .repeated "{{repeat:[x]}}[Item]{{/repeat}}".toList =
      ⟨[([], ⟨"[x]".toList, "[Item]".toList⟩)], []⟩ := by
    decide +kernel
  have h := h "{{repeat:[x]}}[Item]{{/repeat}}".toList
  rw [hsplit] at h
  have hnames := h (by decide) (by unfold NoneStraddles; decide +kernel) [] _ [] rfl ['r']
    (by decide) (by decide) (by decide)
  exact absurd hnames (by decide +kernel)

end Content

end NoteTemplate
