import NoteTemplate.Answers.Basic
import NoteTemplate.Proofs.OrderedMap
import NoteTemplate.Proofs.Template.Splitting
import NoteTemplate.Proofs.Text.LineBreak
import NoteTemplate.Rendering

/-!
# The characters of a note

A note has no characters of its own making. Each comes from the template, from a value as it is
put in, or from the token that holds the place of a section.

* `Content.lacks_ofText`: a content has the characters of its text and those of a token.
* `Document.not_mem_assemble`: a character that neither the template nor a token nor any value
  has is not part of the note.
* `Document.unbroken_assemble`: values bring no line breaks into a note, whatever they are.
-/

namespace NoteTemplate

open Text

variable {c : Char}

/-! ## Contents -/

theorem Placeholder.subset_of_mem_scan {skip : Nat} {s name : Text} (h : name ∈ scan skip s) :
    name ⊆ s := by
  induction s generalizing skip with
  | nil => simp [scan] at h
  | cons d ds ih =>
    cases skip with
    | succ k => exact List.subset_cons_of_subset d (ih h)
    | zero =>
      rw [scan] at h
      split at h
      · rcases List.mem_cons.mp h with rfl | h
        · exact List.subset_cons_of_subset d (List.takeWhile_subset _)
        · exact List.subset_cons_of_subset d (ih h)
      · exact List.subset_cons_of_subset d (ih h)

/-- The character occurs nowhere in the content. -/
structure Content.Lacks (c : Char) (k : Content) : Prop where
  literal : c ∉ k.literal
  name : ∀ name ∈ k.names, c ∉ name
  label : ∀ s ∈ k.sections, c ∉ s.label
  body : ∀ s ∈ k.sections, c ∉ s.content

theorem Content.not_mem_extract (htoken : c ∉ RepeatSection.tokenOf []) {s : Text} (hs : c ∉ s) :
    c ∉ (extract s).literal ∧
      ∀ r ∈ (extract s).sections, c ∉ r.label ∧ c ∉ r.content := by
  induction hn : s.length using Nat.strongRecOn generalizing s with
  | _ n ih =>
    subst hn
    cases hfind : Directive.find? .repeated s with
    | none =>
      rw [extract_of_find?_eq_none hfind]
      exact ⟨hs, fun r hr => by cases hr⟩
    | some f =>
      rw [Directive.eq_of_find? hfind] at hs
      simp only [Directive.written, List.mem_append, not_or] at hs
      obtain ⟨⟨hbefore, ⟨⟨⟨-, hlabel⟩, -⟩, hbody⟩, -⟩, hafter⟩ := hs
      have hrest : c ∉ withToken f := by
        simp only [withToken, List.mem_append, not_or]
        exact ⟨⟨hbefore, RepeatSection.not_mem_tokenOf htoken hlabel⟩, hafter⟩
      have hlt : (withToken f).length < s.length := by
        have := length_withToken hfind
        omega
      obtain ⟨hliteral, hsections⟩ := ih _ hlt hrest rfl
      rw [extract_of_find?_eq_some hfind]
      refine ⟨hliteral, fun r hr => ?_⟩
      rcases List.mem_cons.mp hr with rfl | hr
      · exact ⟨hlabel, hbody⟩
      · exact hsections r hr

theorem Content.lacks_ofText (htoken : c ∉ RepeatSection.tokenOf []) {s : Text} (hs : c ∉ s) :
    (ofText s).Lacks c := by
  obtain ⟨hliteral, hsections⟩ := not_mem_extract htoken hs
  refine ⟨hliteral, fun name hname hmem => ?_, fun r hr => (hsections r hr).1,
    fun r hr => (hsections r hr).2⟩
  exact hliteral (Placeholder.subset_of_mem_scan (Placeholder.mem_names_iff.mp hname) hmem)

/-! ## Values -/

theorem Answers.exists_of_mem_items {a : Answers} {ns : Text} {item : Item}
    (h : item ∈ a.items ns) : ∃ n ∈ a.namespaces.entries, item ∈ n.2 := by
  rw [items] at h
  cases hns : a.namespaces.find? ns with
  | none =>
    rw [hns] at h
    cases h
  | some items =>
    rw [hns] at h
    exact ⟨_, OrderedMap.mem_of_find? hns, h⟩

/-- No value, as it is put in, has the character. -/
structure Values.Lacks (c : Char) (v : Values) : Prop where
  value : ∀ name, c ∉ markBreaks ((v.value? name).getD [])
  item : ∀ ns index name, c ∉ markBreaks ((v.item? ns index name).getD [])

/-! ## Notes -/

theorem not_mem_replaceAll {needle new s : Text} (hnew : c ∉ new) (hs : c ∉ s) :
    c ∉ replaceAll needle new s := fun h => (mem_replaceAll h).elim hnew hs

theorem not_mem_foldl_replaceAll {α : Type} {needle new : α → Text} (xs : List α)
    (hnew : ∀ x ∈ xs, c ∉ new x) {s : Text} (hs : c ∉ s) :
    c ∉ xs.foldl (fun t x => replaceAll (needle x) (new x) t) s := by
  induction xs generalizing s with
  | nil => exact hs
  | cons x xs ih =>
    rw [List.foldl_cons]
    refine ih (fun y hy => hnew y (List.mem_cons_of_mem x hy)) ?_
    exact not_mem_replaceAll (hnew x List.mem_cons_self) hs

theorem Content.not_mem_substituted {k : Content} (hk : k.Lacks c) {v : Values}
    (hv : v.Lacks c) : c ∉ k.substituted v :=
  not_mem_foldl_replaceAll k.names (fun name _ => hv.value name) hk.literal

theorem RepeatSection.not_mem_expansion {s : RepeatSection} (hs : c ∉ s.content) {v : Values}
    (hv : v.Lacks c) (ns : Text) : c ∉ s.expansion v ns := by
  intro hmem
  obtain ⟨index, -, hitem⟩ := List.mem_flatMap.mp hmem
  exact not_mem_foldl_replaceAll s.names (fun name _ => hv.item ns index name) hs hitem

theorem Content.not_mem_fill {k : Content} (hk : k.Lacks c) {v : Values} (hv : v.Lacks c)
    (ns : Text) : c ∉ k.fill v ns :=
  not_mem_foldl_replaceAll k.sections (fun s hs => s.not_mem_expansion (hk.body s hs) hv ns)
    (k.not_mem_substituted hk hv)

theorem Block.not_mem_render {b : Block} (hb : b.content.Lacks c) {v : Values} (hv : v.Lacks c) :
    c ∉ b.render v := by
  cases b with
  | plain k => exact k.not_mem_fill hb hv repeatNamespace
  | optional label k =>
    rw [Block.render]
    split
    · exact k.not_mem_fill hb hv repeatNamespace
    · exact List.not_mem_nil

theorem Document.exists_ofText {source : Text} {b : Block} (hb : b ∈ (parse source).blocks) :
    ∃ t, t <:+: source ∧ b.content = Content.ofText t := by
  let p := Directive.split .optional source
  have hcuts : p.Cuts .optional source := (Directive.Pieces.cuts_iff unbordered_closer).mpr rfl
  have hblocks : (parse source).blocks = p.spans.filterMap Block.ofSpan? := blocks_ofPieces p
  rw [hblocks] at hb
  obtain ⟨s, hs, hblock⟩ := List.mem_filterMap.mp hb
  have hinfix : s.written .optional <:+: source := by
    rw [← hcuts.written, List.flatMap_def]
    exact List.infix_of_mem_flatten (List.mem_map_of_mem hs)
  cases s with
  | gap gap =>
    rw [Block.ofSpan?] at hblock
    split at hblock
    · cases hblock
    · cases hblock
      exact ⟨gap, hinfix, rfl⟩
  | directive d =>
    cases hblock
    refine ⟨d.body, List.IsInfix.trans ?_ hinfix, rfl⟩
    exact ⟨_, DirectiveKind.optional.closer, rfl⟩

theorem Document.lacks_content (htoken : c ∉ RepeatSection.tokenOf []) {source : Text}
    (hsource : c ∉ source) {b : Block} (hb : b ∈ (parse source).blocks) : b.content.Lacks c := by
  obtain ⟨t, ht, hcontent⟩ := exists_ofText hb
  rw [hcontent]
  exact Content.lacks_ofText htoken fun hmem => hsource (ht.subset hmem)

/-- A character that neither the template nor a token nor any value has is not part of the
note. -/
theorem Document.not_mem_assemble (htoken : c ∉ RepeatSection.tokenOf []) {source : Text}
    (hsource : c ∉ source) {v : Values} (hv : v.Lacks c) : c ∉ (parse source).assemble v := by
  intro hmem
  obtain ⟨b, hb, hc⟩ := List.mem_flatMap.mp hmem
  exact b.not_mem_render (lacks_content htoken hsource hb) hv hc

/-! ## Line breaks -/

theorem Values.lacks_break (hc : c = '\r' ∨ c = '\n') (v : Values) : v.Lacks c :=
  ⟨fun _ => break_not_mem_markBreaks hc _, fun _ _ _ => break_not_mem_markBreaks hc _⟩

theorem Document.break_not_mem_assemble (hc : c = '\r' ∨ c = '\n') {source : Text}
    (hsource : c ∉ source) (v : Values) : c ∉ (parse source).assemble v := by
  have htoken : c ∉ RepeatSection.tokenOf [] := by
    rcases hc with rfl | rfl <;> decide
  exact not_mem_assemble htoken hsource (v.lacks_break hc)

/-- A template on one line makes a note on one line, whatever the answers are. -/
theorem Document.unbroken_assemble {source : Text} (hr : '\r' ∉ source) (hn : '\n' ∉ source)
    (a : Answers) :
    '\r' ∉ (parse source).assemble a.toValues ∧ '\n' ∉ (parse source).assemble a.toValues :=
  ⟨break_not_mem_assemble (Or.inl rfl) hr a.toValues,
    break_not_mem_assemble (Or.inr rfl) hn a.toValues⟩

/-- `[A][B]{{repeat:r}}[X];{{/repeat}}` -/
def oneLine : Text :=
  "[A][B]".toList ++ Directive.written .repeated ⟨['r'], "[X];".toList⟩

/-- Every kind of line break, in values that are read again as a placeholder and as a token. -/
def brokenAnswers : Answers :=
  let values := (Answers.empty.setValue ['A'] "\r\n[B]".toList).setValue ['B']
    "\r{{section:r}}".toList
  (values.setItem repeatNamespace 0 ['X'] "\n\r".toList).setItem repeatNamespace 1 ['X']
    "\r\r\n".toList

theorem Document.unbroken_assemble_oneLine :
    ('\r' ∉ oneLine ∧ '\n' ∉ oneLine) ∧
      '\n' ∉ (parse oneLine).assemble brokenAnswers.toValues ∧
      (parse oneLine).assemble brokenAnswers.toValues =
        "<br><br><br><br>;<br><br>;<br><br><br>;<br><br>;<br><br>;<br><br>;".toList := by
  have hline : '\r' ∉ oneLine ∧ '\n' ∉ oneLine := by decide
  refine ⟨hline, (unbroken_assemble hline.1 hline.2 brokenAnswers).2, ?_⟩
  decide +kernel

end NoteTemplate
