import NoteTemplate.Proofs.Rendering.Characters
import NoteTemplate.Proofs.Template.Scanning

/-!
# Substitution in a single pass

The variables of a text are replaced one after the other, each by a search for `[name]` in what
the replacements before it have left. The scan tells placeholders in another way: from the first
opening bracket to the next closing one. Both agree as long as no name ends with a bracket and
another name, and no value has an opening bracket.

* `replaceAll_partly`: one replacement puts in the value of its own placeholders and leaves all
  other parts as they are.
* `foldl_substitute_eq_fill`: all replacements together fill the text in a single pass.
* `Document.assemble_undirected`: the note of a source without directives.
-/

namespace NoteTemplate

open Text

namespace Placeholder

/-! ## Placeholders inside placeholders -/

/-- None of the names ends with an opening bracket and another of the names. -/
def Independent (names : List Text) : Prop :=
  ∀ n ∈ names, ∀ m ∈ names, ¬ ('[' :: m) <:+ n

instance (names : List Text) : Decidable (Independent names) :=
  List.decidableBAll (fun n => ∀ m ∈ names, ¬ ('[' :: m) <:+ n) names

theorem independent_of_not_mem {names : List Text} (h : ∀ n ∈ names, '[' ∉ n) :
    Independent names := by
  intro n hn m _ hends
  exact h n hn (hends.subset List.mem_cons_self)

theorem avoids_written {name other : Text} (hne : name ≠ other) (hname : ']' ∉ name)
    (hother : ']' ∉ other) (hends : ¬ ('[' :: name) <:+ other) :
    Avoids (written name) (written other) := by
  intro t ht htne rest hp
  have hclosed : written other = ('[' :: other) ++ [']'] := rfl
  rw [hclosed] at ht
  rcases List.suffix_concat_iff.mp ht with rfl | ⟨u, rfl, hu⟩
  · exact htne rfl
  cases u with
  | nil =>
    have hc : '[' = ']' := (List.cons_prefix_cons.mp hp).1
    exact absurd hc (by decide)
  | cons c u =>
    have hc : '[' = c := (List.cons_prefix_cons.mp hp).1
    have hrest : name ++ [']'] <+: u ++ [']'] ++ rest := (List.cons_prefix_cons.mp hp).2
    subst hc
    -- Both texts end at the first closing bracket, so the name is all that is left of `other`.
    have hclosing : ']' ∉ u := by
      intro hmem
      rcases List.mem_cons.mp (hu.subset (List.mem_cons_of_mem '[' hmem)) with hc | hc
      · exact absurd hc (by decide)
      · exact hother hc
    have hname : name = u := by
      refine eq_of_prefix_stop (s := []) (t := rest) hname hclosing ?_
      simpa using hrest
    subst hname
    rcases List.suffix_cons_iff.mp hu with heq | hu
    · exact hne (List.cons_injective heq)
    · exact hends hu

/-! ## One replacement -/

section Replacements

variable {value? : Text → Option Text}

/-- A part with its value if its name is one of those that are `done`. -/
def Part.partly (value? : Text → Option Text) (done : List Text) : Part → Text
  | char c => [c]
  | name n =>
    if done.contains n then markBreaks ((value? n).getD []) else Placeholder.written n

theorem partly_of_mem {done : List Text} {n : Text} (h : n ∈ done) :
    Part.partly value? done (.name n) = markBreaks ((value? n).getD []) :=
  if_pos (List.contains_iff_mem.mpr h)

theorem partly_of_not_mem {done : List Text} {n : Text} (h : n ∉ done) :
    Part.partly value? done (.name n) = written n :=
  if_neg fun hmem => h (List.contains_iff_mem.mp hmem)

/-- Behind an opening bracket that begins no placeholder there is a closing one at once, or none
at all. In neither case can a search find a placeholder there. -/
theorem not_prefix_partly {c : Char} {cs name : Text} (hbegins : ¬ Begins (c :: cs))
    (hne : name ≠ []) (hname : ']' ∉ name) (done : List Text) :
    ¬ written name <+: c :: (parts 0 cs).flatMap (Part.partly value? done) := by
  intro hp
  have hc : '[' = c := (List.cons_prefix_cons.mp hp).1
  have hrest : name ++ [']'] <+: (parts 0 cs).flatMap (Part.partly value? done) :=
    (List.cons_prefix_cons.mp hp).2
  subst hc
  by_cases hclosing : ']' ∈ cs
  · obtain ⟨a, b, rfl, ha⟩ := List.eq_append_cons_of_mem hclosing
    cases a with
    | nil =>
      have hchar : ¬ Begins (']' :: b) := fun hb => absurd (begins_cons_iff.mp hb).1 (by decide)
      obtain ⟨d, ds, rfl⟩ := List.exists_cons_of_ne_nil hne
      rw [List.nil_append, parts_cons hchar] at hrest
      have hd : d = ']' := (List.cons_prefix_cons.mp hrest).1
      exact hname (hd ▸ List.mem_cons_self)
    | cons d ds => exact hbegins ⟨d :: ds, b, by simp [written], List.cons_ne_nil d ds, ha⟩
  · have hkept : (parts 0 cs).flatMap (Part.partly value? done) = cs := by
      rw [parts_of_closing_not_mem hclosing, List.flatMap_map]
      exact List.flatMap_singleton' cs
    rw [hkept] at hrest
    exact hclosing (hrest.subset (by simp))

/-- Replacing a variable puts its value in the place of its placeholders, and nothing else. -/
theorem replaceAll_partly {name s : Text} (hne : name ≠ []) (hname : ']' ∉ name)
    {done : List Text} (hvalue : ∀ n ∈ done, '[' ∉ markBreaks ((value? n).getD []))
    (hends : ∀ n ∈ scan 0 s, ¬ ('[' :: name) <:+ n) :
    substitute name (value? name) ((parts 0 s).flatMap (Part.partly value? done)) =
      (parts 0 s).flatMap (Part.partly value? (name :: done)) := by
  have hneedle : written name ≠ [] := List.cons_ne_nil _ _
  unfold substitute
  induction s using scan_induction with
  | nil => rfl
  | char c cs hbegins ih =>
    rw [scan_cons hbegins] at hends
    rw [parts_cons hbegins, List.flatMap_cons, List.flatMap_cons, ← ih hends]
    exact replaceAll_cons_of_not_prefix (not_prefix_partly hbegins hne hname done) _
  | name n s hn hclosing ih =>
    rw [scan_written_append hn hclosing] at hends
    have ih := ih fun m hm => hends m (List.mem_cons_of_mem n hm)
    rw [parts_written_append hn hclosing, List.flatMap_cons, List.flatMap_cons, ← ih]
    by_cases hdone : n ∈ done
    · have havoids : Avoids (written name) (markBreaks ((value? n).getD [])) :=
        avoids_of_not_mem (hvalue n hdone)
      rw [partly_of_mem hdone, partly_of_mem (List.mem_cons_of_mem name hdone),
        replaceAll_append havoids]
    · rw [partly_of_not_mem hdone]
      by_cases heq : n = name
      · subst heq
        rw [partly_of_mem List.mem_cons_self, replaceAll_needle_append hneedle]
      · have havoids : Avoids (written name) (written n) :=
          avoids_written (Ne.symm heq) hname hclosing (hends n List.mem_cons_self)
        have hother : n ∉ name :: done := fun hmem => (List.mem_cons.mp hmem).elim heq hdone
        rw [partly_of_not_mem hother, replaceAll_append havoids]

/-! ## All replacements -/

/-- With each replacement a name goes over to those that are done, until all are. -/
theorem foldl_substitute_partly {s : Text} {todo done : List Text}
    (htodo : ∀ n ∈ todo, n ∈ scan 0 s) (hdone : ∀ n ∈ done, n ∈ scan 0 s)
    (hall : ∀ n ∈ scan 0 s, n ∈ todo ∨ n ∈ done) (hnames : Independent (names s))
    (hvalue : ∀ n ∈ names s, '[' ∉ markBreaks ((value? n).getD [])) :
    todo.foldl (fun t n => substitute n (value? n) t)
        ((parts 0 s).flatMap (Part.partly value? done)) = fill value? s := by
  induction todo generalizing done with
  | nil =>
    refine List.flatMap_congr fun p hp => ?_
    cases p with
    | char c => rfl
    | name n =>
      have hn := (hall n (name_mem_parts.mp hp)).resolve_left List.not_mem_nil
      exact partly_of_mem hn
  | cons name todo ih =>
    have hname := htodo name List.mem_cons_self
    obtain ⟨hne, hclosing⟩ := ne_nil_and_not_mem_of_scan hname
    have hends : ∀ n ∈ scan 0 s, ¬ ('[' :: name) <:+ n := by
      intro n hn
      exact hnames n (mem_names_iff.mpr hn) name (mem_names_iff.mpr hname)
    have hvalues : ∀ n ∈ done, '[' ∉ markBreaks ((value? n).getD []) := by
      intro n hn
      exact hvalue n (mem_names_iff.mpr (hdone n hn))
    rw [List.foldl_cons, replaceAll_partly hne hclosing hvalues hends]
    refine ih (fun n hn => htodo n (List.mem_cons_of_mem name hn)) (fun n hn => ?_) fun n hn => ?_
    · rcases List.mem_cons.mp hn with rfl | hn
      · exact hname
      · exact hdone n hn
    · rcases hall n hn with h | h
      · rcases List.mem_cons.mp h with rfl | h
        · exact Or.inr List.mem_cons_self
        · exact Or.inl h
      · exact Or.inr (List.mem_cons_of_mem name h)

/-- Replacing the variables of a text one after the other fills it in a single pass. -/
theorem foldl_substitute_eq_fill {s : Text} (hnames : Independent (names s))
    (hvalue : ∀ n ∈ names s, '[' ∉ markBreaks ((value? n).getD [])) :
    (names s).foldl (fun t n => substitute n (value? n) t) s = fill value? s := by
  have hstart : (parts 0 s).flatMap (Part.partly value? []) = s := by
    conv => rhs; rw [← flatMap_written_parts s]
    refine List.flatMap_congr fun p _ => ?_
    cases p with
    | char c => rfl
    | name n => rfl
  have h : (names s).foldl (fun t n => substitute n (value? n) t)
      ((parts 0 s).flatMap (Part.partly value? [])) = fill value? s :=
    foldl_substitute_partly (fun n hn => mem_names_iff.mp hn)
      (fun n hn => absurd hn List.not_mem_nil) (fun n hn => Or.inl (mem_names_iff.mpr hn)) hnames
      hvalue
  rwa [hstart] at h

end Replacements

theorem bracket_not_mem_markBreaks {value : Option Text} (h : ∀ v ∈ value, '[' ∉ v) :
    '[' ∉ markBreaks (value.getD []) :=
  not_mem_markBreaks_getD (by decide) h

end Placeholder

/-! ## Sources without directives -/

namespace Document

/-- A source in which no complete directive begins, be it optional or repeated, makes a note in a
single pass: whatever brackets, tags and braces stand in it, each placeholder that the scan meets
gives way to the value of its name, and every other character is copied. -/
theorem assemble_undirected {source : Text} {a : Answers}
    (hoptional : ∀ t, t <:+ source → ¬ Directive.Begins .optional t)
    (hrepeated : ∀ t, t <:+ source → ¬ Directive.Begins .repeated t)
    (hnames : Placeholder.Independent (Placeholder.names source))
    (hvalue : ∀ n ∈ Placeholder.names source, ∀ v ∈ a.value? n, '[' ∉ v) :
    (Placeholder.parts 0 source).flatMap Placeholder.Part.written = source ∧
      (Placeholder.parts 0 source).filterMap Placeholder.Part.name? = Placeholder.scan 0 source ∧
      (parse source).assemble a.toValues =
        if isBlank source then [] else Placeholder.fill a.value? source := by
  refine ⟨Placeholder.flatMap_written_parts source, Placeholder.filterMap_name?_parts source, ?_⟩
  have hblocks : (parse source).blocks = Block.ofGap source := by
    rw [parse, Directive.split_of_find?_eq_none (Directive.find?_eq_none_iff.mpr hoptional)]
    rfl
  have hcontent : Content.ofText source = ⟨Placeholder.names source, [], source⟩ := by
    rw [Content.ofText,
      Content.extract_of_find?_eq_none (Directive.find?_eq_none_iff.mpr hrepeated)]
  rw [assemble, hblocks, Block.ofGap]
  split
  · rfl
  · have hfill : (Content.ofText source).fill a.toValues repeatNamespace =
        Placeholder.fill a.value? source := by
      rw [hcontent]
      exact Placeholder.foldl_substitute_eq_fill hnames fun n hn =>
        Placeholder.bracket_not_mem_markBreaks (hvalue n hn)
    simp [Block.render, hfill]

/-- `x][a[b]] [] [c] {{/repeat}}{{optional:o}}[a[b][{{repeat:r}}` -/
def bracketSoup : Text :=
  ("x][a[b]] [] [c] " ++ "{{/repeat}}{{optional:o}}" ++ "[a[b][" ++ "{{repeat:r}}").toList

/-- A value with a line break and a closing bracket, for one of the two names. -/
def soupAnswers : Answers := Answers.empty.setValue "a[b".toList "1\n2]".toList

theorem assemble_undirected_bracketSoup :
    (∀ t, t <:+ bracketSoup → ¬ Directive.Begins .optional t) ∧
      (∀ t, t <:+ bracketSoup → ¬ Directive.Begins .repeated t) ∧
      Placeholder.Independent (Placeholder.names bracketSoup) ∧
      (parse bracketSoup).assemble soupAnswers.toValues =
        ("x]1<br>2]] []  " ++ "{{/repeat}}{{optional:o}}" ++ "1<br>2][" ++ "{{repeat:r}}").toList := by
  have hoptional : ∀ t, t <:+ bracketSoup → ¬ Directive.Begins .optional t :=
    Directive.find?_eq_none_iff.mp (by decide +kernel)
  have hrepeated : ∀ t, t <:+ bracketSoup → ¬ Directive.Begins .repeated t :=
    Directive.find?_eq_none_iff.mp (by decide +kernel)
  have hnames : Placeholder.Independent (Placeholder.names bracketSoup) := by decide +kernel
  have hvalue : ∀ n ∈ Placeholder.names bracketSoup, ∀ v ∈ soupAnswers.value? n, '[' ∉ v := by
    decide +kernel
  refine ⟨hoptional, hrepeated, hnames, ?_⟩
  obtain ⟨-, -, hnote⟩ := assemble_undirected hoptional hrepeated hnames hvalue
  rw [hnote]
  decide +kernel

end Document

end NoteTemplate
