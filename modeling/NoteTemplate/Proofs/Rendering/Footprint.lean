import Mathlib.Data.List.Basic
import NoteTemplate.Proofs.Answers.ItemCount
import NoteTemplate.Proofs.Answers.Same
import NoteTemplate.Rendering

/-!
# What a note depends on

A note reads the choices of the optional blocks, and of the blocks that are wanted the values of
their variables and the items of their sections up to the first gap. Nothing else that a store of
answers holds has an influence on it.

* `Document.Agree`: two stores hold the same of all that a note reads.
* `Document.assemble_of_agree`: such stores make the same note.
* `Document.assemble_footprint`: this, and what a note does not read: the order of the answers,
  other namespaces, items behind a gap, and names that no wanted block has.
-/

namespace NoteTemplate

variable {v w : Values} {ns : Text}

/-! ## Sections and contents -/

theorem any_congr_of_mem {α : Type} {xs : List α} {p q : α → Bool} (h : ∀ x ∈ xs, p x = q x) :
    xs.any p = xs.any q := by
  rw [Bool.eq_iff_iff, List.any_eq_true, List.any_eq_true]
  refine exists_congr fun x => and_congr_right fun hx => ?_
  rw [h x hx]

theorem Values.hasItem_zero (v : Values) (ns name : Text) :
    v.hasItem ns 0 name = decide (0 < v.itemCount ns name) := by
  obtain ⟨hgap, hcount⟩ := v.itemCount_spec ns name
  by_cases h : 0 < v.itemCount ns name
  · rw [hcount 0 h, decide_eq_true h]
  · rw [Nat.eq_zero_of_not_pos h] at hgap
    rw [hgap, decide_eq_false h]

namespace RepeatSection

variable {s : RepeatSection}

theorem itemCount_congr
    (h : ∀ first ∈ s.first?, v.itemCount ns first = w.itemCount ns first) :
    s.itemCount v ns = s.itemCount w ns := by
  rw [itemCount, itemCount]
  cases hfirst : s.first? with
  | none => rfl
  | some first => exact h first hfirst

theorem item_congr {i : Nat} (h : ∀ name ∈ s.names, v.item? ns i name = w.item? ns i name) :
    s.item v ns i = s.item w ns i := by
  refine List.foldl_ext _ _ _ fun t name hname => ?_
  rw [h name hname]

theorem expansion_congr (hcount : s.itemCount v ns = s.itemCount w ns)
    (hitem : ∀ i < s.itemCount v ns, ∀ name ∈ s.names, v.item? ns i name = w.item? ns i name) :
    s.expansion v ns = s.expansion w ns := by
  rw [expansion, expansion, ← hcount]
  refine List.flatMap_congr fun i hi => ?_
  exact item_congr (hitem i (List.mem_range.mp hi))

end RepeatSection

namespace Content

variable {k : Content}

theorem substituted_congr (h : ∀ name ∈ k.names, v.value? name = w.value? name) :
    k.substituted v = k.substituted w := by
  refine List.foldl_ext _ _ _ fun t name hname => ?_
  rw [h name hname]

theorem fill_congr (hvalue : ∀ name ∈ k.names, v.value? name = w.value? name)
    (hexpansion : ∀ s ∈ k.sections, s.expansion v ns = s.expansion w ns) :
    k.fill v ns = k.fill w ns := by
  rw [fill, fill, substituted_congr hvalue]
  refine List.foldl_ext _ _ _ fun t s hs => ?_
  rw [hexpansion s hs]

/-- The look at item 0 tells no more than the number of items. -/
theorem observable_congr (hvalue : ∀ name ∈ k.names, v.value? name = w.value? name)
    (hcount : ∀ s ∈ k.sections, ∀ first ∈ s.first?,
      v.itemCount repeatNamespace first = w.itemCount repeatNamespace first) :
    k.observable v = k.observable w := by
  have hnames : k.names.any (fun name => (v.value? name).any fun value => !Text.isBlank value) =
      k.names.any (fun name => (w.value? name).any fun value => !Text.isBlank value) := by
    refine any_congr_of_mem fun name hname => ?_
    rw [hvalue name hname]
  have hsections : k.sections.any (fun s => s.first?.any fun first =>
        v.hasItem repeatNamespace 0 first) =
      k.sections.any (fun s => s.first?.any fun first => w.hasItem repeatNamespace 0 first) := by
    refine any_congr_of_mem fun s hs => ?_
    cases hfirst : s.first? with
    | none => rfl
    | some first =>
      rw [Option.any_some, Option.any_some, Values.hasItem_zero, Values.hasItem_zero,
        hcount s hs first hfirst]
  rw [observable, observable, hnames, hsections]

end Content

/-! ## Documents -/

namespace Document

variable {d : Document} {a b : Answers}

/-- The contents that a note is made of: those of the plain blocks and of the optional blocks
that are included. -/
def wanted (d : Document) (a : Answers) : List Content :=
  (d.blocks.filter fun block => block.label?.all a.included).map Block.content

/-- Two stores hold the same of all that a note reads. -/
structure Agree (d : Document) (a b : Answers) : Prop where
  included : ∀ block ∈ d.blocks, ∀ label ∈ block.label?, a.included label = b.included label
  value : ∀ k ∈ d.wanted a, ∀ name ∈ k.names, a.value? name = b.value? name
  count : ∀ k ∈ d.wanted a, ∀ s ∈ k.sections, ∀ first ∈ s.first?,
    a.nextFree repeatNamespace first = b.nextFree repeatNamespace first
  item : ∀ k ∈ d.wanted a, ∀ s ∈ k.sections, ∀ first ∈ s.first?,
    ∀ i < a.nextFree repeatNamespace first, ∀ name ∈ s.names,
      a.item? repeatNamespace i name = b.item? repeatNamespace i name

theorem mem_wanted {block : Block} (hblock : block ∈ d.blocks)
    (h : ∀ label ∈ block.label?, a.included label = true) : block.content ∈ d.wanted a := by
  refine List.mem_map_of_mem (List.mem_filter.mpr ⟨hblock, ?_⟩)
  exact (Option.all_eq_true _ _).mpr h

namespace Agree

theorem count_values (h : d.Agree a b) {k : Content} (hk : k ∈ d.wanted a) {s : RepeatSection}
    (hs : s ∈ k.sections) :
    ∀ first ∈ s.first?, a.toValues.itemCount repeatNamespace first =
      b.toValues.itemCount repeatNamespace first := by
  intro first hfirst
  rw [Answers.itemCount_toValues, Answers.itemCount_toValues]
  exact h.count k hk s hs first hfirst

theorem expansion (h : d.Agree a b) {k : Content} (hk : k ∈ d.wanted a) {s : RepeatSection}
    (hs : s ∈ k.sections) :
    s.expansion a.toValues repeatNamespace = s.expansion b.toValues repeatNamespace := by
  refine RepeatSection.expansion_congr
    (RepeatSection.itemCount_congr (h.count_values hk hs)) fun i hi name hname => ?_
  rw [RepeatSection.itemCount] at hi
  cases hfirst : s.first? with
  | none =>
    rw [hfirst] at hi
    exact absurd hi (Nat.not_lt_zero i)
  | some first =>
    rw [hfirst] at hi
    dsimp only at hi
    rw [Answers.itemCount_toValues] at hi
    exact h.item k hk s hs first hfirst i hi name hname

theorem fill (h : d.Agree a b) {k : Content} (hk : k ∈ d.wanted a) :
    k.fill a.toValues repeatNamespace = k.fill b.toValues repeatNamespace :=
  Content.fill_congr (h.value k hk) fun _ hs => h.expansion hk hs

theorem observable (h : d.Agree a b) {k : Content} (hk : k ∈ d.wanted a) :
    k.observable a.toValues = k.observable b.toValues :=
  Content.observable_congr (h.value k hk) fun _ hs => h.count_values hk hs

theorem render (h : d.Agree a b) {block : Block} (hblock : block ∈ d.blocks) :
    block.render a.toValues = block.render b.toValues := by
  cases block with
  | plain k =>
    have hk : k ∈ d.wanted a := mem_wanted hblock fun label hlabel => by cases hlabel
    exact h.fill hk
  | optional label k =>
    have hincluded : a.included label = b.included label := h.included _ hblock label rfl
    show (if a.included label && k.observable a.toValues then _ else _) =
      if b.included label && k.observable b.toValues then _ else _
    rw [← hincluded]
    cases hlabel : a.included label with
    | false => rfl
    | true =>
      have hk : k ∈ d.wanted a := mem_wanted hblock fun l hl => by
        cases hl
        exact hlabel
      rw [h.observable hk, h.fill hk]

end Agree

theorem assemble_of_agree (h : d.Agree a b) : d.assemble a.toValues = d.assemble b.toValues :=
  List.flatMap_congr fun _ hblock => h.render hblock

/-! ## What is not read -/

/-- The order in which the answers came in is not read. -/
theorem agree_of_same (h : a.same b = true) : d.Agree a b := by
  have hvalues := Answers.toValues_of_same h
  have hincluded : b.included = a.included := congrArg Values.included hvalues
  have hvalue : b.value? = a.value? := congrArg Values.value? hvalues
  have hitem : b.item? = a.item? := congrArg Values.item? hvalues
  refine ⟨fun _ _ label _ => ?_, fun _ _ name _ => ?_, fun _ _ _ _ first _ => ?_,
    fun _ _ _ _ _ _ i _ name _ => ?_⟩
  · rw [hincluded]
  · rw [hvalue]
  · rw [← Answers.itemCount_toValues, ← Answers.itemCount_toValues, hvalues]
  · rw [hitem]

/-- Every section of a wanted content that has the variable has its first gap before the item, and
other namespaces have no section. -/
def Unread (d : Document) (a : Answers) (ns : Text) (i : Nat) (name : Text) : Prop :=
  ns = repeatNamespace → ∀ k ∈ d.wanted a, ∀ s ∈ k.sections, name ∈ s.names →
    ∀ first ∈ s.first?, a.nextFree repeatNamespace first < i

theorem nextFree_setItem {i : Nat} {name first : Text}
    (h : ns = repeatNamespace → name = first → a.nextFree repeatNamespace first < i)
    (value : Text) :
    (a.setItem ns i name value).nextFree repeatNamespace first =
      a.nextFree repeatNamespace first := by
  have hhas : ∀ j ≤ a.nextFree repeatNamespace first,
      (a.setItem ns i name value).hasItem repeatNamespace j first =
        a.hasItem repeatNamespace j first := by
    intro j hj
    rw [Answers.hasItem, Answers.hasItem, Answers.item?_setItem, if_neg]
    rintro ⟨hns, rfl, hname⟩
    have := h hns hname
    omega
  rw [← Answers.itemCount_toValues]
  refine Values.itemCount_unique ?_ fun j hj => ?_
  · exact (hhas _ (Nat.le_refl _)).trans (a.hasItem_nextFree _ _)
  · exact (hhas j (Nat.le_of_lt hj)).trans (Answers.hasItem_of_lt_nextFree hj)

theorem agree_setItem {i : Nat} {name : Text} (h : d.Unread a ns i name) (value : Text) :
    d.Agree a (a.setItem ns i name value) := by
  refine ⟨fun _ _ _ _ => rfl, fun _ _ _ _ => rfl, fun k hk s hs first hfirst => ?_,
    fun k hk s hs first hfirst j hj x hx => ?_⟩
  · refine (nextFree_setItem (fun hns hname => ?_) value).symm
    have hmem : name ∈ s.names := hname ▸ List.mem_of_mem_head? hfirst
    exact h hns k hk s hs hmem first hfirst
  · rw [Answers.item?_setItem, if_neg]
    rintro ⟨hns, rfl, rfl⟩
    have := h hns k hk s hs hx first hfirst
    omega

theorem agree_setValue {name : Text} (h : ∀ k ∈ d.wanted a, name ∉ k.names) (value : Text) :
    d.Agree a (a.setValue name value) := by
  refine ⟨fun _ _ _ _ => rfl, fun k hk x hx => ?_, fun _ _ _ _ _ _ => rfl,
    fun _ _ _ _ _ _ _ _ _ _ => rfl⟩
  have hne : name ≠ x := fun hname => h k hk (hname ▸ hx)
  show a.values.find? x = (a.values.insert name value).find? x
  rw [OrderedMap.find?_insert, if_neg hne]

theorem agree_setChoice {label : Text} (h : ∀ block ∈ d.blocks, label ∉ block.label?)
    (choice : Bool) : d.Agree a (a.setChoice label choice) := by
  refine ⟨fun block hblock l hl => ?_, fun _ _ _ _ => rfl, fun _ _ _ _ _ _ => rfl,
    fun _ _ _ _ _ _ _ _ _ _ => rfl⟩
  have hne : label ≠ l := fun hlabel => h block hblock (hlabel ▸ hl)
  show (a.choices.find? l).getD true = ((a.choices.insert label choice).find? l).getD true
  rw [OrderedMap.find?_insert, if_neg hne]

/-- Stores that agree on what a note reads make the same note. Not among it are the order of the
answers, choices of labels that the template does not have, values of names that no wanted block
has, and items in other namespaces, behind a gap or of names that no section has. -/
theorem assemble_footprint (source : Text) (a : Answers) :
    (∀ b, (parse source).Agree a b →
      (parse source).assemble a.toValues = (parse source).assemble b.toValues) ∧
    (∀ b, a.same b = true → (parse source).Agree a b) ∧
    (∀ label choice, (∀ block ∈ (parse source).blocks, label ∉ block.label?) →
      (parse source).Agree a (a.setChoice label choice)) ∧
    (∀ name value, (∀ k ∈ (parse source).wanted a, name ∉ k.names) →
      (parse source).Agree a (a.setValue name value)) ∧
    (∀ ns i name value, (parse source).Unread a ns i name →
      (parse source).Agree a (a.setItem ns i name value)) :=
  ⟨fun _ => assemble_of_agree, fun _ => agree_of_same, fun _ choice h => agree_setChoice h choice,
    fun _ value h => agree_setValue h value, fun _ _ _ value h => agree_setItem h value⟩

/-- `[A]{{repeat:r}}[X][Y]{{/repeat}}{{optional:o}}[Z]{{/optional}}` -/
def agenda : Text :=
  "[A]".toList ++ Directive.written .repeated ⟨['r'], "[X][Y]".toList⟩ ++
    Directive.written .optional ⟨['o'], "[Z]".toList⟩

/-- An item, a gap and an item behind it, with the optional block left out. -/
def agendaAnswers : Answers :=
  let values := (Answers.empty.setValue ['A'] ['1']).setChoice ['o'] false
  let first := (values.setItem repeatNamespace 0 ['X'] ['x']).setItem repeatNamespace 0 ['Y'] ['y']
  first.setItem repeatNamespace 2 ['X'] ['z']

/-- Other answers for everything that is not read, and the same ones in another order. -/
def otherAgendaAnswers : Answers :=
  let other := (Answers.empty.setItem ['n'] 0 ['X'] ['q']).setValue ['Z'] ['q']
  let first := (other.setItem repeatNamespace 0 ['Y'] ['y']).setItem repeatNamespace 0 ['X'] ['x']
  (first.setValue ['A'] ['1']).setChoice ['o'] false

theorem parse_agenda : parse agenda =
    ⟨[.plain ⟨[['A']], [⟨['r'], "[X][Y]".toList, [['X'], ['Y']]⟩], "[A]{{section:r}}".toList⟩,
      .optional ['o'] ⟨[['Z']], [], "[Z]".toList⟩]⟩ := by
  decide +kernel

theorem assemble_footprint_agenda :
    agendaAnswers.same otherAgendaAnswers = false ∧
      (parse agenda).Agree agendaAnswers otherAgendaAnswers ∧
      (parse agenda).assemble otherAgendaAnswers.toValues = "1xy".toList := by
  have hagree : (parse agenda).Agree agendaAnswers otherAgendaAnswers := by
    rw [parse_agenda]
    exact ⟨by decide, by decide, by decide, by decide⟩
  refine ⟨by decide, hagree, ?_⟩
  rw [← (assemble_footprint agenda agendaAnswers).1 otherAgendaAnswers hagree, parse_agenda]
  decide +kernel

end Document

end NoteTemplate
