import Mathlib.Data.List.Forall2
import NoteTemplate.Proofs.Interview.Choices
import NoteTemplate.Proofs.Template.Search

/-!
# Questions and what is stored

An interview asks for what the document needs, and what it stores is what it asked for. If it
ends early, it is because the last question got no answer.

* `Part`: the exchanges that belong to a block.
* `visited`: the blocks that are asked about.
* `tally_onBlocks`: the values of a run are those of the blocks that are asked about.
* `collect_spec`: what every interview has asked and stored, or why it failed.
-/

namespace NoteTemplate.Interview

/-! ## Exchanges of a block -/

/-- The exchanges belong to the block. After an optional block is declined, there are no more
of them. -/
inductive Part : Block → List Exchange → Prop
  | plain {c : Content} {t : List Exchange} : (∀ e ∈ t, e.About c) → Part (.plain c) t
  | accepted {label : Text} {c : Content} {t : List Exchange} :
      (∀ e ∈ t, e.About c) → Part (.optional label c) (.choice label true :: t)
  | declined (label : Text) (c : Content) : Part (.optional label c) [.choice label false]

theorem part_onBlock {b : Block} {a : Answers} {t : List Exchange} (h : OnBlock b a t) :
    Part b t := by
  cases h with
  | plain ht => exact .plain (about_onContent ht)
  | accepted ht => exact .accepted (about_onContent ht)
  | declined label c a => exact .declined label c

/-- The transcript of an interview is one part for each block. -/
theorem exists_parts {bs : List Block} {a : Answers} {t : List Exchange} (h : OnBlocks bs a t) :
    ∃ parts : List (List Exchange), t = parts.flatten ∧ List.Forall₂ Part bs parts := by
  induction h with
  | nil a => exact ⟨[], rfl, .nil⟩
  | @cons b bs a t u hblock _ ih =>
    obtain ⟨parts, rfl, hparts⟩ := ih
    exact ⟨t :: parts, rfl, .cons (part_onBlock hblock) hparts⟩

/-! ## Values that are told -/

/-- The blocks that are asked about, when the optional ones are chosen as listed. -/
def visited : List Block → List Bool → List Block
  | [], _ => []
  | .plain c :: bs, wanted => .plain c :: visited bs wanted
  | .optional label c :: bs, true :: wanted => .optional label c :: visited bs wanted
  | .optional _ _ :: bs, wanted => visited bs wanted.tail

theorem tally_onBlocks {bs : List Block} {a : Answers} {t : List Exchange}
    (h : OnBlocks bs a t) :
    Tally a t ((visited bs ((chosen t).map Prod.snd)).flatMap (·.content.names)) := by
  induction h with
  | nil a => exact tally_nil a
  | @cons b bs a t u hblock _ ih =>
    rw [chosen_append, List.map_append]
    cases hblock with
    | plain ht =>
      rw [chosen_onContent ht]
      exact (tally_onContent ht).append ih
    | @accepted label c a t ht =>
      have hchosen : chosen (.choice label true :: t) = [(label, true)] :=
        congrArg ((label, true) :: ·) (chosen_onContent ht)
      have hchoice : Tally a [.choice label true] [] :=
        tally_of_value?_eq_none (List.forall_mem_singleton.mpr rfl) a
      rw [hchosen]
      exact (hchoice.append (tally_onContent ht)).append ih
    | declined label c a =>
      exact (tally_of_value?_eq_none (List.forall_mem_singleton.mpr rfl) a).append ih

/-! ## Whole interviews -/

/-- What an interview that gives answers has asked and stored, when the optional blocks are
chosen as listed. -/
structure AskedAndStored (d : Document) (choices : List (Text × Bool)) (t : List Exchange)
    (a : Answers) : Prop where
  /-- the exchanges belong to the blocks, in their order -/
  parts : ∃ parts : List (List Exchange), t = parts.flatten ∧ List.Forall₂ Part d.blocks parts
  /-- the values are those of the variables of the blocks that are asked about -/
  keys : a.values.keys =
    ((visited d.blocks (choices.map Prod.snd)).flatMap (·.content.names)).eraseDups
  /-- each of them is told by one exchange -/
  entries : t.filterMap Exchange.value? = a.values.entries
  labels : a.choices.keys = (d.optionals.map Prod.fst).eraseDups
  /-- the choice of a label is that of the last block with the label -/
  choice : ∀ label ∈ d.optionals.map Prod.fst, ∃ (j : Nat) (wanted : Bool), d.LastOf label j ∧
    choices[j]? = some (includePrompt label, wanted) ∧ a.choices.find? label = some wanted
  namespaces : a.namespaces.keys = [] ∨ a.namespaces.keys = [repeatNamespace]

theorem keys_choices {d : Document} {t : List Exchange} (h : OnBlocks d.blocks .empty t) :
    (storeAll .empty t).choices.keys = (d.optionals.map Prod.fst).eraseDups := by
  rw [choices_storeAll, OrderedMap.keys_insertAll_eq_note, chosen_onBlocks h]
  exact Placeholder.foldl_note_nil _

theorem exists_choice {r : Respondent} {d : Document} {a : Answers} {t : List Exchange}
    (h : IsTranscript r d a t) {label : Text} (hlabel : label ∈ d.optionals.map Prod.fst) :
    ∃ (j : Nat) (wanted : Bool), d.LastOf label j ∧
      ((collect r d).choices r.replies)[j]? = some (includePrompt label, wanted) ∧
      a.choices.find? label = some wanted := by
  obtain ⟨⟨l, c⟩, hmem, hl⟩ := List.mem_map.mp hlabel
  obtain rfl : label = l := hl.symm
  obtain ⟨i, hi⟩ := List.mem_iff_getElem?.mp hmem
  obtain ⟨j, wanted, _, hlast, hj, hincluded⟩ := exists_deciding h.onBlocks hi
  refine ⟨j, wanted, hlast, getElem?_choices h.questions h.answered hj, ?_⟩
  have hkey : label ∈ (storeAll .empty t).choices.keys := by
    rw [keys_choices h.onBlocks, ← Placeholder.foldl_note_nil]
    exact Placeholder.mem_foldl_note.mpr (Or.inr hlabel)
  obtain ⟨w, hw⟩ := Option.isSome_iff_exists.mp (OrderedMap.mem_keys_iff.mp hkey)
  rw [Answers.included, hw] at hincluded
  rw [h.answers, hw, ← hincluded]
  rfl

theorem askedAndStored {r : Respondent} {d : Document} {a : Answers} {t : List Exchange}
    (h : IsTranscript r d a t) :
    AskedAndStored d ((collect r d).choices r.replies) t a := by
  have htally := tally_onBlocks h.onBlocks
  have hchoices : ((collect r d).choices r.replies).map Prod.snd = (chosen t).map Prod.snd := by
    rw [choices_eq h.questions h.answered, List.map_map]
    rfl
  refine ⟨exists_parts h.onBlocks, ?_, ?_, ?_, fun _ hlabel => exists_choice h hlabel, ?_⟩
  · rw [hchoices, h.answers, htally.keys]
    exact Placeholder.foldl_note_nil _
  · rw [h.answers, htally.entries]
    rfl
  · rw [h.answers]
    exact keys_choices h.onBlocks
  · rw [h.answers]
    exact namespaces_storeAll t

/-- An interview that gives answers has asked for what the document needs and stored what it
was told. An interview that fails does so at its last question, for the reason for which that
question has no answer. -/
theorem collect_spec (r : Respondent) (d : Document) :
    match (collect r d).answers with
    | .ok a => ∃ t, IsTranscript r d a t ∧ AskedAndStored d ((collect r d).choices r.replies) t a
    | .error f => ∃ t q, (collect r d).questions = t.map Exchange.question ++ [q] ∧
        Answered r t r.replies ∧ Unanswered r (r.replies.drop t.length) f q := by
  cases h : (collect r d).answers with
  | ok a =>
    obtain ⟨t, ht⟩ := exists_transcript h
    exact ⟨t, ht, askedAndStored ht⟩
  | error f => exact exists_unanswered h

end NoteTemplate.Interview
