import NoteTemplate.Proofs.Interview.Transcript
import NoteTemplate.Proofs.OrderedMap
import NoteTemplate.Rendering

/-!
# Choices and what is rendered

The choice of an optional block is stored under its label. Blocks may share a label, and each
of them has a question of its own, so the choice that counts for all of them is the last one.

* `Course.choices`: the choices that were made, one per optional block.
* `choices_storeAll`, `values_storeAll`: what a transcript leaves in the answers.
* `Tally`: the values after some exchanges are those before with the ones that were told.
* `rendered_as_chosen`: an optional block is rendered as the last block with its label was
  chosen, and what is rendered was asked for.
-/

namespace NoteTemplate

/-- An optional block as its label and its content. -/
def Block.optional? : Block → Option (Text × Content)
  | plain _ => none
  | optional label c => some (label, c)

/-- The optional blocks, in the order of the source. -/
def Document.optionals (d : Document) : List (Text × Content) := d.blocks.filterMap Block.optional?

/-- The last optional block with the label is at the index. -/
def Document.LastOf (d : Document) (label : Text) (j : Nat) : Prop :=
  (∃ c, d.optionals[j]? = some (label, c)) ∧
    ∀ (i : Nat) (c : Content), d.optionals[i]? = some (label, c) → i ≤ j

namespace Interview

/-- What the reply says to a question whether an optional block is wanted. These are the
questions for a choice that is usually yes. -/
def choice? : Question × Reply → Option (Text × Bool)
  | (.confirm prompt true, ⟨.ok choice, _⟩) => some (prompt, choice.getD true)
  | _ => none

/-- The choices of optional blocks, each with its question. -/
def Course.choices (c : Course) (replies : List Reply) : List (Text × Bool) :=
  (c.questions.zip replies).filterMap choice?

/-- The variable was asked for, and the reply to that question is its value. -/
def Asked (r : Respondent) (d : Document) (a : Answers) (name : Text) : Prop :=
  ∃ (k : Nat) (value : Text), (collect r d).questions[k]? = some (.text name) ∧
    r.text name (r.replies.drop k) = .ok value ∧ a.value? name = some value

/-! ## What a transcript stores -/

namespace Exchange

def choice? : Exchange → Option (Text × Bool)
  | choice label wanted => some (label, wanted)
  | _ => none

def value? : Exchange → Option (Text × Text)
  | value name v => some (name, v)
  | _ => none

end Exchange

/-- The choices of a transcript. -/
def chosen (t : List Exchange) : List (Text × Bool) := t.filterMap Exchange.choice?

theorem chosen_append (t u : List Exchange) : chosen (t ++ u) = chosen t ++ chosen u :=
  List.filterMap_append

/-- If each exchange inserts what it tells into one of the maps, so does the transcript. -/
theorem insertAll_storeAll {β : Type} {field : Answers → OrderedMap Text β}
    {told : Exchange → Option (Text × β)}
    (h : ∀ a e, field (Exchange.store a e) = (field a).insertAll (told e).toList)
    (a : Answers) (t : List Exchange) :
    field (storeAll a t) = (field a).insertAll (t.filterMap told) := by
  induction t generalizing a with
  | nil => rfl
  | cons e t ih =>
    rw [storeAll_cons, ih, h, List.filterMap_cons]
    cases told e <;> rfl

theorem choices_storeAll (a : Answers) (t : List Exchange) :
    (storeAll a t).choices = a.choices.insertAll (chosen t) := by
  refine insertAll_storeAll (fun a e => ?_) a t
  cases e with
  | choice label wanted => rfl
  | value name v => rfl
  | more s wanted => rfl
  | item s index name v =>
    rw [Exchange.store, Answers.setItemIfAbsent]
    split <;> rfl

theorem values_storeAll (a : Answers) (t : List Exchange) :
    (storeAll a t).values = a.values.insertAll (t.filterMap Exchange.value?) := by
  refine insertAll_storeAll (fun a e => ?_) a t
  cases e with
  | choice label wanted => rfl
  | value name v => rfl
  | more s wanted => rfl
  | item s index name v =>
    rw [Exchange.store, Answers.setItemIfAbsent]
    split <;> rfl

theorem hasValue_storeAll {a : Answers} {name : Text} (t : List Exchange)
    (h : a.hasValue name = true) : (storeAll a t).hasValue name = true := by
  rw [Answers.hasValue, OrderedMap.contains] at h ⊢
  rw [values_storeAll, OrderedMap.find?_insertAll, Option.isSome_or, h, Bool.or_true]

/-- A value that was not there before was told. -/
theorem told_of_value? {t : List Exchange} {name value : Text}
    (h : (storeAll .empty t).value? name = some value) : Exchange.value name value ∈ t := by
  have hnone : Answers.empty.values.find? name = none := rfl
  rw [Answers.value?, values_storeAll, OrderedMap.find?_insertAll, hnone, Option.or_none] at h
  have hmem := OrderedMap.mem_of_lookup h
  rw [List.mem_reverse, List.mem_filterMap] at hmem
  obtain ⟨e, he, hvalue⟩ := hmem
  cases e with
  | value n v => cases hvalue; exact he
  | choice label wanted => cases hvalue
  | more s wanted => cases hvalue
  | item s index n v => cases hvalue

/-! ## Transcripts of blocks -/

theorem Exchange.AboutItems.value?_eq_none {e : Exchange} {ss : List RepeatSection}
    (h : e.AboutItems ss) : e.value? = none := by
  cases e with
  | value name v => exact h.elim
  | choice label wanted => rfl
  | more s wanted => rfl
  | item s index name v => rfl

/-- The transcript asks once for each of the names that has no value before, and for no other
variable. -/
structure Tally (a : Answers) (t : List Exchange) (names : List Text) : Prop where
  keys : (storeAll a t).values.keys = names.foldl Placeholder.note a.values.keys
  entries : (storeAll a t).values.entries = a.values.entries ++ t.filterMap Exchange.value?

theorem tally_nil (a : Answers) : Tally a [] [] := ⟨rfl, (List.append_nil _).symm⟩

theorem Tally.append {a : Answers} {t u : List Exchange} {names names' : List Text}
    (ht : Tally a t names) (hu : Tally (storeAll a t) u names') :
    Tally a (t ++ u) (names ++ names') := by
  constructor
  · rw [storeAll_append, hu.keys, ht.keys, List.foldl_append]
  · rw [storeAll_append, hu.entries, ht.entries, List.filterMap_append, List.append_assoc]

theorem tally_of_value?_eq_none {t : List Exchange} (h : ∀ e ∈ t, e.value? = none)
    (a : Answers) : Tally a t [] := by
  have hnone : t.filterMap Exchange.value? = [] := List.filterMap_eq_nil_iff.mpr h
  have hvalues : (storeAll a t).values = a.values := by rw [values_storeAll, hnone]; rfl
  exact ⟨by rw [hvalues]; rfl, by rw [hvalues, hnone, List.append_nil]⟩

theorem tally_asked {a : Answers} {name : Text} (h : a.hasValue name = false) (value : Text) :
    Tally a [.value name value] [name] := by
  have hname : name ∉ a.values.keys := by
    rw [← OrderedMap.contains_iff]
    exact Bool.eq_false_iff.mp h
  exact ⟨a.values.keys_insert_eq_note name value, OrderedMap.put_of_not_mem value hname⟩

theorem tally_onVariables {names : List Text} {a : Answers} {t : List Exchange}
    (h : OnVariables names a t) : Tally a t names := by
  induction h with
  | nil a => exact tally_nil a
  | @known name names a t hvalue _ ih =>
    have hname : name ∈ a.values.keys := (a.values.contains_iff name).mp hvalue
    have hnote : Placeholder.note a.values.keys name = a.values.keys := if_pos hname
    exact ⟨by rw [List.foldl_cons, hnote, ih.keys], ih.entries⟩
  | asked value hvalue _ ih => exact (tally_asked hvalue value).append ih

theorem tally_onContent {c : Content} {a : Answers} {t : List Exchange} (h : OnContent c a t) :
    Tally a t c.names := by
  obtain ⟨ht, hu⟩ := h
  rw [← List.append_nil c.names]
  refine (tally_onVariables ht).append (tally_of_value?_eq_none (fun e he => ?_) _)
  exact (aboutItems_onSections hu e he).value?_eq_none

theorem hasValue_of_onContent {c : Content} {a : Answers} {t : List Exchange}
    (h : OnContent c a t) {name : Text} (hname : name ∈ c.names) :
    (storeAll a t).hasValue name = true := by
  rw [Answers.hasValue, OrderedMap.contains_iff, (tally_onContent h).keys]
  exact Placeholder.mem_foldl_note.mpr (Or.inr hname)

theorem Exchange.About.choice?_eq_none {e : Exchange} {c : Content} (h : e.About c) :
    e.choice? = none := by
  cases e with
  | choice label wanted => exact h.elim
  | value name v => rfl
  | more s wanted => rfl
  | item s index name v => rfl

theorem chosen_onContent {c : Content} {a : Answers} {t : List Exchange} (h : OnContent c a t) :
    chosen t = [] :=
  List.filterMap_eq_nil_iff.mpr fun e he => (about_onContent h e he).choice?_eq_none

/-- Each optional block was chosen, in the order of the blocks. -/
theorem chosen_onBlocks {bs : List Block} {a : Answers} {t : List Exchange}
    (h : OnBlocks bs a t) :
    (chosen t).map Prod.fst = (bs.filterMap Block.optional?).map Prod.fst := by
  induction h with
  | nil a => rfl
  | cons hblock _ ih =>
    rw [chosen_append, List.map_append, ih]
    cases hblock with
    | plain ht => rw [chosen_onContent ht]; rfl
    | @accepted label c a t ht =>
      show label :: (chosen t).map Prod.fst ++ _ = _
      rw [chosen_onContent ht]
      rfl
    | declined label c a => rfl

/-- The variables of plain blocks have values in the end. -/
theorem hasValue_of_plain {bs : List Block} {a : Answers} {t : List Exchange}
    (h : OnBlocks bs a t) {c : Content} (hc : .plain c ∈ bs) {name : Text}
    (hname : name ∈ c.names) : (storeAll a t).hasValue name = true := by
  induction h with
  | nil a => cases hc
  | @cons b bs a t u hblock _ ih =>
    rw [storeAll_append]
    rcases List.mem_cons.mp hc with rfl | hc
    · cases hblock with
      | plain ht => exact hasValue_storeAll u (hasValue_of_onContent ht hname)
    · exact ih hc

/-- So have the variables of the optional blocks that were chosen. -/
theorem hasValue_of_accepted {bs : List Block} {a : Answers} {t : List Exchange}
    (h : OnBlocks bs a t) {label label' : Text} {c : Content}
    (hc : ((label, c), (label', true)) ∈ (bs.filterMap Block.optional?).zip (chosen t))
    {name : Text} (hname : name ∈ c.names) : (storeAll a t).hasValue name = true := by
  induction h with
  | nil a => cases hc
  | @cons b bs a t u hblock _ ih =>
    rw [storeAll_append]
    rw [chosen_append] at hc
    cases hblock with
    | plain ht =>
      rw [chosen_onContent ht] at hc
      exact ih hc
    | @accepted l c' a t ht =>
      have hchosen : chosen (.choice l true :: t) = [(l, true)] :=
        congrArg ((l, true) :: ·) (chosen_onContent ht)
      rw [hchosen] at hc
      rcases List.mem_cons.mp hc with heq | hc
      · cases heq
        exact hasValue_storeAll u (hasValue_of_onContent ht hname)
      · exact ih hc
    | declined l c' a =>
      rcases List.mem_cons.mp hc with heq | hc
      · cases heq
      · exact ih hc

/-! ## Choices of a run -/

variable {r : Respondent}

theorem choice?_of_said {e : Exchange} {reply : Reply} {replies : List Reply}
    (h : e.Said r (reply :: replies)) :
    choice? (e.question, reply) = e.choice?.map fun p => (includePrompt p.1, p.2) := by
  cases e with
  | choice label wanted =>
    obtain ⟨c, hc, hwanted⟩ := h
    have hreply : reply.choice = .ok c := Option.some.inj hc
    obtain ⟨choice, text⟩ := reply
    obtain rfl : choice = .ok c := hreply
    show some (includePrompt label, c.getD true) = _
    rw [hwanted]
    rfl
  | value name v => rfl
  | more s wanted => rfl
  | item s index name v => rfl

theorem not_said_nil {label : Text} {wanted : Bool} :
    ¬ (Exchange.choice label wanted).Said r [] := by
  rintro ⟨c, hc, _⟩
  cases hc

theorem filterMap_zip_questions {t : List Exchange} {replies : List Reply}
    (h : Answered r t replies) :
    ((t.map Exchange.question).zip replies).filterMap choice? =
      (chosen t).map fun p => (includePrompt p.1, p.2) := by
  induction t generalizing replies with
  | nil => rfl
  | cons e t ih =>
    obtain ⟨he, ht⟩ := h
    cases replies with
    | nil =>
      -- Without replies nothing is chosen any more.
      have hrest := ih ht
      rw [List.tail_nil, List.zip_nil_right] at hrest
      cases e with
      | choice label wanted => exact absurd he not_said_nil
      | value name v => exact hrest
      | more s wanted => exact hrest
      | item s index name v => exact hrest
    | cons reply replies =>
      rw [List.tail_cons] at ht
      show _ = (List.filterMap Exchange.choice? (e :: t)).map _
      rw [List.map_cons, List.zip_cons_cons, List.filterMap_cons, choice?_of_said he, ih ht,
        List.filterMap_cons]
      cases e.choice? with
      | none => rfl
      | some p => rfl

theorem said_of_answered {t : List Exchange} {replies : List Reply} (h : Answered r t replies)
    {k : Nat} {e : Exchange} (hk : t[k]? = some e) : e.Said r (replies.drop k) := by
  induction t generalizing replies k with
  | nil => cases hk
  | cons f t ih =>
    cases k with
    | zero =>
      cases hk
      exact h.1
    | succ k =>
      rw [← List.drop_tail]
      exact ih h.2 hk

/-- A variable that has a value in the end was asked for. -/
theorem asked_of_hasValue {d : Document} {t : List Exchange} {name : Text}
    (hquestions : (collect r d).questions = t.map Exchange.question)
    (hanswered : Answered r t r.replies) (h : (storeAll .empty t).hasValue name = true) :
    Asked r d (storeAll .empty t) name := by
  obtain ⟨value, hvalue⟩ := Option.isSome_iff_exists.mp h
  obtain ⟨k, hk⟩ := List.mem_iff_getElem?.mp (told_of_value? hvalue)
  refine ⟨k, value, ?_, said_of_answered hanswered hk, hvalue⟩
  rw [hquestions, List.getElem?_map, hk]
  rfl

theorem getElem?_of_map_fst {α β γ : Type} {ps : List (α × β)} {qs : List (α × γ)}
    (h : ps.map Prod.fst = qs.map Prod.fst) {i : Nat} {k : α} {v : β}
    (hi : ps[i]? = some (k, v)) : ∃ w, qs[i]? = some (k, w) := by
  have hkey : (qs.map Prod.fst)[i]? = some k := by
    rw [← h, List.getElem?_map, hi]
    rfl
  rw [List.getElem?_map] at hkey
  obtain ⟨⟨_, w⟩, hq, rfl⟩ := Option.map_eq_some_iff.mp hkey
  exact ⟨w, hq⟩

/-- The last block with a label decides whether the blocks with that label are included. -/
theorem exists_deciding {d : Document} {t : List Exchange} (h : OnBlocks d.blocks .empty t)
    {i : Nat} {label : Text} {c : Content} (hi : d.optionals[i]? = some (label, c)) :
    ∃ (j : Nat) (wanted : Bool), i ≤ j ∧ d.LastOf label j ∧
      (chosen t)[j]? = some (label, wanted) ∧ (storeAll .empty t).included label = wanted := by
  have hlabels : (chosen t).map Prod.fst = d.optionals.map Prod.fst := chosen_onBlocks h
  have hmem : label ∈ (chosen t).map Prod.fst := by
    rw [hlabels]
    exact List.mem_map_of_mem (f := Prod.fst) (List.mem_of_getElem? hi)
  obtain ⟨j, wanted, hj, hlast, hlookup⟩ := OrderedMap.exists_last hmem
  have hle : ∀ (k : Nat) (c' : Content), d.optionals[k]? = some (label, c') → k ≤ j := by
    intro k c' hk
    obtain ⟨w, hw⟩ := getElem?_of_map_fst hlabels.symm hk
    exact hlast k w hw
  refine ⟨j, wanted, hle i c hi, ⟨getElem?_of_map_fst hlabels hj, hle⟩, hj, ?_⟩
  rw [Answers.included, choices_storeAll, OrderedMap.find?_insertAll, hlookup]
  rfl

theorem choices_eq {d : Document} {t : List Exchange}
    (hquestions : (collect r d).questions = t.map Exchange.question)
    (hanswered : Answered r t r.replies) :
    (collect r d).choices r.replies = (chosen t).map fun p => (includePrompt p.1, p.2) := by
  rw [Course.choices, hquestions]
  exact filterMap_zip_questions hanswered

theorem getElem?_choices {d : Document} {t : List Exchange}
    (hquestions : (collect r d).questions = t.map Exchange.question)
    (hanswered : Answered r t r.replies) {k : Nat} {label : Text} {wanted : Bool}
    (hk : (chosen t)[k]? = some (label, wanted)) :
    ((collect r d).choices r.replies)[k]? = some (includePrompt label, wanted) := by
  rw [choices_eq hquestions hanswered, List.getElem?_map, hk]
  rfl

theorem included_of_rendered {a : Answers} {label : Text} {c : Content}
    (h : (Block.optional label c).render a.toValues ≠ []) : a.included label = true := by
  cases hincluded : a.included label with
  | true => rfl
  | false =>
    have hvalues : a.toValues.included label = false := hincluded
    rw [Block.render, hvalues] at h
    exact absurd rfl h

/-- A block whose label is included in the end was chosen itself, and then its variables were
asked for, or a later block with its label was. -/
theorem asked_or_chosen_later {d : Document} {t : List Exchange}
    (hquestions : (collect r d).questions = t.map Exchange.question)
    (hanswered : Answered r t r.replies) (ht : OnBlocks d.blocks .empty t) {i : Nat}
    {label : Text} {c : Content} (hi : d.optionals[i]? = some (label, c))
    (hincluded : (storeAll .empty t).included label = true) :
    (∀ name ∈ c.names, Asked r d (storeAll .empty t) name) ∨
      ((collect r d).choices r.replies)[i]? = some (includePrompt label, false) ∧
        ∃ (j : Nat) (c' : Content), i < j ∧ d.optionals[j]? = some (label, c') ∧
          ((collect r d).choices r.replies)[j]? = some (includePrompt label, true) := by
  obtain ⟨own, hown⟩ := getElem?_of_map_fst (chosen_onBlocks ht).symm hi
  cases own with
  | true =>
    left
    intro name hname
    have hzip : ((label, c), (label, true)) ∈ d.optionals.zip (chosen t) := by
      rw [List.mem_iff_getElem?]
      exact ⟨i, List.getElem?_zip_eq_some.mpr ⟨hi, hown⟩⟩
    exact asked_of_hasValue hquestions hanswered (hasValue_of_accepted ht hzip hname)
  | false =>
    right
    obtain ⟨j, wanted, hij, ⟨⟨c', hc'⟩, _⟩, hj, hlast⟩ := exists_deciding ht hi
    obtain rfl : wanted = true := hlast.symm.trans hincluded
    -- The block that decides was chosen, so it is not this one.
    have hne : i ≠ j := by
      rintro rfl
      rw [hown] at hj
      cases hj
    exact ⟨getElem?_choices hquestions hanswered hown, j, c', by omega, hc',
      getElem?_choices hquestions hanswered hj⟩

/-- An optional block is rendered if the last block with its label was wanted. What is rendered
was asked for, unless the block itself was declined and a later one with its label was not. -/
theorem rendered_as_chosen {d : Document} {a : Answers} (h : (collect r d).answers = .ok a) :
    ((collect r d).choices r.replies).map Prod.fst =
        d.optionals.map (fun b => includePrompt b.1) ∧
      (∀ (i : Nat) (label : Text) (c : Content), d.optionals[i]? = some (label, c) →
        ∃ (j : Nat) (wanted : Bool), i ≤ j ∧ d.LastOf label j ∧
          ((collect r d).choices r.replies)[j]? = some (includePrompt label, wanted) ∧
          (Block.optional label c).render a.toValues =
            if wanted && c.observable a.toValues then c.fill a.toValues repeatNamespace else []) ∧
      (∀ (i : Nat) (label : Text) (c : Content), d.optionals[i]? = some (label, c) →
        (Block.optional label c).render a.toValues ≠ [] →
        (∀ name ∈ c.names, Asked r d a name) ∨
          ((collect r d).choices r.replies)[i]? = some (includePrompt label, false) ∧
          ∃ (j : Nat) (c' : Content), i < j ∧ d.optionals[j]? = some (label, c') ∧
            ((collect r d).choices r.replies)[j]? = some (includePrompt label, true)) ∧
      ∀ c : Content, .plain c ∈ d.blocks → ∀ name ∈ c.names, Asked r d a name := by
  obtain ⟨t, ht, rfl, hquestions, hanswered⟩ := exists_transcript h
  refine ⟨?_, ?_, ?_, ?_⟩
  · have hprompts := congrArg (List.map includePrompt) (chosen_onBlocks ht)
    rw [List.map_map, List.map_map] at hprompts
    rw [choices_eq hquestions hanswered, List.map_map]
    exact hprompts
  · intro i label c hi
    obtain ⟨j, wanted, hij, hlast, hj, hincluded⟩ := exists_deciding ht hi
    refine ⟨j, wanted, hij, hlast, getElem?_choices hquestions hanswered hj, ?_⟩
    rw [← hincluded]
    rfl
  · intro i label c hi hrender
    exact asked_or_chosen_later hquestions hanswered ht hi (included_of_rendered hrender)
  · intro c hc name hname
    exact asked_of_hasValue hquestions hanswered (hasValue_of_plain ht hc hname)

/-! ## Blocks that share a label -/

/-- Each optional block is rendered as its own reply says. -/
def RenderedByOwnChoice (r : Respondent) (d : Document) (a : Answers) : Prop :=
  ∀ (i : Nat) (label : Text) (c : Content) (wanted : Bool),
    d.optionals[i]? = some (label, c) →
    ((collect r d).choices r.replies)[i]? = some (includePrompt label, wanted) →
    (wanted = false → (Block.optional label c).render a.toValues = []) ∧
      (wanted = true → c.observable a.toValues = true →
        (Block.optional label c).render a.toValues = c.fill a.toValues repeatNamespace)

/-- No block is rendered unless all its variables were asked for. -/
def RenderedIfAsked (r : Respondent) (d : Document) (a : Answers) : Prop :=
  ∀ b ∈ d.blocks, b.render a.toValues ≠ [] → ∀ name ∈ b.content.names, Asked r d a name

/-- Two optional blocks with the label `x`. -/
def sharedLabel : Text :=
  Directive.written .optional ⟨['x'], "[A][B]".toList⟩ ++
    Directive.written .optional ⟨['x'], "[A]".toList⟩

/-- The first block is declined, the second one is not. -/
def changedMind : Respondent :=
  .scripted [.ofChoice false, .ofChoice true, .ofText ['v']]

def changedMindAnswers : Answers := (Answers.empty.setChoice ['x'] true).setValue ['A'] ['v']

theorem parse_sharedLabel : Document.parse sharedLabel =
    ⟨[.optional ['x'] ⟨[['A'], ['B']], [], "[A][B]".toList⟩,
      .optional ['x'] ⟨[['A']], [], "[A]".toList⟩]⟩ := by
  decide +kernel

theorem answers_changedMind :
    (collect changedMind (Document.parse sharedLabel)).answers = .ok changedMindAnswers := by
  rw [parse_sharedLabel]
  rfl

/-- The first block is rendered though it was declined, and `B` was not asked for. -/
theorem declined_yet_rendered :
    (collect changedMind (Document.parse sharedLabel)).answers = .ok changedMindAnswers ∧
      ¬ RenderedByOwnChoice changedMind (Document.parse sharedLabel) changedMindAnswers ∧
      ¬ RenderedIfAsked changedMind (Document.parse sharedLabel) changedMindAnswers := by
  refine ⟨answers_changedMind, ?_⟩
  rw [parse_sharedLabel]
  constructor
  · intro hown
    have hempty := (hown 0 ['x'] ⟨[['A'], ['B']], [], "[A][B]".toList⟩ false rfl rfl).1 rfl
    revert hempty
    decide +kernel
  · intro hasked
    obtain ⟨k, value, _, _, hvalue⟩ := hasked (.optional ['x'] ⟨[['A'], ['B']], [], "[A][B]".toList⟩)
      List.mem_cons_self (by decide +kernel) ['B'] (by decide)
    cases hvalue

theorem rendered_as_chosen_sharedLabel :
    (collect changedMind (Document.parse sharedLabel)).answers = .ok changedMindAnswers ∧
      ∃ (j : Nat) (wanted : Bool), 0 ≤ j ∧ (Document.parse sharedLabel).LastOf ['x'] j ∧
        ((collect changedMind (Document.parse sharedLabel)).choices changedMind.replies)[j]? =
          some (includePrompt ['x'], wanted) ∧
        (Block.optional ['x'] (Content.ofText "[A][B]".toList)).render changedMindAnswers.toValues =
          if wanted && (Content.ofText "[A][B]".toList).observable changedMindAnswers.toValues
          then (Content.ofText "[A][B]".toList).fill changedMindAnswers.toValues repeatNamespace
          else [] :=
  ⟨answers_changedMind, (rendered_as_chosen answers_changedMind).2.1 0 ['x'] _
    (by rw [parse_sharedLabel]; decide +kernel)⟩

end Interview

end NoteTemplate
