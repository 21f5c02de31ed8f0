import NoteTemplate.Interview

/-!
# Transcripts of interviews

An interview that succeeds is told by its transcript: the questions in their order, each with
what the reply to it says. What may be asked next depends on the document and on the answers
so far, and the answers so far are what the transcript up to there stores.

* `Exchange`, `Exchange.store`: a question with its reply, and what is stored.
* `OnBlocks`: the transcripts that an interview about some blocks can have.
* `Outcome.AccountedFor`: a part of an interview has a transcript, or it fails at a question.
* `exists_transcript`: every interview that succeeds has such a transcript, which tells the
  questions that were asked, the replies that were used, and the answers.
* `exists_unanswered`: every interview that fails has a last question without an answer.
-/

namespace NoteTemplate.Interview

/-- A question, and what the reply to it says. -/
inductive Exchange
  | choice (label : Text) (wanted : Bool)
  | value (name value : Text)
  | more (s : RepeatSection) (wanted : Bool)
  | item (s : RepeatSection) (index : Nat) (name value : Text)

namespace Exchange

def question : Exchange → Question
  | choice label _ => .confirm (includePrompt label) true
  | value name _ => .text name
  | more s _ => .confirm (morePrompt s) false
  | item s index name _ => .text (itemPrompt s index name)

def store (a : Answers) : Exchange → Answers
  | choice label wanted => a.setChoice label wanted
  | value name v => a.setValue name v
  | more _ _ => a
  | item _ index name v => (a.setItemIfAbsent repeatNamespace index name v).2

/-- The first of the replies says what the exchange holds. -/
def Said (r : Respondent) (replies : List Reply) : Exchange → Prop
  | choice _ wanted => ∃ c, replies.head?.map Reply.choice = some (.ok c) ∧ c.getD true = wanted
  | value name v => r.text name replies = .ok v
  | more _ wanted => ∃ c, replies.head?.map Reply.choice = some (.ok c) ∧ c.getD false = wanted
  | item s index name v => r.text (itemPrompt s index name) replies = .ok v

end Exchange

/-- What a transcript stores. -/
def storeAll (a : Answers) (t : List Exchange) : Answers := t.foldl Exchange.store a

@[simp] theorem storeAll_cons (a : Answers) (e : Exchange) (t : List Exchange) :
    storeAll a (e :: t) = storeAll (e.store a) t := rfl

@[simp] theorem storeAll_append (a : Answers) (t u : List Exchange) :
    storeAll a (t ++ u) = storeAll (storeAll a t) u := List.foldl_append

/-- What every exchange keeps, the transcript keeps. -/
theorem storeAll_invariant {P : Answers → Prop} (hstore : ∀ a e, P a → P (Exchange.store a e))
    {a : Answers} (ha : P a) (t : List Exchange) : P (storeAll a t) := by
  induction t generalizing a with
  | nil => exact ha
  | cons e t ih => exact ih (hstore a e ha)

theorem namespaces_storeAll (t : List Exchange) :
    (storeAll .empty t).namespaces.keys = [] ∨
      (storeAll .empty t).namespaces.keys = [repeatNamespace] := by
  refine storeAll_invariant
    (P := fun a => a.namespaces.keys = [] ∨ a.namespaces.keys = [repeatNamespace])
    (fun a e h => ?_) (Or.inl rfl) t
  cases e with
  | choice label wanted => exact h
  | value name v => exact h
  | more s wanted => exact h
  | item s index name v =>
    rw [Exchange.store, Answers.setItemIfAbsent]
    split
    · exact h
    · right
      rw [Answers.setItem, OrderedMap.keys_insert]
      rcases h with h | h
      · rw [h]
        rfl
      · rw [h, if_pos (List.mem_singleton_self _)]

/-- The replies, one after the other, say what the exchanges hold. -/
def Answered (r : Respondent) : List Exchange → List Reply → Prop
  | [], _ => True
  | e :: t, replies => e.Said r replies ∧ Answered r t replies.tail

theorem answered_append {r : Respondent} {t u : List Exchange} {replies : List Reply} :
    Answered r (t ++ u) replies ↔ Answered r t replies ∧ Answered r u (replies.drop t.length) := by
  induction t generalizing replies with
  | nil => simp [Answered]
  | cons e t ih => simp [Answered, ih, and_assoc]

/-! ## Transcripts of the parts of an interview -/

/-- About variables that have no value yet. -/
inductive OnVariables : List Text → Answers → List Exchange → Prop
  | nil (a : Answers) : OnVariables [] a []
  | known {name : Text} {names : List Text} {a : Answers} {t : List Exchange} :
      a.hasValue name = true → OnVariables names a t → OnVariables (name :: names) a t
  | asked {name : Text} {names : List Text} {a : Answers} {t : List Exchange} (value : Text) :
      a.hasValue name = false → OnVariables names (a.setValue name value) t →
        OnVariables (name :: names) a (.value name value :: t)

/-- About the variables of one item. -/
inductive OnItem (s : RepeatSection) (index : Nat) : List Text → List Exchange → Prop
  | nil : OnItem s index [] []
  | cons (name value : Text) {names : List Text} {t : List Exchange} :
      OnItem s index names t → OnItem s index (name :: names) (.item s index name value :: t)

/-- About the items of a section. Each goes where the first variable is absent. -/
inductive OnItems (s : RepeatSection) (first : Text) : Answers → List Exchange → Prop
  | enough (a : Answers) : OnItems s first a [.more s false]
  | another {a : Answers} {t u : List Exchange} :
      OnItem s (a.nextFree repeatNamespace first) s.names t →
        OnItems s first (storeAll a t) u → OnItems s first a (.more s true :: (t ++ u))

inductive OnSections : List RepeatSection → Answers → List Exchange → Prop
  | nil (a : Answers) : OnSections [] a []
  | none {s : RepeatSection} {ss : List RepeatSection} {a : Answers} {t : List Exchange} :
      s.first? = .none → OnSections ss a t → OnSections (s :: ss) a t
  | items {s : RepeatSection} {first : Text} {ss : List RepeatSection} {a : Answers}
      {t u : List Exchange} :
      s.first? = some first → OnItems s first a t → OnSections ss (storeAll a t) u →
        OnSections (s :: ss) a (t ++ u)

inductive OnContent (c : Content) (a : Answers) : List Exchange → Prop
  | intro {t u : List Exchange} :
      OnVariables c.names a t → OnSections c.sections (storeAll a t) u → OnContent c a (t ++ u)

inductive OnBlock : Block → Answers → List Exchange → Prop
  | plain {c : Content} {a : Answers} {t : List Exchange} :
      OnContent c a t → OnBlock (.plain c) a t
  | accepted {label : Text} {c : Content} {a : Answers} {t : List Exchange} :
      OnContent c (a.setChoice label true) t →
        OnBlock (.optional label c) a (.choice label true :: t)
  | declined (label : Text) (c : Content) (a : Answers) :
      OnBlock (.optional label c) a [.choice label false]

inductive OnBlocks : List Block → Answers → List Exchange → Prop
  | nil (a : Answers) : OnBlocks [] a []
  | cons {b : Block} {bs : List Block} {a : Answers} {t u : List Exchange} :
      OnBlock b a t → OnBlocks bs (storeAll a t) u → OnBlocks (b :: bs) a (t ++ u)

/-! ## What exchanges are about -/

/-- The exchange is about the items of one of the sections. -/
def Exchange.AboutItems (ss : List RepeatSection) : Exchange → Prop
  | .more s _ => s ∈ ss
  | .item s _ name _ => s ∈ ss ∧ name ∈ s.names
  | _ => False

/-- The exchange is about what a content needs. -/
def Exchange.About (c : Content) : Exchange → Prop
  | .value name _ => name ∈ c.names
  | e => e.AboutItems c.sections

theorem Exchange.AboutItems.about {e : Exchange} {c : Content} (h : e.AboutItems c.sections) :
    e.About c := by
  cases e with
  | choice label wanted => exact h
  | value name v => exact h.elim
  | more s wanted => exact h
  | item s index name v => exact h

theorem Exchange.AboutItems.mono {e : Exchange} {ss ss' : List RepeatSection}
    (h : e.AboutItems ss) (hss : ss ⊆ ss') : e.AboutItems ss' := by
  cases e with
  | choice label wanted => exact h
  | value name v => exact h
  | more s wanted => exact hss h
  | item s index name v => exact ⟨hss h.1, h.2⟩

theorem about_onVariables {c : Content} {names : List Text} {a : Answers} {t : List Exchange}
    (h : OnVariables names a t) (hnames : names ⊆ c.names) : ∀ e ∈ t, e.About c := by
  induction h with
  | nil a => exact fun e he => absurd he List.not_mem_nil
  | known _ _ ih => exact ih (List.subset_of_cons_subset hnames)
  | asked value _ _ ih =>
    obtain ⟨hname, hrest⟩ := List.cons_subset.mp hnames
    exact List.forall_mem_cons.mpr ⟨hname, ih hrest⟩

theorem aboutItems_onItem {s : RepeatSection} {index : Nat} {names : List Text}
    {t : List Exchange} (h : OnItem s index names t) (hnames : names ⊆ s.names) :
    ∀ e ∈ t, e.AboutItems [s] := by
  induction h with
  | nil => exact fun e he => absurd he List.not_mem_nil
  | cons name value _ ih =>
    obtain ⟨hname, hrest⟩ := List.cons_subset.mp hnames
    exact List.forall_mem_cons.mpr ⟨⟨List.mem_singleton_self s, hname⟩, ih hrest⟩

theorem aboutItems_onItems {s : RepeatSection} {first : Text} {a : Answers} {t : List Exchange}
    (h : OnItems s first a t) : ∀ e ∈ t, e.AboutItems [s] := by
  induction h with
  | enough a => exact List.forall_mem_singleton.mpr (List.mem_singleton_self s)
  | another hitem _ ih =>
    refine List.forall_mem_cons.mpr ⟨List.mem_singleton_self s, ?_⟩
    exact List.forall_mem_append.mpr ⟨aboutItems_onItem hitem (List.Subset.refl _), ih⟩

theorem aboutItems_onSections {ss : List RepeatSection} {a : Answers} {t : List Exchange}
    (h : OnSections ss a t) : ∀ e ∈ t, e.AboutItems ss := by
  induction h with
  | nil a => exact fun e he => absurd he List.not_mem_nil
  | @none s ss a t _ _ ih => exact fun e he => (ih e he).mono (List.subset_cons_self s ss)
  | @items s first ss a t u _ hitems _ ih =>
    refine List.forall_mem_append.mpr ⟨fun e he => ?_, fun e he => ?_⟩
    · exact (aboutItems_onItems hitems e he).mono (List.cons_subset_cons s (List.nil_subset ss))
    · exact (ih e he).mono (List.subset_cons_self s ss)

theorem about_onContent {c : Content} {a : Answers} {t : List Exchange} (h : OnContent c a t) :
    ∀ e ∈ t, e.About c := by
  obtain ⟨ht, hu⟩ := h
  refine List.forall_mem_append.mpr ⟨about_onVariables ht (List.Subset.refl _), ?_⟩
  exact fun e he => (aboutItems_onSections hu e he).about

/-! ## The transcript of a run -/

/-- The question of an event. -/
def Event.question? : Event → Option Question
  | .asked q => some q
  | .logged _ => none

/-- From the answers `a` on, the outcome has the transcript `t`. -/
structure Outcome.Tells (o : Outcome) (r : Respondent) (a : Answers) (replies : List Reply)
    (t : List Exchange) : Prop where
  result : o.result = .ok (storeAll a t, replies.drop t.length)
  questions : o.events.filterMap Event.question? = t.map Exchange.question
  answered : Answered r t replies

/-- The first of the replies is no answer to the question, for the reason given. -/
def Unanswered (r : Respondent) (replies : List Reply) (f : PromptFailure) : Question → Prop
  | .confirm prompt _ =>
    (replies.head?.map Reply.choice).getD (.error (r.lastChoice prompt)) = .error f
  | .text prompt => r.text prompt replies = .error f

/-- The outcome fails at the question `q`, which comes after the transcript `t`. -/
structure Outcome.Breaks (o : Outcome) (r : Respondent) (replies : List Reply)
    (f : PromptFailure) (t : List Exchange) (q : Question) : Prop where
  result : o.result = .error f
  questions : o.events.filterMap Event.question? = t.map Exchange.question ++ [q]
  answered : Answered r t replies
  unanswered : Unanswered r (replies.drop t.length) f q

variable {r : Respondent} {o : Outcome} {a : Answers} {replies : List Reply}

theorem tells_done (a : Answers) (replies : List Reply) :
    (Outcome.done a replies).Tells r a replies [] :=
  ⟨rfl, rfl, trivial⟩

/-- One question, with events that are no questions, and then the rest. -/
theorem tells_after {e : Exchange} {t : List Exchange} {events : List Event}
    (he : e.Said r replies) (hevents : events.filterMap Event.question? = [e.question])
    (ho : o.Tells r (e.store a) replies.tail t) : (o.after events).Tells r a replies (e :: t) := by
  refine ⟨?_, ?_, he, ho.answered⟩
  · rw [Outcome.after, ho.result, storeAll_cons, List.length_cons, List.drop_tail]
  · rw [Outcome.after, List.filterMap_append, hevents, ho.questions]
    rfl

theorem tells_andThen {next : Answers → List Reply → Outcome} {t u : List Exchange}
    (ho : o.Tells r a replies t)
    (hnext : (next (storeAll a t) (replies.drop t.length)).Tells r (storeAll a t)
      (replies.drop t.length) u) :
    (o.andThen next).Tells r a replies (t ++ u) := by
  rw [Outcome.andThen, ho.result]
  refine ⟨?_, ?_, answered_append.mpr ⟨ho.answered, hnext.answered⟩⟩
  · simp only [Outcome.after]
    rw [hnext.result, storeAll_append, List.drop_drop, List.length_append]
  · simp only [Outcome.after]
    rw [List.filterMap_append, ho.questions, hnext.questions, List.map_append]

theorem breaks_after {f : PromptFailure} {q : Question} {e : Exchange} {t : List Exchange}
    {events : List Event} (he : e.Said r replies)
    (hevents : events.filterMap Event.question? = [e.question])
    (ho : o.Breaks r replies.tail f t q) : (o.after events).Breaks r replies f (e :: t) q := by
  refine ⟨ho.result, ?_, ⟨he, ho.answered⟩, ?_⟩
  · rw [Outcome.after, List.filterMap_append, hevents, ho.questions]
    rfl
  · rw [List.length_cons, ← List.drop_tail]
    exact ho.unanswered

theorem breaks_andThen_first {next : Answers → List Reply → Outcome} {f : PromptFailure}
    {q : Question} {t : List Exchange} (ho : o.Breaks r replies f t q) :
    (o.andThen next).Breaks r replies f t q := by
  rw [Outcome.andThen, ho.result]
  exact ⟨rfl, ho.questions, ho.answered, ho.unanswered⟩

theorem breaks_andThen {next : Answers → List Reply → Outcome} {f : PromptFailure}
    {q : Question} {t u : List Exchange} (ho : o.Tells r a replies t)
    (hnext : (next (storeAll a t) (replies.drop t.length)).Breaks r (replies.drop t.length) f u
      q) :
    (o.andThen next).Breaks r replies f (t ++ u) q := by
  rw [Outcome.andThen, ho.result]
  refine ⟨hnext.result, ?_, answered_append.mpr ⟨ho.answered, hnext.answered⟩, ?_⟩
  · simp only [Outcome.after]
    rw [List.filterMap_append, ho.questions, hnext.questions, List.map_append, List.append_assoc]
  · rw [List.length_append, ← List.drop_drop]
    exact hnext.unanswered

/-- The outcome has a transcript of the kind `P`, or it fails at a question. -/
inductive Outcome.AccountedFor (o : Outcome) (r : Respondent) (a : Answers)
    (replies : List Reply) (P : List Exchange → Prop) : Prop
  | told {t : List Exchange} : P t → o.Tells r a replies t → o.AccountedFor r a replies P
  | failed {f : PromptFailure} {t : List Exchange} {q : Question} :
      o.Breaks r replies f t q → o.AccountedFor r a replies P

theorem accountedFor_done {P : List Exchange → Prop} (h : P []) (a : Answers)
    (replies : List Reply) : (Outcome.done a replies).AccountedFor r a replies P :=
  .told h (tells_done a replies)

theorem accountedFor_unanswered {f : PromptFailure} {q : Question}
    (h : Unanswered r replies f q) {P : List Exchange → Prop} :
    Outcome.AccountedFor ⟨[.asked q], .error f⟩ r a replies P :=
  .failed (t := []) ⟨rfl, rfl, trivial, h⟩

namespace Outcome.AccountedFor

variable {P Q : List Exchange → Prop}

theorem mono (h : o.AccountedFor r a replies P) (hPQ : ∀ t, P t → Q t) :
    o.AccountedFor r a replies Q := by
  cases h with
  | told ht htells => exact .told (hPQ _ ht) htells
  | failed hbreaks => exact .failed hbreaks

theorem after {e : Exchange} {events : List Event}
    (h : o.AccountedFor r (e.store a) replies.tail fun t => P (e :: t)) (he : e.Said r replies)
    (hevents : events.filterMap Event.question? = [e.question]) :
    (o.after events).AccountedFor r a replies P := by
  cases h with
  | told ht htells => exact .told ht (tells_after he hevents htells)
  | failed hbreaks => exact .failed (breaks_after he hevents hbreaks)

theorem logged (h : o.AccountedFor r a replies P) (record : Log.Record) :
    (o.after [.logged record]).AccountedFor r a replies P := by
  cases h with
  | told ht htells => exact .told ht ⟨htells.result, htells.questions, htells.answered⟩
  | failed hbreaks =>
    exact .failed ⟨hbreaks.result, hbreaks.questions, hbreaks.answered, hbreaks.unanswered⟩

/-- The second part goes on where the transcript of the first one ends. -/
theorem andThen {next : Answers → List Reply → Outcome} (h : o.AccountedFor r a replies P)
    (hnext : ∀ t, P t → (next (storeAll a t) (replies.drop t.length)).AccountedFor r
      (storeAll a t) (replies.drop t.length) fun u => Q (t ++ u)) :
    (o.andThen next).AccountedFor r a replies Q := by
  cases h with
  | failed hbreaks => exact .failed (breaks_andThen_first hbreaks)
  | told ht htells =>
    cases hnext _ ht with
    | told hu hutells => exact .told hu (tells_andThen htells hutells)
    | failed hbreaks => exact .failed (breaks_andThen htells hbreaks)

end Outcome.AccountedFor

theorem accountedFor_collectVariables (names : List Text) (a : Answers) (replies : List Reply) :
    (collectVariables r names a replies).AccountedFor r a replies (OnVariables names a) := by
  induction names generalizing a replies with
  | nil => exact accountedFor_done (.nil a) a replies
  | cons name names ih =>
    rw [collectVariables]
    by_cases hvalue : a.hasValue name = true
    · rw [if_pos hvalue]
      exact (ih a replies).mono fun t ht => .known hvalue ht
    · rw [if_neg hvalue]
      cases htext : r.text name replies with
      | error f =>
        have hnone : Unanswered r replies f (.text name) := htext
        exact accountedFor_unanswered hnone
      | ok value =>
        have hsaid : (Exchange.value name value).Said r replies := htext
        refine Outcome.AccountedFor.after ((ih _ _).mono fun t ht => ?_) hsaid rfl
        exact .asked value (by simpa using hvalue) ht

theorem accountedFor_collectItem (s : RepeatSection) (index : Nat) (names : List Text)
    (a : Answers) (replies : List Reply) :
    (collectItem r s index names a replies).AccountedFor r a replies (OnItem s index names) := by
  induction names generalizing a replies with
  | nil => exact accountedFor_done .nil a replies
  | cons name names ih =>
    rw [collectItem]
    cases htext : r.text (itemPrompt s index name) replies with
    | error f =>
      have hnone : Unanswered r replies f (.text (itemPrompt s index name)) := htext
      exact accountedFor_unanswered hnone
    | ok value =>
      have hsaid : (Exchange.item s index name value).Said r replies := htext
      refine Outcome.AccountedFor.after ((ih _ _).mono fun t ht => .cons name value ht) hsaid ?_
      dsimp only
      split <;> rfl

theorem collectItems_more {s : RepeatSection} {first : Text} {a : Answers} {reply : Reply}
    {replies : List Reply} {choice : Option Bool} (hchoice : reply.choice = .ok choice)
    (hmore : choice.getD false = true) :
    collectItems r s first a (reply :: replies) =
      ((collectItem r s (a.nextFree repeatNamespace first) s.names a replies).andThen
        fun b rest => (collectItems r s first b rest).after
          [.logged (collectedRecord s (a.nextFree repeatNamespace first))]).after
        [.asked (.confirm (morePrompt s) false)] := by
  rw [collectItems]
  simp only [hchoice, hmore, if_true]
  split
  · rename_i heq
    rw [heq]
    rfl
  · rename_i heq
    rw [heq]
    simp [Outcome.andThen, Outcome.after]

theorem accountedFor_collectItems (s : RepeatSection) (first : Text) (a : Answers)
    (replies : List Reply) :
    (collectItems r s first a replies).AccountedFor r a replies (OnItems s first a) := by
  -- An item takes replies before the next question, so the induction is on their number.
  induction hn : replies.length using Nat.strongRecOn generalizing a replies with
  | _ n ih =>
    subst hn
    cases replies with
    | nil =>
      have hnone : Unanswered r [] (r.lastChoice (morePrompt s)) (.confirm (morePrompt s) false) :=
        rfl
      rw [collectItems]
      exact accountedFor_unanswered hnone
    | cons reply replies =>
      cases hchoice : reply.choice with
      | error f =>
        have hnone : Unanswered r (reply :: replies) f (.confirm (morePrompt s) false) := hchoice
        rw [collectItems, hchoice]
        exact accountedFor_unanswered hnone
      | ok choice =>
        have hhead : (reply :: replies).head?.map Reply.choice = some (.ok choice) :=
          congrArg some hchoice
        by_cases hmore : choice.getD false = true
        · rw [collectItems_more hchoice hmore]
          have hsaid : (Exchange.more s true).Said r (reply :: replies) := ⟨choice, hhead, hmore⟩
          refine Outcome.AccountedFor.after (e := .more s true) ?_ hsaid rfl
          refine (accountedFor_collectItem s _ s.names a replies).andThen fun t ht => ?_
          have hshort : (replies.drop t.length).length < (reply :: replies).length := by
            simp only [List.length_drop, List.length_cons]
            omega
          exact ((ih _ hshort _ _ rfl).logged _).mono fun u hu => .another ht hu
        · rw [collectItems]
          simp only [hchoice, if_neg hmore]
          have hsaid : (Exchange.more s false).Said r (reply :: replies) :=
            ⟨choice, hhead, by simpa using hmore⟩
          exact .told (.enough a) ⟨rfl, rfl, hsaid, trivial⟩

theorem accountedFor_collectSections (ss : List RepeatSection) (a : Answers)
    (replies : List Reply) :
    (collectSections r ss a replies).AccountedFor r a replies (OnSections ss a) := by
  induction ss generalizing a replies with
  | nil => exact accountedFor_done (.nil a) a replies
  | cons s ss ih =>
    rw [collectSections]
    cases hfirst : s.first? with
    | none => exact (ih a replies).mono fun t ht => .none hfirst ht
    | some first =>
      refine (accountedFor_collectItems s first a replies).andThen fun t ht => ?_
      exact (ih _ _).mono fun u hu => .items hfirst ht hu

theorem accountedFor_collectContent (c : Content) (a : Answers) (replies : List Reply) :
    (collectContent r c a replies).AccountedFor r a replies (OnContent c a) := by
  refine (accountedFor_collectVariables c.names a replies).andThen fun t ht => ?_
  exact (accountedFor_collectSections c.sections _ _).mono fun u hu => .intro ht hu

theorem accountedFor_collectBlock (b : Block) (a : Answers) (replies : List Reply) :
    (collectBlock r b a replies).AccountedFor r a replies (OnBlock b a) := by
  cases b with
  | plain c => exact (accountedFor_collectContent c a replies).mono fun t ht => .plain ht
  | optional label c =>
    cases replies with
    | nil =>
      have hnone : Unanswered r [] (r.lastChoice (includePrompt label))
          (.confirm (includePrompt label) true) := rfl
      exact accountedFor_unanswered hnone
    | cons reply replies =>
      rw [collectBlock]
      cases hchoice : reply.choice with
      | error f =>
        have hnone : Unanswered r (reply :: replies) f (.confirm (includePrompt label) true) :=
          hchoice
        exact accountedFor_unanswered hnone
      | ok choice =>
        have hhead : (reply :: replies).head?.map Reply.choice = some (.ok choice) :=
          congrArg some hchoice
        dsimp only
        cases hwanted : choice.getD true with
        | true =>
          have hsaid : (Exchange.choice label true).Said r (reply :: replies) :=
            ⟨choice, hhead, hwanted⟩
          refine Outcome.AccountedFor.after ?_ hsaid rfl
          exact (accountedFor_collectContent c _ replies).mono fun t ht => .accepted ht
        | false =>
          have hsaid : (Exchange.choice label false).Said r (reply :: replies) :=
            ⟨choice, hhead, hwanted⟩
          exact .told (.declined label c a) ⟨rfl, rfl, hsaid, trivial⟩

theorem accountedFor_collectBlocks (bs : List Block) (a : Answers) (replies : List Reply) :
    (collectBlocks r bs a replies).AccountedFor r a replies (OnBlocks bs a) := by
  induction bs generalizing a replies with
  | nil => exact accountedFor_done (.nil a) a replies
  | cons b bs ih =>
    refine (accountedFor_collectBlock b a replies).andThen fun t ht => ?_
    exact (ih _ _).mono fun u hu => .cons ht hu

/-! ## Whole interviews -/

theorem questions_eq (c : Course) : c.questions = c.events.filterMap Event.question? := by
  unfold Course.questions
  congr 1

/-- The interview about the document went as the transcript tells and gave the answers. -/
structure IsTranscript (r : Respondent) (d : Document) (a : Answers) (t : List Exchange) :
    Prop where
  onBlocks : OnBlocks d.blocks .empty t
  answers : a = storeAll .empty t
  questions : (collect r d).questions = t.map Exchange.question
  answered : Answered r t r.replies

/-- An interview that gives answers has a transcript. -/
theorem exists_transcript {d : Document} {a : Answers} (h : (collect r d).answers = .ok a) :
    ∃ t, IsTranscript r d a t := by
  have hmap : (collectBlocks r d.blocks .empty r.replies).result.map Prod.fst = .ok a := h
  cases accountedFor_collectBlocks d.blocks .empty r.replies with
  | @told t ht htells =>
    rw [htells.result] at hmap
    refine ⟨t, ht, (Except.ok.inj hmap).symm, ?_, htells.answered⟩
    rw [questions_eq]
    exact htells.questions
  | failed hbreaks =>
    rw [hbreaks.result] at hmap
    cases hmap

/-- An interview that fails does so at its last question. -/
theorem exists_unanswered {d : Document} {f : PromptFailure}
    (h : (collect r d).answers = .error f) :
    ∃ t q, (collect r d).questions = t.map Exchange.question ++ [q] ∧ Answered r t r.replies ∧
      Unanswered r (r.replies.drop t.length) f q := by
  have hmap : (collectBlocks r d.blocks .empty r.replies).result.map Prod.fst = .error f := h
  cases accountedFor_collectBlocks d.blocks .empty r.replies with
  | told ht htells =>
    rw [htells.result] at hmap
    cases hmap
  | @failed g t q hbreaks =>
    rw [hbreaks.result] at hmap
    cases hmap
    refine ⟨t, q, ?_, hbreaks.answered, hbreaks.unanswered⟩
    rw [questions_eq]
    exact hbreaks.questions

end NoteTemplate.Interview
