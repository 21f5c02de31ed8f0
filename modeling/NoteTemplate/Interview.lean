import NoteTemplate.Answers.Basic
import NoteTemplate.Document
import NoteTemplate.Log

/-!
# Interviews

A user who brings no answers is asked for them, block by block: whether an optional block is
wanted, what each variable is, and for each repeat section as many items as the user cares to
add. An interview is a function of the replies. It gives the answers together with all that
happened on the way.

* `Interview.collect`: the interview about a document.
* `Interview.rest_collectItem`: an item takes one reply per variable.
-/

namespace NoteTemplate

/-- What a user is asked. -/
inductive Question
  /-- a choice, with the one that an empty reply stands for -/
  | confirm (prompt : Text) (usual : Bool)
  /-- a text, which may be empty -/
  | text (prompt : Text)
deriving DecidableEq, Repr

/-- Why a question stays without an answer. -/
inductive PromptFailure
  | expectedChoice
  | expectedText
  | noReply (prompt : Text)
  | device (reason : String)
deriving DecidableEq, Repr

def PromptFailure.message : PromptFailure → String
  | expectedChoice => "expected yes/no"
  | expectedText => "expected text"
  | noReply prompt => "no scripted reply for '" ++ String.ofList prompt ++ "'"
  | device reason => "IO error: " ++ reason

/-- One reply: what it says as a choice and what it says as a text. -/
structure Reply where
  /-- `none` is the choice that the question calls usual -/
  choice : Except PromptFailure (Option Bool)
  text : Except PromptFailure Text

namespace Reply

def ofChoice (b : Bool) : Reply := ⟨.ok (some b), .error .expectedText⟩

/-- Leaves a choice as it is offered. -/
def usual : Reply := ⟨.ok none, .error .expectedText⟩

def ofText (s : Text) : Reply := ⟨.error .expectedChoice, .ok s⟩

/-- Neither a choice nor a text. -/
def unusable : Reply := ⟨.error .expectedChoice, .error .expectedText⟩

end Reply

/-- Replies in the order in which they are given. -/
structure Respondent where
  replies : List Reply
  /-- why a choice is not made when there are no replies left -/
  lastChoice : (prompt : Text) → PromptFailure
  /-- what a question for a text gets when there are no replies left -/
  lastText : (prompt : Text) → Except PromptFailure Text

namespace Respondent

/-- Gives the listed replies and no others. -/
def scripted (replies : List Reply) : Respondent :=
  ⟨replies, .noReply, fun prompt => .error (.noReply prompt)⟩

/-- The text that the next reply gives. -/
def text (r : Respondent) (prompt : Text) : List Reply → Except PromptFailure Text
  | [] => r.lastText prompt
  | reply :: _ => reply.text

end Respondent

namespace Interview

/-- Something that happens during an interview. -/
inductive Event
  | asked (q : Question)
  | logged (r : Log.Record)
deriving DecidableEq, Repr

/-- What happened in a part of an interview, and the answers and replies it ended with. -/
structure Outcome where
  events : List Event
  result : Except PromptFailure (Answers × List Reply)

namespace Outcome

/-- Nothing happens. -/
def done (a : Answers) (replies : List Reply) : Outcome := ⟨[], .ok (a, replies)⟩

/-- Events that come before. -/
def after (events : List Event) (o : Outcome) : Outcome := ⟨events ++ o.events, o.result⟩

/-- A part of an interview and then another, unless the first one fails. -/
def andThen (o : Outcome) (next : Answers → List Reply → Outcome) : Outcome :=
  match o.result with
  | .error f => ⟨o.events, .error f⟩
  | .ok (a, replies) => (next a replies).after o.events

end Outcome

/-! ## Variables -/

/-- Asks for the variables that have no value yet. -/
def collectVariables (r : Respondent) : List Text → Answers → List Reply → Outcome
  | [], a, replies => .done a replies
  | name :: names, a, replies =>
    if a.hasValue name then collectVariables r names a replies
    else
      let asked := [Event.asked (.text name)]
      match r.text name replies with
      | .error f => ⟨asked, .error f⟩
      | .ok value =>
        (collectVariables r names (a.setValue name value) replies.tail).after asked

/-! ## Items -/

/-- The question for one variable of one item. Items are counted from 1. -/
def itemPrompt (s : RepeatSection) (index : Nat) (name : Text) : Text :=
  s.label ++ [' ', '#'] ++ Nat.toDigits 10 (index + 1) ++ [':', ' '] ++ name

/-- The question whether a section gets one more item. -/
def morePrompt (s : RepeatSection) : Text :=
  "Add item to ".toList ++ s.label ++ " (repeating)?".toList

/-- A value that is not stored, since its place is taken. -/
def keptRecord (name : Text) (index : Nat) : Log.Record :=
  Log.debug .interview ("'" ++ String.ofList name ++ "' #" ++ toString index ++
    " already answered, keeping the first value.")

/-- An item that is complete. -/
def collectedRecord (s : RepeatSection) (index : Nat) : Log.Record :=
  Log.debug .interview ("Collected item " ++ toString index ++ " for section '" ++
    String.ofList s.label ++ "'.")

/-- Asks for the variables of an item. Sections that share a variable share its places, and
the first value there stays. -/
def collectItem (r : Respondent) (s : RepeatSection) (index : Nat) :
    List Text → Answers → List Reply → Outcome
  | [], a, replies => .done a replies
  | name :: names, a, replies =>
    let prompt := itemPrompt s index name
    let asked := Event.asked (.text prompt)
    match r.text prompt replies with
    | .error f => ⟨[asked], .error f⟩
    | .ok value =>
      let (stored, a) := a.setItemIfAbsent repeatNamespace index name value
      let events := if stored then [asked] else [asked, .logged (keptRecord name index)]
      (collectItem r s index names a replies.tail).after events

theorem rest_collectItem {r : Respondent} {s : RepeatSection} {index : Nat} {names : List Text}
    {a b : Answers} {replies rest : List Reply}
    (h : (collectItem r s index names a replies).result = .ok (b, rest)) :
    rest = replies.drop names.length := by
  induction names generalizing a replies with
  | nil => cases h; rfl
  | cons name names ih =>
    rw [collectItem] at h
    split at h
    · cases h
    · rw [ih h, List.length_cons, ← List.drop_one, List.drop_drop, Nat.add_comm]

/-- Asks for items of a section until the user wants no more. An item goes to the first index
that is free of the section's first variable. -/
def collectItems (r : Respondent) (s : RepeatSection) (first : Text) (a : Answers)
    (replies : List Reply) : Outcome :=
  let asked := Event.asked (.confirm (morePrompt s) false)
  match replies with
  | [] => ⟨[asked], .error (r.lastChoice (morePrompt s))⟩
  | reply :: replies =>
    match reply.choice with
    | .error f => ⟨[asked], .error f⟩
    | .ok choice =>
      if choice.getD false then
        let index := a.nextFree repeatNamespace first
        match _h : collectItem r s index s.names a replies with
        | ⟨events, .error f⟩ => ⟨asked :: events, .error f⟩
        | ⟨events, .ok (a, rest)⟩ =>
          (collectItems r s first a rest).after
            (asked :: events ++ [.logged (collectedRecord s index)])
      else ⟨[asked], .ok (a, replies)⟩
termination_by replies.length
decreasing_by
  have := rest_collectItem (congrArg Outcome.result _h)
  subst this
  simp only [List.length_drop, List.length_cons]
  omega

/-- Asks for the items of sections. A section without variables has none. -/
def collectSections (r : Respondent) : List RepeatSection → Answers → List Reply → Outcome
  | [], a, replies => .done a replies
  | s :: ss, a, replies =>
    match s.first? with
    | none => collectSections r ss a replies
    | some first => (collectItems r s first a replies).andThen (collectSections r ss)

/-! ## Blocks -/

/-- Asks for what a content needs. -/
def collectContent (r : Respondent) (c : Content) (a : Answers) (replies : List Reply) :
    Outcome :=
  (collectVariables r c.names a replies).andThen (collectSections r c.sections)

/-- The question whether an optional block is wanted. -/
def includePrompt (label : Text) : Text :=
  "Include optional section: ".toList ++ label ++ ['?']

/-- Asks for what a block needs. An optional block that is declined needs nothing. -/
def collectBlock (r : Respondent) (b : Block) (a : Answers) (replies : List Reply) : Outcome :=
  match b with
  | .plain c => collectContent r c a replies
  | .optional label c =>
    let prompt := includePrompt label
    let asked := Event.asked (.confirm prompt true)
    match replies with
    | [] => ⟨[asked], .error (r.lastChoice prompt)⟩
    | reply :: replies =>
      match reply.choice with
      | .error f => ⟨[asked], .error f⟩
      | .ok choice =>
        let included := choice.getD true
        let a := a.setChoice label included
        if included then (collectContent r c a replies).after [asked]
        else ⟨[asked], .ok (a, replies)⟩

/-- Asks for what blocks need, one after the other. -/
def collectBlocks (r : Respondent) : List Block → Answers → List Reply → Outcome
  | [], a, replies => .done a replies
  | b :: bs, a, replies => (collectBlock r b a replies).andThen (collectBlocks r bs)

/-- The course of a whole interview. -/
structure Course where
  events : List Event
  answers : Except PromptFailure Answers

/-- Asks for all that a document needs. -/
def collect (r : Respondent) (d : Document) : Course :=
  let o := collectBlocks r d.blocks .empty r.replies
  ⟨o.events, o.result.map Prod.fst⟩

/-- The questions that were asked, in their order. -/
def Course.questions (c : Course) : List Question :=
  c.events.filterMap fun
    | .asked q => some q
    | .logged _ => none

end Interview

end NoteTemplate
