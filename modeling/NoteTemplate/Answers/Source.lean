import NoteTemplate.Text.Basic

/-!
# Where answers come from
-/

namespace NoteTemplate

/-- Where the answers for a note come from. -/
inductive AnswerSource
  | input
  | file (path : Text)
  /-- there are no answers yet, so the user is asked -/
  | interview
deriving DecidableEq, Repr

/-- The input goes before a file. -/
def AnswerSource.choose (fromInput : Bool) (file : Option Text) : AnswerSource :=
  if fromInput then .input
  else
    match file with
    | some path => .file path
    | none => .interview

end NoteTemplate
