import NoteTemplate.Json.Numeral
import NoteTemplate.Text.Display

/-!
# Values of the wrong kind

A document can be well-formed and still hold a value where one of another kind belongs. Such
a mismatch names what was found and what was expected.
-/

namespace NoteTemplate.Json

/-- What belongs at a place. -/
inductive Expectation
  | answers
  | map
  | string
  | boolean
deriving DecidableEq, Repr

def Expectation.name : Expectation → String
  | answers => "struct Answers"
  | map => "a map"
  | string => "a string"
  | boolean => "a boolean"

/-- A value found where something else belongs. -/
structure Mismatch where
  found : Value
  expected : Expectation

/-- A value as a message speaks of it. -/
def Value.describe : Value → String
  | null => "null"
  | bool b => "boolean `" ++ (if b then "true" else "false") ++ "`"
  | number (.integer n) => "integer `" ++ toString n ++ "`"
  | number n => "floating point `" ++ n.render ++ "`"
  | string s => "string " ++ String.ofList (Text.display s)
  | array _ => "sequence"
  | object _ => "map"

def Mismatch.message (m : Mismatch) : String :=
  "invalid type: " ++ m.found.describe ++ ", expected " ++ m.expected.name

end NoteTemplate.Json
