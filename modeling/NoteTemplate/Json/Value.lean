import NoteTemplate.Text.Basic

/-!
# JSON values

The syntax tree of a JSON document. An object lists its members; in a document that has been
read they are sorted by their names, and of several members with one name only the last is
kept (`Value.sortMembers`).
-/

namespace NoteTemplate.Json

/-- A number is an integer, or the bits of a binary64 number. -/
inductive Number
  | integer (n : Int)
  | real (bits : UInt64)
deriving DecidableEq, Repr, Inhabited

/-- A JSON value. -/
inductive Value
  | null
  | bool (b : Bool)
  | number (n : Number)
  | string (s : Text)
  | array (elements : List Value)
  | object (members : List (Text × Value))
deriving Inhabited

namespace Value

variable {β : Type}

/-- Puts a member at its place among sorted members. One with the same name is replaced. -/
def insertMember (name : Text) (b : β) : List (Text × β) → List (Text × β)
  | [] => [(name, b)]
  | m :: ms =>
    if name = m.1 then (name, b) :: ms
    else if name < m.1 then (name, b) :: m :: ms
    else m :: insertMember name b ms

/-- Sorts members by name, the last of one name replacing the others. -/
def sortMembers (ms : List (Text × β)) : List (Text × β) :=
  ms.foldl (fun sorted m => insertMember m.1 m.2 sorted) []

end Value

end NoteTemplate.Json
