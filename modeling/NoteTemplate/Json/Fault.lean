import NoteTemplate.Text.Basic

/-!
# Faults in JSON texts

A fault is a cause together with the place where reading stopped, given by the text that was
not read. `Fault.location` turns the place into a line and a column. The column counts the
bytes of the line that were read, so it is 0 right after a line feed.
-/

namespace NoteTemplate.Json

/-- Why a text is no JSON document. -/
inductive Cause
  | endOfList
  | endOfObject
  | endOfString
  | endOfValue
  | expectedColon
  | expectedListEnd
  | expectedObjectEnd
  | expectedWord
  | expectedValue
  | invalidEscape
  | invalidNumber
  | numberOutOfRange
  | controlCharacter
  | nameNotString
  | loneSurrogate
  | trailingComma
  | trailingCharacters
  | endOfEscape
  | tooDeep
  | otherKind
  | unfitFields
deriving DecidableEq, Repr

def Cause.message : Cause → String
  | endOfList => "EOF while parsing a list"
  | endOfObject => "EOF while parsing an object"
  | endOfString => "EOF while parsing a string"
  | endOfValue => "EOF while parsing a value"
  | expectedColon => "expected `:`"
  | expectedListEnd => "expected `,` or `]`"
  | expectedObjectEnd => "expected `,` or `\x7d`"
  | expectedWord => "expected ident"
  | expectedValue => "expected value"
  | invalidEscape => "invalid escape"
  | invalidNumber => "invalid number"
  | numberOutOfRange => "number out of range"
  | controlCharacter => "control character (\\u0000-\\u001F) found while parsing a string"
  | nameNotString => "key must be a string"
  | loneSurrogate => "lone leading surrogate in hex escape"
  | trailingComma => "trailing comma"
  | trailingCharacters => "trailing characters"
  | endOfEscape => "unexpected end of hex escape"
  | tooDeep => "recursion limit exceeded"
  | otherKind => "expected a value of another kind"
  | unfitFields => "a field is missing or given twice"

/-- A cause and where it was found. -/
structure Fault where
  cause : Cause
  /-- the text not read yet -/
  rest : Text
  /-- how many bytes of it were looked at nevertheless -/
  ahead : Nat := 0
deriving DecidableEq, Repr

/-- A line and a column. Lines count from 1. -/
structure Location where
  line : Nat
  column : Nat
deriving DecidableEq, Repr

namespace Location

/-- One byte further. -/
def afterByte (l : Location) (byte : UInt8) : Location :=
  if byte = 10 then ⟨l.line + 1, 0⟩ else ⟨l.line, l.column + 1⟩

/-- The location behind a text. -/
def after (read : List UInt8) : Location := read.foldl afterByte ⟨1, 0⟩

end Location

/-- Where in `text` the fault was found. -/
def Fault.location (f : Fault) (text : Text) : Location :=
  let read := text.take (text.length - f.rest.length)
  Location.after (Text.utf8 read ++ (Text.utf8 (f.rest.take f.ahead)).take f.ahead)

/-- The cause with its place in `text`. -/
def Fault.message (f : Fault) (text : Text) : String :=
  let l := f.location text
  f.cause.message ++ " at line " ++ toString l.line ++ " column " ++ toString l.column

/-- Reads something from the front of a text and returns what follows it. -/
abbrev Read (α : Type) := Text → Except Fault (α × Text)

end NoteTemplate.Json
