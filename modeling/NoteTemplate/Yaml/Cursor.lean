import NoteTemplate.Yaml.Cause
import NoteTemplate.Yaml.Character

/-!
# Places in a YAML text

A cursor stands before the text that is not read yet and knows its line and column, since
both decide how the text is read. It also knows how many bytes of the line it has passed, for
the length of a key is measured in bytes.
-/

namespace NoteTemplate.Yaml

/-- A place in a text. Lines and columns count from 0. -/
structure Cursor where
  rest : Text
  line : Nat
  column : Nat
  /-- the size in UTF-8 of what precedes it in the line -/
  bytes : Nat
deriving DecidableEq, Repr

namespace Cursor

/-- The start of a text. -/
def start (s : Text) : Cursor := ⟨s, 0, 0, 0⟩

/-- Behind the next characters, none of which is a line break. -/
def skip (c : Cursor) (n : Nat) : Cursor :=
  { c with
    rest := c.rest.drop n
    column := c.column + n
    bytes := c.bytes + Text.byteSize (c.rest.take n) }

/-- Before `rest`, which is what follows some more characters of the line. -/
def moveTo (c : Cursor) (rest : Text) : Cursor :=
  c.skip (c.rest.length - rest.length)

/-- Behind the line break that comes next. -/
def skipBreak (c : Cursor) : Cursor := ⟨c.rest.drop 1, c.line + 1, 0, 0⟩

/-- Behind the blanks that come next. -/
def skipBlanks (c : Cursor) : Cursor := c.moveTo (c.rest.dropWhile isBlank)

/-- Behind a comment, if one comes next. -/
def skipComment (c : Cursor) : Cursor :=
  match c.rest with
  | '#' :: cs => c.moveTo (cs.dropWhile fun d => !isBreak d)
  | _ => c

/-- Behind the rest of the line, which may hold a comment and nothing else, and its break. -/
def readLineEnd (c : Cursor) : Except Cause Cursor :=
  let c := c.skipBlanks.skipComment
  match c.rest with
  | [] => .ok c
  | d :: _ => if isBreak d then .ok c.skipBreak else .error .textAtLineEnd

/-- Whether a line begins with three such characters, alone or before white space. -/
def atMarker (c : Cursor) (mark : Char) : Bool :=
  c.column = 0 && c.rest.take 3 = [mark, mark, mark] && atWordEnd (c.rest.drop 3)

/-- Whether a line begins with a marker of the start or the end of a document. -/
def atDocumentMarker (c : Cursor) : Bool := c.atMarker '-' || c.atMarker '.'

end Cursor

end NoteTemplate.Yaml
