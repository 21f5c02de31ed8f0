import NoteTemplate.Text.Basic

/-!
# Characters of YAML

* `normalise` writes every line break as a line feed, except the line and paragraph
  separators, which stay what they are.
* `isForbidden`: characters that no document may contain.
-/

namespace NoteTemplate.Yaml

/-- A blank or a tab. -/
def isBlank (c : Char) : Bool := c = ' ' || c = '\t'

/-- A line break, once breaks are normalised. -/
def isBreak (c : Char) : Bool := c = '\n' || c = '\u2028' || c = '\u2029'

/-- Whether a word ends here. -/
def atWordEnd : Text → Bool
  | [] => true
  | c :: _ => isBlank c || isBreak c

/-- A character of the names of anchors and directives. -/
def isWordChar (c : Char) : Bool := c.isAlphanum || c = '_' || c = '-'

/-- Control characters other than tabs and line breaks, and characters that are none. -/
def isForbidden (c : Char) : Bool :=
  let n := c.toNat
  !(n = 0x09 || n = 0x0A || n = 0x0D || (0x20 ≤ n && n ≤ 0x7E) || n = 0x85 ||
    (0xA0 ≤ n && n ≤ 0xD7FF) || (0xE000 ≤ n && n ≤ 0xFFFD) || 0x10000 ≤ n)

/-- A carriage return with or without a line feed, and the next-line character, become line
feeds. -/
def normalise : Text → Text
  | [] => []
  | '\r' :: '\n' :: cs => '\n' :: normalise cs
  | c :: cs => (if c = '\r' ∨ c = '\u0085' then '\n' else c) :: normalise cs

/-- The mark that may begin a line. -/
def byteOrderMark : Char := '\uFEFF'

end NoteTemplate.Yaml
