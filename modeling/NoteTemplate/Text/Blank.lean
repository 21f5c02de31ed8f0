import NoteTemplate.Text.Basic

/-!
# Blank texts

A character is blank when it has the Unicode property White_Space. A text of blank
characters only counts as empty: it makes no block and no observable value.
-/

namespace NoteTemplate.Text

/-- Unicode white space. -/
def blankChar (c : Char) : Bool :=
  let n := c.toNat
  (9 ≤ n && n ≤ 13) || n == 0x20 || n == 0x85 || n == 0xA0 || n == 0x1680 ||
    (0x2000 ≤ n && n ≤ 0x200A) || n == 0x2028 || n == 0x2029 || n == 0x202F || n == 0x205F ||
    n == 0x3000

/-- Nothing but blank characters. -/
def isBlank (s : Text) : Bool := s.all blankChar

@[simp] theorem isBlank_nil : isBlank [] = true := rfl

theorem isBlank_append (a b : Text) : isBlank (a ++ b) = (isBlank a && isBlank b) :=
  List.all_append

end NoteTemplate.Text
