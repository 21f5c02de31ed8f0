import NoteTemplate.Text.Basic

/-!
# Line breaks inside values

A value goes into a note on one line: every line break of it becomes the marker `<br>`.
A carriage return followed by a line feed is one break.

* `Text.markBreaks` puts the marker for every line break.
* `Text.dropFinalBreak` takes away the one line break that an editor adds when it saves;
  `Text.dropFinalBreaks` takes away all of them.
-/

namespace NoteTemplate.Text

/-- What stands for a line break in a note. -/
def breakMarker : Text := ['<', 'b', 'r', '>']

/-- The marker for a single carriage return or line feed, and any other character itself. -/
def markBreak (c : Char) : Text := if c = '\r' ∨ c = '\n' then breakMarker else [c]

/-- First the pairs of carriage return and line feed become markers, then what is left of
both. -/
def markBreaks (value : Text) : Text :=
  (replaceAll ['\r', '\n'] breakMarker value).flatMap markBreak

/-- The text without the line break it ends with. -/
def dropFinalBreak : Text → Text
  | [] => []
  | ['\r', '\n'] => []
  | ['\n'] => []
  | c :: cs => c :: dropFinalBreak cs

/-- The text without the carriage returns and line feeds it ends with. -/
def dropFinalBreaks (s : Text) : Text :=
  (s.reverse.dropWhile fun c => c = '\r' || c = '\n').reverse

end NoteTemplate.Text
