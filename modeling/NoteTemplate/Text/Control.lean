import NoteTemplate.Text.Basic

/-!
# Control characters

Some characters are not shown but steer a terminal: control characters, and the sequences that
an escape character begins. Output that does not go to a terminal is written without them.
Tabs and line breaks are shown wherever they do not belong to a string.

* `Text.shown`: the characters of a text that are shown.
-/

namespace NoteTemplate.Text

/-! ## Characters -/

/-- A tab, or a character that begins a line or a page. -/
def isLayout (c : Char) : Bool := c = '\t' || c = '\n' || c = '\x0c' || c = '\r'

/-- A control character of ASCII. -/
def isControl (c : Char) : Bool := c.toNat < 0x20 || c.toNat = 0x7f

/-- The octet that ends a string. In UTF-8 it is part of longer characters. -/
def terminator : UInt8 := 0x9c

/-! ## Sequences -/

/-- How far a sequence has come. -/
inductive Control
  /-- no sequence has begun -/
  | outside
  /-- behind the escape character -/
  | escape
  /-- behind the escape character and an intermediate one -/
  | intermediate
  /-- behind `[`, in a sequence with parameters -/
  | parameters
  /-- behind `]`, in a command, which a bell ends -/
  | command
  /-- behind `P`, where a string for a device begins -/
  | device
  /-- in the parameters for a device -/
  | deviceParameters
  /-- behind an intermediate character for a device -/
  | deviceIntermediate
  /-- in a string -/
  | string
deriving DecidableEq, Repr

namespace Control

/-- Whether layout characters are shown. -/
def showsLayout : Control → Bool
  | outside | escape | intermediate | parameters => true
  | command | device | deviceParameters | deviceIntermediate | string => false

/-- Behind a character of ASCII that is no control. -/
def afterGraphic (k : Control) (c : Char) : Control :=
  let n := c.toNat
  match k with
  | outside => outside
  | escape =>
    if n < 0x30 then intermediate
    else
      match c with
      | '[' => parameters
      | ']' => command
      | 'P' => device
      | 'X' | '^' | '_' => string
      | _ => outside
  | intermediate => if n < 0x30 then intermediate else outside
  | parameters => if n < 0x40 then parameters else outside
  | command => command
  | device =>
    if n < 0x30 then deviceIntermediate else if n < 0x40 then deviceParameters else string
  | deviceParameters =>
    if n < 0x30 then deviceIntermediate else if n < 0x3c then deviceParameters else string
  | deviceIntermediate => if n < 0x30 then deviceIntermediate else string
  | string => string

/-- Behind a character that is not shown. An escape begins a sequence anew, and the characters
for cancelling and substituting end it. -/
def after (k : Control) (c : Char) : Control :=
  if c = '\x1b' then escape
  else if c = '\x18' ∨ c = '\x1a' then outside
  else if c = '\x07' ∧ k = command then outside
  else if isControl c then k
  else if c.toNat < 0x80 then k.afterGraphic c
  else if k = string ∧ (String.utf8EncodeChar c).contains terminator then outside
  else k

end Control

/-! ## Texts -/

/-- A place in a text. -/
structure ControlPlace where
  sequence : Control
  /-- a layout character has interrupted the sequence. What follows is shown, until a control
  comes with which the sequence goes on. -/
  interrupted : Bool
deriving DecidableEq, Repr

namespace ControlPlace

/-- Where no sequence has begun. -/
def start : ControlPlace := ⟨.outside, false⟩

/-- Whether a character is shown. -/
def shows (p : ControlPlace) (c : Char) : Bool :=
  if isLayout c then p.interrupted || p.sequence.showsLayout
  else !isControl c && (p.interrupted || p.sequence = .outside)

/-- Behind a character. One that is shown and not in ASCII ends an interrupted sequence. -/
def next (p : ControlPlace) (c : Char) : ControlPlace :=
  if p.shows c then
    if c.toNat < 0x80 then ⟨p.sequence, p.sequence ≠ .outside⟩ else start
  else ⟨p.sequence.after c, false⟩

end ControlPlace

/-- The characters that are shown from a place on. -/
def shownFrom : ControlPlace → Text → Text
  | _, [] => []
  | p, c :: cs => if p.shows c then c :: shownFrom (p.next c) cs else shownFrom (p.next c) cs

/-- The characters that are shown. -/
def shown (s : Text) : Text := shownFrom .start s

end NoteTemplate.Text
