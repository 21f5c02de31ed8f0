import NoteTemplate.Yaml.Cursor

/-!
# Plain and quoted scalars

Such a scalar consists of words and the gaps between them. A gap inside a line is kept as it
is. A gap with line breaks is folded: one break becomes a blank, and of several the first is
dropped.

* `readPlain`, `readQuoted`: the text of a scalar and what follows it.
-/

namespace NoteTemplate.Yaml

/-! ## Gaps -/

/-- White space between two words. -/
structure Gap where
  /-- the blanks before the first line break -/
  blanks : Text
  breaks : Text
  /-- a tab stands where indentation belongs -/
  misplacedTab : Bool
deriving DecidableEq, Repr

namespace Gap

/-- The white space at a place. If the line is `broken` already, blanks are indentation and
not kept. A tab is misplaced among indentation of less than `indent` columns. -/
def read (indent : Nat) : (broken : Bool) → (line column bytes : Nat) → Text → Gap × Cursor
  | _, line, column, bytes, [] => (⟨[], [], false⟩, ⟨[], line, column, bytes⟩)
  | broken, line, column, bytes, c :: cs =>
    if isBlank c then
      let (gap, next) := read indent broken line (column + 1) (bytes + 1) cs
      if broken then
        ({ gap with misplacedTab := gap.misplacedTab || (c = '\t' && column < indent) }, next)
      else ({ gap with blanks := c :: gap.blanks }, next)
    else if isBreak c then
      let (gap, next) := read indent true (line + 1) 0 0 cs
      ({ gap with breaks := c :: gap.breaks }, next)
    else (⟨[], [], false⟩, ⟨c :: cs, line, column, bytes⟩)

/-- The gap at a cursor. -/
def readAt (indent : Nat) (broken : Bool) (c : Cursor) : Gap × Cursor :=
  read indent broken c.line c.column c.bytes c.rest

/-- What a gap adds to the text of a scalar. -/
def text (g : Gap) : Text :=
  match g.breaks with
  | [] => g.blanks
  | '\n' :: [] => [' ']
  | '\n' :: more => more
  | breaks => breaks

end Gap

/-! ## Plain scalars -/

/-- Brackets, braces and the comma, which structure flow collections. -/
def isFlowIndicator (c : Char) : Bool := ",[]\x7b\x7d".contains c

/-- The word at the front of a text. A colon ends it before white space. Inside a flow
collection indicators end it, and a colon may not stand before one. -/
def readWord (flow : Bool) : Text → Except Cause (Text × Text)
  | [] => .ok ([], [])
  | c :: cs =>
    if isBlank c || isBreak c then .ok ([], c :: cs)
    else if c = ':' && flow && (cs.head?.any fun d => isFlowIndicator d || d = '?') then
      .error .unexpectedColon
    else if c = ':' && atWordEnd cs then .ok ([], c :: cs)
    else if flow && isFlowIndicator c then .ok ([], c :: cs)
    else (readWord flow cs).map fun (word, rest) => (c :: word, rest)

/-- A scalar that has been read. -/
structure Scalar where
  text : Text
  next : Cursor
  /-- a line break has been read behind the text -/
  broken : Bool
deriving DecidableEq, Repr

/-- The gaps and words behind a word. Outside flow collections a line with less than `indent`
columns before its text ends the scalar. -/
def readWords (flow : Bool) (indent : Nat) : (fuel : Nat) → Cursor → Except Cause Scalar
  | 0, c => .ok ⟨[], c, false⟩
  | fuel + 1, c =>
    let (gap, next) := Gap.readAt indent false c
    let ended : Except Cause Scalar := .ok ⟨[], next, gap.breaks ≠ []⟩
    if gap.misplacedTab then .error .misplacedTab
    else if gap.blanks = [] && gap.breaks = [] then ended
    else if !flow && next.column < indent then ended
    else if next.atDocumentMarker || next.rest.head? = some '#' then ended
    else
      match readWord flow next.rest with
      | .error e => .error e
      | .ok ([], _) => ended
      | .ok (word, rest) =>
        (readWords flow indent fuel (next.moveTo rest)).map fun s =>
          { s with text := gap.text ++ word ++ s.text }

/-- A scalar without quotes. -/
def readPlain (flow : Bool) (indent : Nat) (c : Cursor) : Except Cause Scalar :=
  match readWord flow c.rest with
  | .error e => .error e
  | .ok (word, rest) =>
    (readWords flow indent (rest.length + 1) (c.moveTo rest)).map fun s =>
      { s with text := word ++ s.text }

/-! ## Quoted scalars -/

/-- The number that hexadecimal digits write. -/
def hexNumber? (digits : Text) : Option Nat :=
  digits.foldl (fun n d => do return (← n) * 16 + (← Text.hexValue? d)) (some 0)

/-- The character that a single character behind a backslash stands for. -/
def letter? (c : Char) : Option Char :=
  match c with
  | '0' => some '\x00'
  | 'a' => some '\x07'
  | 'b' => some '\x08'
  | 't' => some '\t'
  | '\t' => some '\t'
  | 'n' => some '\n'
  | 'v' => some '\x0b'
  | 'f' => some '\x0c'
  | 'r' => some '\r'
  | 'e' => some '\x1b'
  | ' ' => some ' '
  | '"' => some '"'
  | '/' => some '/'
  | '\\' => some '\\'
  | 'N' => some '\u0085'
  | '_' => some '\u00a0'
  | 'L' => some '\u2028'
  | 'P' => some '\u2029'
  | _ => none

/-- The number of digits behind the letter of a numeric escape. -/
def escapeDigits? (c : Char) : Option Nat :=
  match c with
  | 'x' => some 2
  | 'u' => some 4
  | 'U' => some 8
  | _ => none

/-- The character of an escape, its backslash excepted. -/
def readEscape : Text → Except Cause (Char × Text)
  | [] => .error .unknownEscape
  | c :: cs =>
    match letter? c, escapeDigits? c with
    | some d, _ => .ok (d, cs)
    | none, none => .error .unknownEscape
    | none, some n =>
      match hexNumber? (cs.take n) with
      | none => .error .invalidEscape
      | some value =>
        if n ≤ cs.length ∧ value.isValidChar then .ok (Char.ofNat value, cs.drop n)
        else .error .invalidEscape

/-- What ends a run of characters inside quotes. -/
inductive RunEnd
  | quote
  | gap
  | escapedBreak
deriving DecidableEq, Repr

/-- Characters and escapes up to a quote, white space, or an escaped line break. -/
def readRun (single : Bool) : (fuel : Nat) → Text → Except Cause (Text × RunEnd × Text)
  | 0, s => .ok ([], .gap, s)
  | _, [] => .ok ([], .gap, [])
  | fuel + 1, c :: cs =>
    let put := fun (d : Char) (rest : Text) =>
      (readRun single fuel rest).map fun (text, last, rest) => (d :: text, last, rest)
    if isBlank c || isBreak c then .ok ([], .gap, c :: cs)
    else if single then
      if c ≠ '\'' then put c cs
      else if cs.head? = some '\'' then put '\'' (cs.drop 1)
      else .ok ([], .quote, cs)
    else if c = '"' then .ok ([], .quote, cs)
    else if c ≠ '\\' then put c cs
    else if cs.head?.any isBreak then .ok ([], .escapedBreak, cs)
    else
      match readEscape cs with
      | .error e => .error e
      | .ok (d, rest) => put d rest

/-- The runs and gaps up to the closing quote. -/
def readRuns (single : Bool) : (fuel : Nat) → Cursor → Except Cause (Text × Cursor)
  | 0, _ => .error .unclosedQuote
  | fuel + 1, c =>
    if c.atDocumentMarker then .error .markerInQuotes
    else if c.rest = [] then .error .unclosedQuote
    else
      match readRun single c.rest.length c.rest with
      | .error e => .error e
      | .ok (text, .quote, rest) => .ok (text, c.moveTo rest)
      | .ok (text, .gap, rest) =>
        let (gap, next) := Gap.readAt 0 false (c.moveTo rest)
        (readRuns single fuel next).map fun (more, next) => (text ++ gap.text ++ more, next)
      | .ok (text, .escapedBreak, rest) =>
        let (gap, next) := Gap.readAt 0 true (c.moveTo rest).skipBreak
        (readRuns single fuel next).map fun (more, next) => (text ++ gap.breaks ++ more, next)

/-- A scalar in single or double quotes. -/
def readQuoted (single : Bool) (c : Cursor) : Except Cause Scalar :=
  (readRuns single (c.rest.length + 1) (c.skip 1)).map fun (text, next) => ⟨text, next, false⟩

end NoteTemplate.Yaml
