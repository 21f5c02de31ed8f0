import NoteTemplate.Yaml.BlockScalar
import NoteTemplate.Yaml.Token

/-!
# From texts to tokens

A text is read token by token. Some tokens are known late: whether a scalar is a key shows
only when a colon follows it, and then the tokens for the key, and perhaps for the mapping
that begins with it, go in front of it. So the scanner remembers where a key may have begun.

* `Scanner.step`: one token more.
* `tokens`: the tokens of a text.
-/

namespace NoteTemplate.Yaml

/-- A place that is the start of a key if a colon follows. -/
structure PossibleKey where
  /-- the number of tokens before it -/
  index : Nat
  line : Nat
  column : Nat
  /-- the size of what precedes it in the line -/
  bytes : Nat
  /-- nothing but a key may stand there -/
  required : Bool
deriving DecidableEq, Repr

/-- A text read up to some place. -/
structure Scanner where
  cursor : Cursor
  /-- the tokens so far, the last one first -/
  found : List (Token Text)
  /-- the columns of the block collections that are open, the innermost first -/
  indents : List Nat
  /-- a key may begin here -/
  keyAllowed : Bool
  /-- where a key may have begun in the innermost flow collection, or outside all of them -/
  possibleKey : Option PossibleKey
  /-- the same for what is around each open flow collection -/
  outerKeys : List (Option PossibleKey)
deriving DecidableEq, Repr

namespace Scanner

/-- Before a text. -/
def start (s : Text) : Scanner := ⟨Cursor.start s, [], [], true, none, []⟩

/-- Whether a flow collection is open. -/
def inFlow (s : Scanner) : Bool := !s.outerKeys.isEmpty

/-- The least column that lies inside the innermost block collection. -/
def margin (s : Scanner) : Nat :=
  match s.indents with
  | [] => 0
  | column :: _ => column + 1

def emit (s : Scanner) (t : Token Text) : Scanner := { s with found := t :: s.found }

/-- Puts a token behind the first `index` tokens. -/
def emitAt (s : Scanner) (index : Nat) (t : Token Text) : Scanner :=
  let later := s.found.length - index
  { s with found := s.found.take later ++ t :: s.found.drop later }

/-- Passes over the next characters and adds their token. -/
def take (s : Scanner) (n : Nat) (t : Token Text) : Scanner :=
  { s with cursor := s.cursor.skip n, found := t :: s.found }

/-! ## Indentation -/

/-- Opens a block collection at a column, unless that is not inside the innermost one. -/
def openBlock (s : Scanner) (column index : Nat) (t : Token Text) : Scanner :=
  if s.inFlow || column < s.margin then s
  else { s.emitAt index t with indents := column :: s.indents }

/-- Closes the block collections that are open in columns of which `beyond` holds. -/
def closeBlocks (s : Scanner) (beyond : Nat → Bool) : Scanner :=
  if s.inFlow then s
  else
    { s with
      found := (s.indents.takeWhile beyond).map (fun _ => .dedent) ++ s.found
      indents := s.indents.dropWhile beyond }

/-! ## Keys -/

/-- No key has begun. -/
def dropKey (s : Scanner) : Except Cause Scanner :=
  if s.possibleKey.any PossibleKey.required then .error .missingColon
  else .ok { s with possibleKey := none }

/-- A key may begin here. -/
def noteKey (s : Scanner) : Except Cause Scanner :=
  if s.keyAllowed then
    s.dropKey.map fun s =>
      let required := !s.inFlow && s.indents.head? = some s.cursor.column
      { s with
        possibleKey :=
          some ⟨s.found.length, s.cursor.line, s.cursor.column, s.cursor.bytes, required⟩ }
  else .ok s

/-- The size of the longest key in bytes, its colon excepted. -/
def maxKeySize : Nat := 1024

/-- Whether the key would span lines or be too long. -/
def PossibleKey.isStale (k : PossibleKey) (c : Cursor) : Bool :=
  k.line < c.line || k.bytes + maxKeySize < c.bytes

/-- Forgets the keys that cannot end here any more. -/
def dropStaleKeys (s : Scanner) : Except Cause Scanner :=
  let isStale := fun k => PossibleKey.isStale k s.cursor
  if (s.possibleKey :: s.outerKeys).any fun key => key.any fun k => isStale k && k.required then
    .error .missingColon
  else
    let fresh := fun (key : Option PossibleKey) => key.filter fun k => !isStale k
    .ok { s with possibleKey := fresh s.possibleKey, outerKeys := s.outerKeys.map fresh }

/-! ## White space -/

/-- Before the next character that is no white space and in no comment. A byte order mark that
begins a line is passed over, but takes up a column. -/
def skipSpace : (fuel : Nat) → Scanner → Scanner
  | 0, s => s
  | fuel + 1, s =>
    let mark := s.cursor.column = 0 && s.cursor.rest.head? = some byteOrderMark
    let c := if mark then s.cursor.skip 1 else s.cursor
    let tabs := s.inFlow || !s.keyAllowed
    let c := c.moveTo (c.rest.dropWhile fun d => d = ' ' || (tabs && d = '\t'))
    let c := c.skipComment
    match c.rest with
    | [] => { s with cursor := c }
    | d :: _ =>
      if isBreak d then
        skipSpace fuel { s with cursor := c.skipBreak, keyAllowed := s.keyAllowed || !s.inFlow }
      else { s with cursor := c }

/-! ## Tokens -/

/-- A marker of three characters, or a directive, before which all blocks end. -/
def leaveBlocks (s : Scanner) : Except Cause Scanner :=
  (s.closeBlocks fun _ => true).dropKey.map fun s => { s with keyAllowed := false }

def scanDirective (s : Scanner) : Except Cause Scanner := do
  let s ← s.leaveBlocks
  let c := s.cursor.skip 1
  let (d, rest) ← Directive.read c.rest
  return { s.emit (.directive d) with cursor := ← (c.moveTo rest).readLineEnd }

/-- A bracket or brace that opens a flow collection. -/
def scanOpening (s : Scanner) (t : Token Text) : Except Cause Scanner :=
  s.noteKey.map fun s =>
    { s.take 1 t with
      possibleKey := none, outerKeys := s.possibleKey :: s.outerKeys, keyAllowed := true }

/-- A bracket or brace that closes a flow collection. -/
def scanClosing (s : Scanner) (t : Token Text) : Except Cause Scanner :=
  s.dropKey.map fun s =>
    let s := { s.take 1 t with keyAllowed := false }
    match s.outerKeys with
    | [] => s
    | key :: keys => { s with possibleKey := key, outerKeys := keys }

def scanComma (s : Scanner) : Except Cause Scanner :=
  s.dropKey.map fun s => { s.take 1 .comma with keyAllowed := true }

/-- The dash before an entry. -/
def scanEntry (s : Scanner) : Except Cause Scanner :=
  if !s.inFlow && !s.keyAllowed then .error .misplacedEntry
  else
    (s.openBlock s.cursor.column s.found.length .sequenceStart).dropKey.map fun s =>
      { s.take 1 .entry with keyAllowed := true }

/-- The question mark before a key. -/
def scanKey (s : Scanner) : Except Cause Scanner :=
  if !s.inFlow && !s.keyAllowed then .error .misplacedKey
  else
    (s.openBlock s.cursor.column s.found.length .mappingStart).dropKey.map fun s =>
      { s.take 1 .key with keyAllowed := !s.inFlow }

/-- The colon before a value. -/
def scanValue (s : Scanner) : Except Cause Scanner :=
  match s.possibleKey with
  | some k =>
    let s := (s.emitAt k.index .key).openBlock k.column k.index .mappingStart
    .ok { s.take 1 .value with possibleKey := none, keyAllowed := false }
  | none =>
    if !s.inFlow && !s.keyAllowed then .error .misplacedValue
    else
      let s := s.openBlock s.cursor.column s.found.length .mappingStart
      .ok { s.take 1 .value with keyAllowed := !s.inFlow }

/-- A property of a node, which may begin a key. -/
def scanProperty (s : Scanner) (read : Text → Except Cause (Token Text × Text)) :
    Except Cause Scanner := do
  let s ← s.noteKey
  let (t, rest) ← read s.cursor.rest
  return { s.emit t with cursor := s.cursor.moveTo rest, keyAllowed := false }

def scanAnchor (s : Scanner) (token : Text → Token Text) : Except Cause Scanner :=
  s.scanProperty fun cs => (readAnchor (cs.drop 1)).map fun (name, rest) => (token name, rest)

def scanTag (s : Scanner) : Except Cause Scanner :=
  s.scanProperty fun cs => (Tag.read s.inFlow cs).map fun (t, rest) => (.tag t, rest)

def scanBlockScalar (s : Scanner) (folded : Bool) : Except Cause Scanner := do
  let s ← s.dropKey
  let scalar ← readBlockScalar folded s.margin s.cursor
  return { s.emit (.scalar scalar.text false) with cursor := scalar.next, keyAllowed := true }

def scanQuoted (s : Scanner) (single : Bool) : Except Cause Scanner := do
  let s ← s.noteKey
  let scalar ← readQuoted single s.cursor
  return { s.emit (.scalar scalar.text false) with cursor := scalar.next, keyAllowed := false }

def scanPlain (s : Scanner) : Except Cause Scanner := do
  let s ← s.noteKey
  let scalar ← readPlain s.inFlow s.margin s.cursor
  return {
    s.emit (.scalar scalar.text true) with cursor := scalar.next, keyAllowed := scalar.broken }

/-- Whether a plain scalar begins with `c` and continues with `rest`. -/
def startsPlain (flow : Bool) (c : Char) (rest : Text) : Bool :=
  if c = '-' then !rest.head?.any isBlank
  else if c = '?' || c = ':' then !flow && !atWordEnd rest
  else !(isBlank c || isBreak c || ",[]\x7b\x7d#&*!|>'\"%@`".contains c)

/-- The token that begins with `c` and continues with `rest`. -/
def scanToken (s : Scanner) (c : Char) (rest : Text) : Except Cause Scanner :=
  let flow := s.inFlow
  if s.cursor.column = 0 ∧ c = '%' then s.scanDirective
  else if s.cursor.atMarker '-' then s.leaveBlocks.map fun s => s.take 3 .documentStart
  else if s.cursor.atMarker '.' then s.leaveBlocks.map fun s => s.take 3 .documentEnd
  else if c = '[' then s.scanOpening .openBracket
  else if c = '{' then s.scanOpening .openBrace
  else if c = ']' then s.scanClosing .closeBracket
  else if c = '}' then s.scanClosing .closeBrace
  else if c = ',' then s.scanComma
  else if c = '-' ∧ atWordEnd rest then s.scanEntry
  else if c = '?' ∧ (flow || atWordEnd rest) then s.scanKey
  else if c = ':' ∧ (flow || atWordEnd rest) then s.scanValue
  else if c = '*' then s.scanAnchor .repeated
  else if c = '&' then s.scanAnchor .anchor
  else if c = '!' then s.scanTag
  else if (c = '|' ∨ c = '>') ∧ !flow then s.scanBlockScalar (c = '>')
  else if c = '\'' ∨ c = '"' then s.scanQuoted (c = '\'')
  else if startsPlain flow c rest then s.scanPlain
  else .error .unexpectedCharacter

/-- Passes over white space, closes the blocks that end there, and scans the token that comes
next. Also tells whether there was one. -/
def step (s : Scanner) : Except Cause (Scanner × Bool) := do
  let s ← (s.skipSpace (s.cursor.rest.length + 1)).dropStaleKeys
  match s.cursor.rest with
  | [] => return (← s.leaveBlocks, false)
  | c :: rest =>
    return (← (s.closeBlocks fun column => s.cursor.column < column).scanToken c rest, true)

/-- Scans up to the end of the text. -/
def run : (fuel : Nat) → Scanner → Except Cause (List (Token Text))
  | 0, _ => .error .outOfFuel
  | fuel + 1, s =>
    match s.step with
    | .error e => .error e
    | .ok (s, true) => run fuel s
    | .ok (s, false) => .ok s.found.reverse

end Scanner

/-- The tokens of a text. -/
def tokens (s : Text) : Except Cause (List (Token Text)) :=
  if s.any isForbidden then .error .forbiddenCharacter
  else Scanner.run (s.length + 1) (Scanner.start (normalise s))

end NoteTemplate.Yaml
