import NoteTemplate.Yaml.Scalar

/-!
# Anchors, tags and directives

* `readAnchor`: the name that a node is given, or by which it is repeated.
* `Tag.read`: the tag of a node, whose handle directives may define.
* `Directive.read`: a line that precedes a document and begins with `%`.
-/

namespace NoteTemplate.Yaml

/-! ## Anchors -/

/-- What may follow a name without white space in between. -/
def endsName : Text → Bool
  | [] => true
  | c :: _ => isBlank c || isBreak c || "?:,]\x7d%@`".contains c

/-- The name of an anchor, and what follows it. -/
def readAnchor (s : Text) : Except Cause (Text × Text) :=
  let name := s.takeWhile isWordChar
  let rest := s.dropWhile isWordChar
  if name = [] ∨ endsName rest = false then .error .invalidAnchor else .ok (name, rest)

/-! ## Tags -/

/-- The tag of a node: a handle, and what follows it. -/
structure Tag where
  /-- empty if the tag is written out -/
  handle : Text
  suffix : Text
deriving DecidableEq, Repr

namespace Tag

/-- What a part of a tag says. It ends at the character NUL, which can only come from an
escape. -/
def cut (part : Text) : Text := part.takeWhile (· ≠ '\x00')

/-- A character of a tag. Commas and brackets belong to it only if it is `verbatim`. -/
def isTagChar (verbatim : Bool) (c : Char) : Bool :=
  isWordChar c || ";/?:@&=+$.!~*'()%".contains c || (verbatim && ",[]".contains c)

/-- The octet behind a percent sign. -/
def readOctet : Text → Except Cause (Nat × Text)
  | a :: b :: rest =>
    match Text.hexValue? a, Text.hexValue? b with
    | some m, some n => .ok (16 * m + n, rest)
    | _, _ => .error .invalidTag
  | _ => .error .invalidTag

/-- The number of octets that follow the first octet of a character. -/
def followers? (octet : Nat) : Option Nat :=
  if octet < 0x80 then some 0
  else if octet < 0xC0 then none
  else if octet < 0xE0 then some 1
  else if octet < 0xF0 then some 2
  else if octet < 0xF8 then some 3
  else none

/-- The octets that follow the first octet of a character, each escaped. -/
def readFollowers : (n : Nat) → Text → Except Cause (Text × Text)
  | 0, s => .ok ([], s)
  | n + 1, '%' :: cs => do
    let (octet, rest) ← readOctet cs
    if octet < 0x80 ∨ 0xC0 ≤ octet then throw .invalidTag
    let (more, rest) ← readFollowers n rest
    return (Char.ofNat octet :: more, rest)
  | _ + 1, _ => .error .invalidTag

/-- The longest run of characters of a tag. An escaped octet becomes the character of that
number. -/
def readChars (verbatim : Bool) : (fuel : Nat) → Text → Except Cause (Text × Text)
  | 0, s => .ok ([], s)
  | _, [] => .ok ([], [])
  | fuel + 1, c :: cs =>
    if isTagChar verbatim c = false then .ok ([], c :: cs)
    else if c = '%' then do
      let (octet, rest) ← readOctet cs
      let some n := followers? octet | throw .invalidTag
      let (followers, rest) ← readFollowers n rest
      let (more, rest) ← readChars verbatim fuel rest
      return (Char.ofNat octet :: followers ++ more, rest)
    else (readChars verbatim fuel cs).map fun (more, rest) => (c :: more, rest)

/-- A run of characters of a tag, which has to have one. -/
def readUri (verbatim : Bool) (s : Text) : Except Cause (Text × Text) :=
  match readChars verbatim s.length s with
  | .error e => .error e
  | .ok ([], _) => .error .invalidTag
  | .ok (uri, rest) => .ok (uri, rest)

/-- The exclamation mark of a handle, its word, and whether a second mark ends it. -/
def readHandle : Text → Option (Text × Bool × Text)
  | '!' :: cs =>
    let word := cs.takeWhile isWordChar
    match cs.dropWhile isWordChar with
    | '!' :: rest => some ('!' :: word ++ ['!'], true, rest)
    | rest => some ('!' :: word, false, rest)
  | _ => none

/-- A tag, not yet checked against what follows it. An exclamation mark that nothing follows
is a tag of its own. -/
def readForm : Text → Except Cause (Tag × Text)
  | '!' :: '<' :: cs => do
    let (uri, rest) ← readUri true cs
    match rest with
    | '>' :: rest => return (⟨[], uri⟩, rest)
    | _ => throw .invalidTag
  | s =>
    match readHandle s with
    | none => .error .invalidTag
    | some (handle, true, rest) =>
      (readUri false rest).map fun (uri, rest) => (⟨handle, uri⟩, rest)
    | some (word, false, rest) =>
      (readChars false rest.length rest).map fun (uri, rest) =>
        let suffix := word.drop 1 ++ uri
        (if cut suffix = [] then ⟨[], ['!']⟩ else ⟨['!'], suffix⟩, rest)

/-- A tag, which white space has to follow, or a comma inside a flow collection. -/
def read (flow : Bool) (s : Text) : Except Cause (Tag × Text) := do
  let (tag, rest) ← readForm s
  if atWordEnd rest || (flow && rest.head? = some ',') then return (tag, rest)
  else throw .invalidTag

end Tag

/-! ## Directives -/

/-- A directive of a document. -/
inductive Directive
  | version (major minor : Nat)
  /-- what the tags with a handle begin with -/
  | handle (name start : Text)
deriving DecidableEq, Repr

namespace Directive

/-- A number of at most nine digits. -/
def readNumber (s : Text) : Except Cause (Nat × Text) :=
  let digits := s.takeWhile Char.isDigit
  if digits = [] ∨ 9 < digits.length then .error .invalidDirective
  else .ok (digits.foldl (fun n d => 10 * n + (d.toNat - 48)) 0, s.dropWhile Char.isDigit)

/-- The two numbers of a version. -/
def readVersion (s : Text) : Except Cause (Directive × Text) := do
  let (major, rest) ← readNumber (s.dropWhile isBlank)
  match rest with
  | '.' :: rest =>
    let (minor, rest) ← readNumber rest
    return (.version major minor, rest)
  | _ => throw .invalidDirective

/-- A handle and what it stands for. -/
def readDefinition (s : Text) : Except Cause (Directive × Text) := do
  let some (name, closed, rest) := Tag.readHandle (s.dropWhile isBlank)
    | throw .invalidDirective
  if !closed && name ≠ ['!'] then throw .invalidDirective
  if !rest.head?.any isBlank then throw .invalidDirective
  let (start, rest) ← Tag.readUri true (rest.dropWhile isBlank)
  if atWordEnd rest then return (.handle name start, rest) else throw .invalidDirective

/-- A directive, its percent sign excepted. -/
def read (s : Text) : Except Cause (Directive × Text) :=
  let name := s.takeWhile isWordChar
  let rest := s.dropWhile isWordChar
  if atWordEnd rest = false then .error .invalidDirective
  else if name = ['Y', 'A', 'M', 'L'] then readVersion rest
  else if name = ['T', 'A', 'G'] then readDefinition rest
  else .error .invalidDirective

end Directive

end NoteTemplate.Yaml
