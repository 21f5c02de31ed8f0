import NoteTemplate.Json.Numeral
import NoteTemplate.Json.Quoted

/-!
# Reading JSON

* `Value.read`: one value, nested to a given depth.
* `Value.ofText`: a whole document. Arrays and objects nest at most 127 deep.
* `skip`: a value that nobody looks at. Its syntax is checked, and nothing else: it may nest
  deeper, hold numbers that are out of range, and hold surrogates that stand alone.
-/

namespace NoteTemplate.Json

/-! ## Separators -/

/-- The characters that may stand between tokens. -/
def isSpace (c : Char) : Bool := c = ' ' || c = '\n' || c = '\t' || c = '\r'

/-- The text without the space at its front. -/
def skipSpace (s : Text) : Text := s.dropWhile isSpace

/-- What a list between brackets or braces consists of. -/
structure Sequence (α : Type) where
  /-- the character that ends it -/
  close : Char
  /-- the text ends where an item or the end could follow -/
  atEnd : Cause
  /-- something else follows an item -/
  afterItem : Cause
  /-- reads an item, before which there is no space -/
  item : Read α

namespace Sequence

variable {α : Type}

/-- The items behind an item, each after a comma, up to the end of the list. -/
def readMore (q : Sequence α) : (fuel : Nat) → Read (List α)
  | 0, s => .error ⟨q.atEnd, s, 0⟩
  | fuel + 1, s =>
    match skipSpace s with
    | [] => .error ⟨q.atEnd, [], 0⟩
    | c :: cs =>
      if c = q.close then .ok ([], cs)
      else if c = ',' then
        match skipSpace cs with
        | [] => .error ⟨.endOfValue, [], 0⟩
        | d :: ds =>
          if d = q.close then .error ⟨.trailingComma, d :: ds, 1⟩
          else
            match q.item (d :: ds) with
            | .error f => .error f
            | .ok (a, rest) =>
              match q.readMore fuel rest with
              | .error f => .error f
              | .ok (as, rest) => .ok (a :: as, rest)
      else .error ⟨q.afterItem, c :: cs, 1⟩

/-- The items of a list, up to its end. -/
def read (q : Sequence α) : Read (List α) := fun s =>
  match skipSpace s with
  | [] => .error ⟨q.atEnd, [], 0⟩
  | c :: cs =>
    if c = q.close then .ok ([], cs)
    else
      match q.item (c :: cs) with
      | .error f => .error f
      | .ok (a, rest) =>
        match q.readMore (rest.length + 1) rest with
        | .error f => .error f
        | .ok (as, rest) => .ok (a :: as, rest)

end Sequence

/-- The elements of an array, its bracket excepted. -/
def elements {α : Type} (element : Read α) : Sequence α :=
  ⟨']', .endOfList, .expectedListEnd, element⟩

/-- A name and the value behind the colon. -/
def readMember {α : Type} (paired : Bool) (value : (name : Text) → Read α) : Read (Text × α) :=
  fun s =>
    match s with
    | [] => .error ⟨.endOfObject, [], 0⟩
    | c :: cs =>
      if c = '"' then
        match Quoted.read paired cs with
        | .error f => .error f
        | .ok (name, rest) =>
          match skipSpace rest with
          | [] => .error ⟨.endOfObject, [], 0⟩
          | d :: ds =>
            if d = ':' then
              match value name ds with
              | .error f => .error f
              | .ok (v, rest) => .ok ((name, v), rest)
            else .error ⟨.expectedColon, d :: ds, 1⟩
      else .error ⟨.nameNotString, c :: cs, 1⟩

/-- The members of an object, its brace excepted. -/
def members {α : Type} (paired : Bool) (value : (name : Text) → Read α) : Sequence (Text × α) :=
  ⟨'}', .endOfObject, .expectedObjectEnd, readMember paired value⟩

/-! ## Values -/

/-- How strictly a value is read. -/
structure Strictness where
  /-- surrogates have to come in pairs -/
  paired : Bool
  /-- numbers have to be in range -/
  finite : Bool

/-- The rest of the word `null`, `true` or `false`. -/
def readWord : (letters : Text) → Text → Except Fault Text
  | [], s => .ok s
  | _ :: _, [] => .error ⟨.endOfValue, [], 0⟩
  | l :: ls, c :: cs => if c = l then readWord ls cs else .error ⟨.expectedWord, c :: cs, 1⟩

namespace Value

/-- A value, the values inside it being read by `inner`. There are none inside it if it is
nested as deeply as allowed. -/
def readWith (r : Strictness) (inner : Option (Read Value)) : Read Value := fun s =>
  match skipSpace s with
  | [] => .error ⟨.endOfValue, [], 0⟩
  | c :: cs =>
    if c = 'n' then (readWord ['u', 'l', 'l'] cs).map fun rest => (.null, rest)
    else if c = 't' then (readWord ['r', 'u', 'e'] cs).map fun rest => (.bool true, rest)
    else if c = 'f' then (readWord ['a', 'l', 's', 'e'] cs).map fun rest => (.bool false, rest)
    else if c = '-' then
      (Numeral.readValue r.finite true cs).map fun (n, rest) => (.number n, rest)
    else if c.isDigit then
      (Numeral.readValue r.finite false (c :: cs)).map fun (n, rest) => (.number n, rest)
    else if c = '"' then (Quoted.read r.paired cs).map fun (t, rest) => (.string t, rest)
    else if c = '[' ∨ c = '{' then
      match inner with
      | none => .error ⟨.tooDeep, c :: cs, 1⟩
      | some value =>
        if c = '[' then ((elements value).read cs).map fun (vs, rest) => (.array vs, rest)
        else
          ((members r.paired fun _ => value).read cs).map fun (ms, rest) =>
            (.object (sortMembers ms), rest)
    else .error ⟨.expectedValue, c :: cs, 1⟩

/-- A value in which arrays and objects nest at most `depth` deep. -/
def read (r : Strictness) : (depth : Nat) → Read Value
  | 0 => readWith r none
  | depth + 1 => readWith r (some (read r depth))

/-- The depth to which a document may nest. -/
def maxDepth : Nat := 127

/-- Nothing but space may follow a document. -/
def atEnd (s : Text) : Except Fault Unit :=
  match skipSpace s with
  | [] => .ok ()
  | rest => .error ⟨.trailingCharacters, rest, 1⟩

/-- The value that a document consists of. -/
def ofText (s : Text) : Except Fault Value :=
  match read ⟨true, true⟩ maxDepth s with
  | .error f => .error f
  | .ok (v, rest) => (atEnd rest).map fun _ => v

end Value

/-- Reads a value and forgets it. -/
def skip : Read Unit := fun s =>
  (Value.read ⟨false, false⟩ (s.length + 1) s).map fun (_, rest) => ((), rest)

end NoteTemplate.Json
