import NoteTemplate.Decimal.Shortest
import NoteTemplate.Json.Fault
import NoteTemplate.Json.Value

/-!
# JSON numbers

A numeral is read as its digits first and valued afterwards.

* `Numeral.read`: the digits of a numeral.
* `Numeral.value`: an integer if there is neither a fraction nor an exponent and it fits into
  a machine word, otherwise a binary64 number. Digits that no longer fit into the word that
  collects them are dropped, those of the whole part counting as powers of ten.
* `Number.render`: the shortest text of a number.
-/

namespace NoteTemplate.Json

/-- The parts of a numeral. -/
structure Numeral where
  negative : Bool
  whole : Text
  /-- the digits behind the point -/
  fraction : Option Text
  /-- the digits of the exponent, and whether it is negative -/
  exponent : Option (Bool × Text)
deriving DecidableEq, Repr

namespace Numeral

/-! ## Reading -/

/-- The digits at the front of a text. -/
def readDigits (s : Text) : Text × Text := (s.takeWhile Char.isDigit, s.dropWhile Char.isDigit)

/-- The whole part: a zero, or digits that do not begin with one. -/
def readWhole (s : Text) : Except Fault (Text × Text) :=
  match s with
  | [] => .error ⟨.endOfValue, [], 0⟩
  | c :: cs =>
    if !c.isDigit then .error ⟨.invalidNumber, s, 1⟩
    else if c = '0' then
      match cs with
      | [] => .ok (['0'], [])
      | d :: _ => if d.isDigit then .error ⟨.invalidNumber, cs, 1⟩ else .ok (['0'], cs)
    else .ok (readDigits s)

/-- The fraction, if a point comes next. -/
def readFraction (s : Text) : Except Fault (Option Text × Text) :=
  match s with
  | '.' :: cs =>
    match readDigits cs with
    | ([], []) => .error ⟨.endOfValue, [], 0⟩
    | ([], rest) => .error ⟨.invalidNumber, rest, 1⟩
    | (digits, rest) => .ok (some digits, rest)
  | _ => .ok (none, s)

/-- The sign of an exponent. -/
def readSign (s : Text) : Bool × Text :=
  match s with
  | '+' :: cs => (false, cs)
  | '-' :: cs => (true, cs)
  | _ => (false, s)

/-- The exponent, if the letter e comes next. -/
def readExponent (s : Text) : Except Fault (Option (Bool × Text) × Text) :=
  match s with
  | [] => .ok (none, s)
  | c :: cs =>
    if c = 'e' ∨ c = 'E' then
      let (negative, rest) := readSign cs
      match readDigits rest with
      | ([], []) => .error ⟨.endOfValue, [], 0⟩
      | ([], rest) => .error ⟨.invalidNumber, rest, 1⟩
      | (digits, rest) => .ok (some (negative, digits), rest)
    else .ok (none, s)

/-- The numeral at the front of a text, its sign excepted. -/
def read (negative : Bool) (s : Text) : Except Fault (Numeral × Text) := do
  let (whole, s) ← readWhole s
  let (fraction, s) ← readFraction s
  let (exponent, s) ← readExponent s
  return (⟨negative, whole, fraction, exponent⟩, s)

/-! ## Value -/

/-- The largest word. -/
def maxWord : Nat := 0xffffffffffffffff

/-- The largest exponent that is taken at its value. -/
def maxExponent : Nat := 0x7fffffff

def digitValue (c : Char) : Nat := c.toNat - 48

/-- Appends digits to a number as long as it stays within a limit, and returns the digits
left over. -/
def collect (limit : Nat) : (n : Nat) → Text → Nat × Text
  | n, [] => (n, [])
  | n, d :: ds =>
    let next := n * 10 + digitValue d
    if next ≤ limit then collect limit next ds else (n, d :: ds)

/-- `f * 10 ^ e`, unless it is out of range. A power of ten that is no binary64 number is
divided off in steps. -/
def scale : (steps : Nat) → (f : Float) → (e : Int) → Option Float
  | 0, f, _ => some f
  | steps + 1, f, e =>
    let power := Float.ofScientific 1 false e.natAbs
    if e.natAbs ≤ 308 then
      if e < 0 then some (f / power)
      else if (f * power).isInf then none
      else some (f * power)
    else if f == 0 then some f
    else if e < 0 then scale steps (f / Float.ofScientific 1 false 308) (e + 308)
    else none

/-- The number `significand * 10 ^ e` with a sign. -/
def toReal? (negative : Bool) (significand : Nat) (e : Int) : Option Number :=
  (scale 4 significand.toUInt64.toFloat e).map fun f =>
    .real (if negative then -f else f).toBits

/-- An integer with a sign. Minus zero, and what does not fit into a signed word, is a
binary64 number. -/
def toInteger (negative : Bool) (n : Nat) : Number :=
  if !negative then .integer n
  else if 0 < n ∧ n ≤ 0x8000000000000000 then .integer (-(n : Int))
  else .real (-n.toUInt64.toFloat).toBits

/-- The value of a numeral. If it is out of range the error tells how many digits of the
exponent come after the place where that is known. -/
def value (m : Numeral) : Except Nat Number :=
  let (word, excess) := collect maxWord 0 m.whole
  match m.fraction, m.exponent, excess with
  | none, none, [] => .ok (toInteger m.negative word)
  | fraction, exponent, excess =>
    let digits := fraction.getD []
    let (significand, dropped) := collect maxWord word digits
    let start : Int := excess.length - (digits.length - dropped.length : Nat)
    match exponent with
    | none => (toReal? m.negative significand start).elim (.error 0) .ok
    | some (below, digits) =>
      match collect maxExponent 0 digits with
      | (e, []) =>
        let e := if below then start - e else start + e
        (toReal? m.negative significand e).elim (.error 0) .ok
      | (_, rest) =>
        if significand ≠ 0 ∧ !below then .error (rest.length - 1)
        else .ok (.real (if m.negative then (-0.0 : Float) else 0.0).toBits)

/-- The value of the numeral at the front of a text, its sign excepted. If numbers need not
be `finite`, one that is out of range is read as zero. -/
def readValue (finite negative : Bool) (s : Text) : Except Fault (Number × Text) := do
  let (m, rest) ← read negative s
  match m.value with
  | .ok n => return (n, rest)
  | .error unread =>
    if finite then throw ⟨.numberOutOfRange, s.drop (s.length - rest.length - unread), 0⟩
    else return (.integer 0, rest)

end Numeral

/-! ## Text -/

namespace Number

/-- A real number that is not negative: positional from `1e-5` to below `1e16` and with a
point in any case, otherwise one digit before the point and a signed exponent. -/
def renderDecimal (d : Decimal) : String :=
  let digits := Nat.toDigits 10 d.digits
  let place : Int := (digits.length : Int) - 1 + d.exponent
  let zeros := fun (n : Int) => List.replicate n.toNat '0'
  String.ofList <|
    if d.digits = 0 then ['0', '.', '0']
    else if 0 ≤ d.exponent ∧ place ≤ 15 then digits ++ zeros d.exponent ++ ['.', '0']
    else if 0 ≤ place ∧ place ≤ 15 then
      digits.take (place.toNat + 1) ++ '.' :: digits.drop (place.toNat + 1)
    else if -5 ≤ place ∧ place < 0 then '0' :: '.' :: zeros (-place - 1) ++ digits
    else
      let tail := digits.drop 1
      digits.take 1 ++ (if tail = [] then [] else '.' :: tail) ++
        'e' :: (if place < 0 then '-' else '+') :: Nat.toDigits 10 place.natAbs

/-- The text of a number. -/
def render : Number → String
  | integer n => toString n
  | real bits =>
    (if Decimal.isNegative bits then "-" else "") ++ renderDecimal (Decimal.shortest bits)

end Number

end NoteTemplate.Json
