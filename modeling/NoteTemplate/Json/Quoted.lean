import NoteTemplate.Json.Fault

/-!
# JSON strings

A string stands between quotation marks. Quotation marks, backslashes and control
characters inside it are escaped; a character beyond the basic plane can be escaped as a pair
of surrogates.

* `Quoted.write`: a string as it is written.
* `Quoted.read`: reads a string, its opening quotation mark excepted.
* `length_readEscape_lt`: reading an escape gets closer to the end of the text.
-/

namespace NoteTemplate.Json.Quoted

open Text (hexValue? utf8)

/-! ## Writing -/

/-- A digit of a number to base sixteen. -/
def hexDigit (n : Nat) : Char := Char.ofNat (if n < 10 then 48 + n else 87 + n)

/-- A character as it stands in a string. -/
def escape (c : Char) : Text :=
  if c = '"' then ['\\', '"']
  else if c = '\\' then ['\\', '\\']
  else if c = '\x08' then ['\\', 'b']
  else if c = '\x0c' then ['\\', 'f']
  else if c = '\n' then ['\\', 'n']
  else if c = '\r' then ['\\', 'r']
  else if c = '\t' then ['\\', 't']
  else if c.toNat < 32 then
    ['\\', 'u', '0', '0', hexDigit (c.toNat / 16), hexDigit (c.toNat % 16)]
  else [c]

/-- A string between quotation marks. -/
def write (s : Text) : Text := '"' :: s.flatMap escape ++ ['"']

/-! ## Reading -/

/-- The four hexadecimal digits of an escape. -/
def readUnit (s : Text) : Except Fault (Nat × Text) :=
  match s with
  | a :: b :: c :: d :: rest =>
    match hexValue? a, hexValue? b, hexValue? c, hexValue? d with
    | some w, some x, some y, some z => .ok (((w * 16 + x) * 16 + y) * 16 + z, rest)
    | _, _, _, _ => .error ⟨.invalidEscape, s, 4⟩
  | _ => if (utf8 s).length < 4 then .error ⟨.endOfString, [], 0⟩
    else .error ⟨.invalidEscape, s, 4⟩

/-- The first half of a pair of surrogates. -/
def isHighSurrogate (n : Nat) : Bool := 0xD800 ≤ n && n ≤ 0xDBFF

/-- The second half of a pair of surrogates. -/
def isLowSurrogate (n : Nat) : Bool := 0xDC00 ≤ n && n ≤ 0xDFFF

/-- The text after the first letters, each of which has to be the next one. -/
def expect : (letters : Text) → Text → Except Fault Text
  | [], s => .ok s
  | _ :: _, [] => .error ⟨.endOfString, [], 0⟩
  | l :: ls, c :: cs => if c = l then expect ls cs else .error ⟨.endOfEscape, c :: cs, 1⟩

/-- The character of an escape that begins with the unit `high`. -/
def readPair (high : Nat) (s : Text) : Except Fault (Char × Text) :=
  match expect ['\\', 'u'] s with
  | .error f => .error f
  | .ok rest =>
    match readUnit rest with
    | .error f => .error f
    | .ok (low, rest) =>
      if isLowSurrogate low then
        .ok (Char.ofNat ((high - 0xD800) * 1024 + (low - 0xDC00) + 0x10000), rest)
      else .error ⟨.loneSurrogate, rest, 0⟩

/-- The character of a numeric escape. If surrogates need not be `paired`, one that stands
alone is read as the replacement character. -/
def readNumeric (paired : Bool) (s : Text) : Except Fault (Char × Text) :=
  match readUnit s with
  | .error f => .error f
  | .ok (n, rest) =>
    if !(isHighSurrogate n || isLowSurrogate n) then .ok (Char.ofNat n, rest)
    else if !paired then .ok ('\uFFFD', rest)
    else if isHighSurrogate n then readPair n rest
    else .error ⟨.loneSurrogate, rest, 0⟩

/-- The character that a single letter behind a backslash stands for. -/
def letter? (c : Char) : Option Char :=
  if c = '"' ∨ c = '\\' ∨ c = '/' then some c
  else if c = 'b' then some '\x08'
  else if c = 'f' then some '\x0c'
  else if c = 'n' then some '\n'
  else if c = 'r' then some '\r'
  else if c = 't' then some '\t'
  else none

/-- The character of an escape, its backslash excepted. -/
def readEscape (paired : Bool) : Text → Except Fault (Char × Text)
  | [] => .error ⟨.endOfString, [], 0⟩
  | c :: rest =>
    match letter? c with
    | some d => .ok (d, rest)
    | none => if c = 'u' then readNumeric paired rest else .error ⟨.invalidEscape, c :: rest, 1⟩

theorem length_readUnit_lt {s rest : Text} {n : Nat} (h : readUnit s = .ok (n, rest)) :
    rest.length < s.length := by
  unfold readUnit at h
  split at h
  · split at h
    · cases h
      simp only [List.length_cons]
      omega
    · cases h
  · split at h <;> cases h

theorem length_expect_le {letters s rest : Text} (h : expect letters s = .ok rest) :
    rest.length ≤ s.length := by
  induction letters generalizing s with
  | nil => cases h; exact Nat.le_refl _
  | cons l ls ih =>
    cases s with
    | nil => cases h
    | cons c cs =>
      rw [expect] at h
      split at h
      · have := ih h
        simp only [List.length_cons]
        omega
      · cases h

theorem length_readPair_lt {s rest : Text} {n : Nat} {c : Char}
    (h : readPair n s = .ok (c, rest)) : rest.length < s.length := by
  unfold readPair at h
  split at h
  · cases h
  rename_i hexpect
  have hle := length_expect_le hexpect
  split at h
  · cases h
  rename_i hunit
  have hlt := length_readUnit_lt hunit
  split at h
  · injection h with h
    injection h with _ h
    subst h
    omega
  · cases h

theorem length_readNumeric_lt {paired : Bool} {s rest : Text} {c : Char}
    (h : readNumeric paired s = .ok (c, rest)) : rest.length < s.length := by
  unfold readNumeric at h
  split at h
  · cases h
  · rename_i hunit
    have hlt := length_readUnit_lt hunit
    split at h
    · cases h
      exact hlt
    · split at h
      · cases h
        exact hlt
      · split at h
        · have := length_readPair_lt h
          omega
        · cases h

theorem length_readEscape_lt {paired : Bool} {s rest : Text} {c : Char}
    (h : readEscape paired s = .ok (c, rest)) : rest.length < s.length := by
  cases s with
  | nil => cases h
  | cons d ds =>
    rw [readEscape] at h
    split at h
    · cases h
      simp
    split at h
    · have := length_readNumeric_lt h
      simp only [List.length_cons]
      omega
    · cases h

/-- The characters up to the closing quotation mark, and what follows it. -/
def read (paired : Bool) (s : Text) : Except Fault (Text × Text) :=
  match s with
  | [] => .error ⟨.endOfString, [], 0⟩
  | c :: cs =>
    if c = '"' then .ok ([], cs)
    else if c = '\\' then
      match _h : readEscape paired cs with
      | .error f => .error f
      | .ok (d, rest) =>
        match read paired rest with
        | .error f => .error f
        | .ok (ds, after) => .ok (d :: ds, after)
    else if c.toNat < 32 then .error ⟨.controlCharacter, cs, 0⟩
    else
      match read paired cs with
      | .error f => .error f
      | .ok (ds, after) => .ok (c :: ds, after)
termination_by s.length
decreasing_by
  · have := length_readEscape_lt _h
    simp only [List.length_cons]
    omega
  · simp

end NoteTemplate.Json.Quoted
