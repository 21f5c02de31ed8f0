/-!
# Texts

Templates, values and documents are texts: lists of characters. This file holds the two
searches that everything else is built on.

* `Text.cut?` splits a text around the first occurrence of a needle.
* `Text.replaceAll` replaces the occurrences of a needle found from left to right, none of
  which overlaps the one before.
-/

namespace NoteTemplate

/-- A list of characters. -/
abbrev Text := List Char

namespace Text

/-- The bytes of a text in UTF-8. -/
def utf8 (s : Text) : List UInt8 := (String.ofList s).toUTF8.toList

/-- The number of bytes of a text in UTF-8. -/
def byteSize (s : Text) : Nat := s.foldl (fun n c => n + c.utf8Size) 0

/-- The value of a hexadecimal digit. -/
def hexValue? (c : Char) : Option Nat :=
  let n := c.toNat
  if 48 ≤ n ∧ n ≤ 57 then some (n - 48)
  else if 97 ≤ n ∧ n ≤ 102 then some (n - 87)
  else if 65 ≤ n ∧ n ≤ 70 then some (n - 55)
  else none

/-! ## Search -/

/-- The program imports core only, which has `isPrefixOf?` without lemmas about it. -/
theorem eq_append_of_isPrefixOf? {needle s rest : Text} (h : needle.isPrefixOf? s = some rest) :
    s = needle ++ rest := by
  induction needle generalizing s with
  | nil => exact Option.some.inj h
  | cons n ns ih =>
    cases s with
    | nil => cases h
    | cons c cs =>
      have h : (if n == c then ns.isPrefixOf? cs else none) = some rest := h
      split at h
      · rename_i hnc
        rw [List.cons_append, ← ih h, eq_of_beq hnc]
      · cases h

/-- What stands before and after the first occurrence of `needle`. -/
def cut? (needle : Text) : Text → Option (Text × Text)
  | [] => if needle = [] then some ([], []) else none
  | c :: cs =>
    match needle.isPrefixOf? (c :: cs) with
    | some rest => some ([], rest)
    | none => (cut? needle cs).map fun (before, after) => (c :: before, after)

/-- Whether `needle` occurs. -/
def contains (s needle : Text) : Bool := (cut? needle s).isSome

/-! ## Replacement -/

/-- One pass of `replaceAll`; the first `skip` characters belong to an occurrence that has
been replaced already. -/
def replaceFrom (needle new : Text) : (skip : Nat) → Text → Text
  | _, [] => []
  | skip + 1, _ :: cs => replaceFrom needle new skip cs
  | 0, c :: cs =>
    if needle.isPrefixOf (c :: cs) then new ++ replaceFrom needle new (needle.length - 1) cs
    else c :: replaceFrom needle new 0 cs

/-- Replaces every occurrence of a needle that is not empty. -/
def replaceAll (needle new s : Text) : Text := replaceFrom needle new 0 s

theorem replaceFrom_eq_drop (needle new : Text) (skip : Nat) (s : Text) :
    replaceFrom needle new skip s = replaceFrom needle new 0 (s.drop skip) := by
  induction s generalizing skip with
  | nil => simp [replaceFrom]
  | cons c cs ih =>
    cases skip with
    | zero => rfl
    | succ k => simpa [replaceFrom] using ih k

@[simp] theorem replaceAll_nil (needle new : Text) : replaceAll needle new [] = [] := rfl

end Text

end NoteTemplate
