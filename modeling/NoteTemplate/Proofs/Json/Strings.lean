import NoteTemplate.Json.Quoted

/-!
# The spelling of strings

A string can be spelled in many ways, since any character may be escaped. Strings whose surrogates
have to come in pairs are read as what they spell, and nothing else is read.

* `Quoted.Spelled`: the characters between quotation marks that spell a string.
* `Quoted.read_eq_ok_iff`: reading a string comes to what stands before the quotation mark.
* `Quoted.spelled_escape`: a written string spells itself.
-/

namespace NoteTemplate.Json.Quoted

open Text (hexValue?)

/-! ## Escapes -/

/-- Four hexadecimal digits and their number. -/
inductive Code : Text → Nat → Prop
  | digits {a b c d : Char} {w x y z : Nat} : hexValue? a = some w → hexValue? b = some x →
      hexValue? c = some y → hexValue? d = some z →
      Code [a, b, c, d] (((w * 16 + x) * 16 + y) * 16 + z)

/-- What may stand behind a backslash, and the character that it stands for. -/
inductive Escaped : Text → Char → Prop
  | letter {l c : Char} : letter? l = some c → Escaped [l] c
  | code {t : Text} {n : Nat} : Code t n → isHighSurrogate n = false → isLowSurrogate n = false →
      Escaped ('u' :: t) (Char.ofNat n)
  | pair {t u : Text} {high low : Nat} : Code t high → isHighSurrogate high = true → Code u low →
      isLowSurrogate low = true →
      Escaped ('u' :: t ++ '\\' :: 'u' :: u)
        (Char.ofNat ((high - 0xD800) * 1024 + (low - 0xDC00) + 0x10000))

theorem readUnit_eq_ok_iff {s rest : Text} {n : Nat} :
    readUnit s = .ok (n, rest) ↔ ∃ t, s = t ++ rest ∧ Code t n := by
  constructor
  · intro h
    unfold readUnit at h
    split at h
    · rename_i a b c d _
      split at h
      · rename_i ha hb hc hd
        cases h
        exact ⟨[a, b, c, d], rfl, .digits ha hb hc hd⟩
      · cases h
    · split at h <;> cases h
  · rintro ⟨t, rfl, ha, hb, hc, hd⟩
    simp only [List.cons_append, List.nil_append, readUnit, ha, hb, hc, hd]

theorem expect_eq_ok_iff {letters s rest : Text} :
    expect letters s = .ok rest ↔ s = letters ++ rest := by
  induction letters generalizing s with
  | nil => simp [expect]
  | cons l ls ih =>
    cases s with
    | nil => simp [expect]
    | cons c cs =>
      rw [expect]
      split
      · rename_i hc
        rw [ih, hc]
        simp
      · rename_i hc
        simp [hc]

theorem readPair_eq_ok_iff {high : Nat} {s rest : Text} {c : Char} :
    readPair high s = .ok (c, rest) ↔ ∃ u low, s = '\\' :: 'u' :: u ++ rest ∧ Code u low ∧
      isLowSurrogate low = true ∧
      c = Char.ofNat ((high - 0xD800) * 1024 + (low - 0xDC00) + 0x10000) := by
  constructor
  · intro h
    unfold readPair at h
    split at h
    · cases h
    rename_i hexpect
    split at h
    · cases h
    rename_i low _ hunit
    split at h
    · rename_i hlow
      obtain ⟨u, rfl, hu⟩ := readUnit_eq_ok_iff.mp hunit
      obtain ⟨hc, hrest⟩ := Prod.mk.inj (Except.ok.inj h)
      subst hrest
      have hs := expect_eq_ok_iff.mp hexpect
      exact ⟨u, low, hs, hu, hlow, hc.symm⟩
    · cases h
  · rintro ⟨u, low, rfl, hu, hlow, hc⟩
    have hexpect : expect ['\\', 'u'] ('\\' :: 'u' :: u ++ rest) = .ok (u ++ rest) :=
      expect_eq_ok_iff.mpr rfl
    have hunit : readUnit (u ++ rest) = .ok (low, rest) := readUnit_eq_ok_iff.mpr ⟨u, rfl, hu⟩
    rw [readPair, hexpect, hc]
    simp only [hunit, hlow, if_true]

theorem readEscape_eq_ok_iff {s rest : Text} {c : Char} :
    readEscape true s = .ok (c, rest) ↔ ∃ e, s = e ++ rest ∧ Escaped e c := by
  constructor
  · intro h
    cases s with
    | nil => cases h
    | cons l s =>
      rw [readEscape] at h
      split at h
      · rename_i hl
        cases h
        exact ⟨[l], rfl, .letter hl⟩
      split at h
      · rename_i hl
        subst hl
        unfold readNumeric at h
        split at h
        · cases h
        rename_i n _ hunit
        obtain ⟨t, rfl, ht⟩ := readUnit_eq_ok_iff.mp hunit
        split at h
        · rename_i hn
          rw [Bool.not_eq_true', Bool.or_eq_false_iff] at hn
          cases h
          exact ⟨'u' :: t, rfl, .code ht hn.1 hn.2⟩
        split at h
        · rename_i hpaired
          cases hpaired
        split at h
        · rename_i hhigh
          obtain ⟨u, low, rfl, hu, hlow, hc⟩ := readPair_eq_ok_iff.mp h
          rw [hc]
          exact ⟨'u' :: t ++ '\\' :: 'u' :: u, by simp, .pair ht hhigh hu hlow⟩
        · cases h
      · cases h
  · have hletter : letter? 'u' = none := by decide
    rintro ⟨e, rfl, he⟩
    cases he with
    | letter hl => rw [List.singleton_append, readEscape, hl]
    | @code t n ht hhigh hlow =>
      have hunit : readUnit (t ++ rest) = .ok (n, rest) := readUnit_eq_ok_iff.mpr ⟨t, rfl, ht⟩
      rw [List.cons_append, readEscape, hletter, readNumeric, hunit]
      simp [hhigh, hlow]
    | @pair t u high low ht hhigh hu hlow =>
      have hunit : readUnit (t ++ ('\\' :: 'u' :: u ++ rest)) =
          .ok (high, '\\' :: 'u' :: u ++ rest) := readUnit_eq_ok_iff.mpr ⟨t, rfl, ht⟩
      have hpair : readPair high ('\\' :: 'u' :: u ++ rest) =
          .ok (Char.ofNat ((high - 0xD800) * 1024 + (low - 0xDC00) + 0x10000), rest) :=
        readPair_eq_ok_iff.mpr ⟨u, low, rfl, hu, hlow, rfl⟩
      rw [List.append_assoc, List.cons_append, readEscape, hletter, readNumeric, hunit]
      simpa [hhigh] using hpair

/-! ## Strings -/

/-- The characters between quotation marks, and the string that they spell. -/
inductive Spelled : Text → Text → Prop
  | nil : Spelled [] []
  | plain {c : Char} {t s : Text} : c ≠ '"' → c ≠ '\\' → 32 ≤ c.toNat → Spelled t s →
      Spelled (c :: t) (c :: s)
  | escaped {e t s : Text} {c : Char} : Escaped e c → Spelled t s →
      Spelled ('\\' :: e ++ t) (c :: s)

theorem read_escaped {e s t rest : Text} {c : Char} (he : Escaped e c)
    (h : read true s = .ok (t, rest)) : read true ('\\' :: e ++ s) = .ok (c :: t, rest) := by
  have hescape : readEscape true (e ++ s) = .ok (c, s) := readEscape_eq_ok_iff.mpr ⟨e, rfl, he⟩
  rw [List.cons_append, read, if_neg (by decide), if_pos rfl]
  split
  · rename_i heq
    rw [hescape] at heq
    cases heq
  · rename_i heq
    rw [hescape] at heq
    cases heq
    rw [h]

theorem read_of_spelled {t s : Text} (h : Spelled t s) (rest : Text) :
    read true (t ++ '"' :: rest) = .ok (s, rest) := by
  induction h with
  | nil => rw [List.nil_append, read, if_pos rfl]
  | plain hquote hbackslash hcode _ ih =>
    rw [List.cons_append, read, if_neg hquote, if_neg hbackslash, if_neg (Nat.not_lt.mpr hcode), ih]
  | @escaped e t s c he _ ih =>
    have hread := read_escaped he ih
    rwa [← List.append_assoc] at hread

theorem exists_spelled_of_read {s t rest : Text} (h : read true s = .ok (t, rest)) :
    ∃ u, s = u ++ '"' :: rest ∧ Spelled u t := by
  induction hn : s.length using Nat.strongRecOn generalizing s t rest with
  | _ n ih =>
    subst hn
    rw [read.eq_def] at h
    split at h
    · cases h
    rename_i c cs
    split at h
    · rename_i hc
      cases h
      exact ⟨[], by rw [hc]; rfl, .nil⟩
    rename_i hquote
    split at h
    · rename_i hc
      split at h
      · cases h
      rename_i d tail hescape
      obtain ⟨e, rfl, he⟩ := readEscape_eq_ok_iff.mp hescape
      split at h
      · cases h
      rename_i hread
      cases h
      have hlength : tail.length < (c :: (e ++ tail)).length := by
        simp only [List.length_cons, List.length_append]
        omega
      obtain ⟨u, rfl, hu⟩ := ih _ hlength hread rfl
      exact ⟨'\\' :: e ++ u, by simp [hc], .escaped he hu⟩
    rename_i hbackslash
    split at h
    · cases h
    rename_i hcode
    split at h
    · cases h
    rename_i hread
    cases h
    obtain ⟨u, rfl, hu⟩ := ih _ (by simp) hread rfl
    exact ⟨c :: u, rfl, .plain hquote hbackslash (Nat.not_lt.mp hcode) hu⟩

/-- A string is read up to a quotation mark that is not escaped. -/
theorem read_eq_ok_iff {s t rest : Text} :
    read true s = .ok (t, rest) ↔ ∃ u, s = u ++ '"' :: rest ∧ Spelled u t := by
  constructor
  · exact exists_spelled_of_read
  · rintro ⟨u, rfl, hu⟩
    exact read_of_spelled hu rest

/-! ## Written strings -/

theorem hexValue?_hexDigit : ∀ n < 16, hexValue? (hexDigit n) = some n := by decide

theorem code_hexDigit {n : Nat} (h : n < 32) :
    Code ['0', '0', hexDigit (n / 16), hexDigit (n % 16)] n := by
  have hzero : hexValue? '0' = some 0 := rfl
  have hhigh := hexValue?_hexDigit (n / 16) (by omega)
  have hlow := hexValue?_hexDigit (n % 16) (by omega)
  have hcode : ((0 * 16 + 0) * 16 + n / 16) * 16 + n % 16 = n := by omega
  have hdigits := Code.digits hzero hzero hhigh hlow
  rwa [hcode] at hdigits

theorem escaped_control {c : Char} (h : c.toNat < 32) :
    Escaped ['u', '0', '0', hexDigit (c.toNat / 16), hexDigit (c.toNat % 16)] c := by
  have hhigh : isHighSurrogate c.toNat = false := by
    rw [isHighSurrogate, Bool.and_eq_false_iff, decide_eq_false_iff_not]
    left
    omega
  have hlow : isLowSurrogate c.toNat = false := by
    rw [isLowSurrogate, Bool.and_eq_false_iff, decide_eq_false_iff_not]
    left
    omega
  have hcode := Escaped.code (code_hexDigit h) hhigh hlow
  rwa [Char.ofNat_toNat] at hcode

/-- A character in its written form spells that character. -/
theorem spelled_escape {c : Char} {t s : Text} (h : Spelled t s) :
    Spelled (escape c ++ t) (c :: s) := by
  have hletter {l c : Char} (hl : letter? l = some c) : Spelled (['\\', l] ++ t) (c :: s) :=
    .escaped (.letter hl) h
  unfold escape
  split
  · rename_i hc
    subst hc
    exact hletter rfl
  split
  · rename_i hc
    subst hc
    exact hletter rfl
  split
  · rename_i hc
    subst hc
    exact hletter rfl
  split
  · rename_i hc
    subst hc
    exact hletter rfl
  split
  · rename_i hc
    subst hc
    exact hletter rfl
  split
  · rename_i hc
    subst hc
    exact hletter rfl
  split
  · rename_i hc
    subst hc
    exact hletter rfl
  split
  · rename_i hcode
    exact .escaped (escaped_control hcode) h
  · rename_i hquote hbackslash _ _ _ _ _ hcode
    exact .plain hquote hbackslash (Nat.not_lt.mp hcode) h

theorem spelled_flatMap_escape (s : Text) : Spelled (s.flatMap escape) s := by
  induction s with
  | nil => exact .nil
  | cons c s ih => exact spelled_escape ih

end NoteTemplate.Json.Quoted
