import Mathlib.Data.List.TakeWhile
import NoteTemplate.Json.Numeral

/-!
# The spelling of numerals

* `Numeral.Spelled`: the characters of a numeral, its sign excepted.
* `Numeral.read_of_spelled`: a numeral is read if nothing follows that could go on with it.
* `Numeral.spelled_of_read`: what is read is a numeral.
-/

namespace NoteTemplate.Json.Numeral

/-! ## Parts of a numeral -/

/-- One digit or more. -/
def Digits (ds : Text) : Prop := ds ≠ [] ∧ ∀ c ∈ ds, c.isDigit = true

/-- A zero, or digits that do not begin with one. -/
inductive Whole : Text → Prop
  | zero : Whole ['0']
  | digits {c : Char} {ds : Text} : c ≠ '0' → Digits (c :: ds) → Whole (c :: ds)

inductive Fraction : Option Text → Text → Prop
  | none : Fraction none []
  | digits {ds : Text} : Digits ds → Fraction (some ds) ('.' :: ds)

inductive Sign : Bool → Text → Prop
  | none : Sign false []
  | plus : Sign false ['+']
  | minus : Sign true ['-']

inductive Exponent : Option (Bool × Text) → Text → Prop
  | none : Exponent none []
  | digits {e : Char} {negative : Bool} {sign ds : Text} : e = 'e' ∨ e = 'E' →
      Sign negative sign → Digits ds → Exponent (some (negative, ds)) (e :: sign ++ ds)

/-- The characters of a numeral, its sign excepted. -/
inductive Spelled : Numeral → Text → Prop
  | parts {negative : Bool} {whole t u : Text} {fraction : Option Text}
      {exponent : Option (Bool × Text)} : Whole whole → Fraction fraction t →
      Exponent exponent u → Spelled ⟨negative, whole, fraction, exponent⟩ (whole ++ t ++ u)

theorem exists_digit_of_spelled {m : Numeral} {t : Text} (h : Spelled m t) :
    ∃ c cs, t = c :: cs ∧ c.isDigit = true := by
  cases h with
  | parts hw _ _ =>
    cases hw with
    | zero => exact ⟨'0', _, rfl, by decide⟩
    | digits _ hds => exact ⟨_, _, rfl, hds.2 _ List.mem_cons_self⟩

/-- A text that does not go on with a numeral. -/
def Ends (s : Text) : Prop :=
  ∀ c ∈ s.head?, c.isDigit = false ∧ c ≠ '.' ∧ c ≠ 'e' ∧ c ≠ 'E'

/-! ## Reading -/

theorem readDigits_append {ds s : Text} (hds : ∀ c ∈ ds, c.isDigit = true)
    (hs : ∀ c ∈ s.head?, c.isDigit = false) : readDigits (ds ++ s) = (ds, s) := by
  rw [readDigits, List.takeWhile_append_of_pos hds, List.dropWhile_append_of_pos hds]
  cases s with
  | nil => simp
  | cons c cs =>
    have hc := hs c rfl
    simp [hc]

theorem readWhole_append {w s : Text} (hw : Whole w) (hs : ∀ c ∈ s.head?, c.isDigit = false) :
    readWhole (w ++ s) = .ok (w, s) := by
  cases hw with
  | zero =>
    have hzero : '0'.isDigit = true := by decide
    cases s with
    | nil => simp [readWhole, hzero]
    | cons c cs =>
      have hc := hs c rfl
      simp [readWhole, hzero, hc]
  | @digits c ds hc hds =>
    have hdigit : c.isDigit = true := hds.2 c List.mem_cons_self
    have hread := readDigits_append hds.2 hs
    rw [List.cons_append] at hread ⊢
    rw [readWhole.eq_def]
    simp only [hdigit, hc, hread, Bool.not_true, Bool.false_eq_true, if_false]

theorem readFraction_append {f : Option Text} {t s : Text} (hf : Fraction f t)
    (hs : ∀ c ∈ s.head?, c.isDigit = false ∧ c ≠ '.') : readFraction (t ++ s) = .ok (f, s) := by
  cases hf with
  | none =>
    cases s with
    | nil => rfl
    | cons c cs =>
      have hc := (hs c rfl).2
      rw [List.nil_append, readFraction]
      intro tail heq
      exact hc (List.head_eq_of_cons_eq heq)
  | digits hds =>
    have hread := readDigits_append hds.2 fun c hc => (hs c hc).1
    obtain ⟨d, ds, rfl⟩ := List.exists_cons_of_ne_nil hds.1
    rw [List.cons_append, readFraction, hread]

theorem readSign_append {b : Bool} {t s : Text} (ht : Sign b t)
    (hs : ∀ c ∈ s.head?, c.isDigit = true) : readSign (t ++ s) = (b, s) := by
  cases ht with
  | none =>
    cases s with
    | nil => rfl
    | cons c cs =>
      have hc := hs c rfl
      rw [List.nil_append, readSign]
      · rintro _ heq
        obtain rfl := List.head_eq_of_cons_eq heq
        exact absurd hc (by decide)
      · rintro _ heq
        obtain rfl := List.head_eq_of_cons_eq heq
        exact absurd hc (by decide)
  | plus => rfl
  | minus => rfl

theorem readExponent_append {e : Option (Bool × Text)} {t s : Text} (he : Exponent e t)
    (hs : Ends s) : readExponent (t ++ s) = .ok (e, s) := by
  cases he with
  | none =>
    cases s with
    | nil => rfl
    | cons c cs =>
      obtain ⟨-, -, he, hE⟩ := hs c rfl
      rw [List.nil_append, readExponent]
      exact if_neg fun h => h.elim he hE
  | @digits l b sign ds hl hsign hds =>
    have hread := readDigits_append hds.2 fun c hc => (hs c hc).1
    obtain ⟨d, ds, rfl⟩ := List.exists_cons_of_ne_nil hds.1
    have hd : ∀ c ∈ (d :: ds ++ s).head?, c.isDigit = true := by
      rintro _ ⟨⟩
      exact hds.2 d List.mem_cons_self
    have hsign := readSign_append hsign hd
    rw [List.append_assoc, List.cons_append, readExponent]
    simp only [hl, if_true, hsign, hread]

theorem head_of_exponent {e : Option (Bool × Text)} {t s : Text} (he : Exponent e t)
    (hs : Ends s) : ∀ c ∈ (t ++ s).head?, c.isDigit = false ∧ c ≠ '.' := by
  cases he with
  | none => exact fun c hc => ⟨(hs c hc).1, (hs c hc).2.1⟩
  | digits hl _ _ =>
    rintro _ ⟨⟩
    rcases hl with rfl | rfl <;> decide

theorem head_of_fraction {f : Option Text} {t s : Text} (hf : Fraction f t)
    (hs : ∀ c ∈ s.head?, c.isDigit = false) : ∀ c ∈ (t ++ s).head?, c.isDigit = false := by
  cases hf with
  | none => exact hs
  | digits _ =>
    rintro _ ⟨⟩
    decide

theorem read_of_spelled {m : Numeral} {t rest : Text} (h : Spelled m t) (hrest : Ends rest) :
    read m.negative (t ++ rest) = .ok (m, rest) := by
  cases h with
  | @parts b w t u f e hw hf he =>
    have hu := head_of_exponent he hrest
    have ht := head_of_fraction hf fun c hc => (hu c hc).1
    have hwhole := readWhole_append hw ht
    have hfraction := readFraction_append hf hu
    have hexponent := readExponent_append he hrest
    rw [List.append_assoc, List.append_assoc, read, hwhole]
    simp only [bind, Except.bind, hfraction, hexponent]
    rfl

/-! ## What is read -/

theorem eq_of_readDigits {s ds rest : Text} (h : readDigits s = (ds, rest)) :
    s = ds ++ rest ∧ ∀ c ∈ ds, c.isDigit = true := by
  obtain ⟨rfl, rfl⟩ := Prod.mk.inj h
  exact ⟨List.takeWhile_append_dropWhile.symm, fun c hc => List.mem_takeWhile_imp hc⟩

theorem whole_of_readWhole {s w rest : Text} (h : readWhole s = .ok (w, rest)) :
    s = w ++ rest ∧ Whole w := by
  rw [readWhole.eq_def] at h
  split at h
  · cases h
  rename_i c cs
  split at h
  · cases h
  rename_i hc
  split at h
  · rename_i hzero
    split at h
    · cases h
      exact ⟨by rw [hzero]; rfl, .zero⟩
    · split at h
      · cases h
      · cases h
        exact ⟨by rw [hzero]; rfl, .zero⟩
  · rename_i hzero
    have hdigit : c.isDigit = true := by simpa using hc
    obtain ⟨heq, hds⟩ := eq_of_readDigits (Except.ok.inj h)
    obtain ⟨ds, rfl⟩ : ∃ ds, w = c :: ds := by
      refine ⟨cs.takeWhile Char.isDigit, ?_⟩
      have hw := (Prod.mk.inj (Except.ok.inj h)).1
      rw [← hw, List.takeWhile_cons_of_pos hdigit]
    exact ⟨heq, .digits hzero ⟨List.cons_ne_nil c ds, hds⟩⟩

theorem fraction_of_readFraction {s rest : Text} {f : Option Text}
    (h : readFraction s = .ok (f, rest)) : ∃ t, s = t ++ rest ∧ Fraction f t := by
  rw [readFraction.eq_def] at h
  split at h
  · split at h
    · cases h
    · cases h
    · rename_i hne hread
      obtain ⟨rfl, hds⟩ := eq_of_readDigits hread
      cases h
      exact ⟨_, rfl, .digits ⟨hne, hds⟩⟩
  · cases h
    exact ⟨[], rfl, .none⟩

theorem sign_of_readSign {s rest : Text} {b : Bool} (h : readSign s = (b, rest)) :
    ∃ t, s = t ++ rest ∧ Sign b t := by
  rw [readSign.eq_def] at h
  split at h
  · cases h
    exact ⟨['+'], rfl, .plus⟩
  · cases h
    exact ⟨['-'], rfl, .minus⟩
  · cases h
    exact ⟨[], rfl, .none⟩

theorem exponent_of_readExponent {s rest : Text} {e : Option (Bool × Text)}
    (h : readExponent s = .ok (e, rest)) : ∃ t, s = t ++ rest ∧ Exponent e t := by
  rw [readExponent.eq_def] at h
  split at h
  · cases h
    exact ⟨[], rfl, .none⟩
  split at h
  · rename_i c cs hl
    dsimp only at h
    split at h
    · cases h
    · cases h
    · rename_i hne hread
      obtain ⟨sign, hcs, hsign⟩ := sign_of_readSign (Prod.eta (readSign cs)).symm
      obtain ⟨hrest, hds⟩ := eq_of_readDigits hread
      cases h
      refine ⟨c :: sign ++ _, ?_, .digits hl hsign ⟨hne, hds⟩⟩
      rw [hcs, hrest]
      simp
  · cases h
    exact ⟨[], rfl, .none⟩

theorem spelled_of_read {s rest : Text} {negative : Bool} {m : Numeral}
    (h : read negative s = .ok (m, rest)) :
    m.negative = negative ∧ ∃ t, s = t ++ rest ∧ Spelled m t := by
  rw [read] at h
  simp only [bind, Except.bind] at h
  split at h
  · cases h
  rename_i hwhole
  split at h
  · cases h
  rename_i hfraction
  split at h
  · cases h
  rename_i hexponent
  cases h
  obtain ⟨rfl, hw⟩ := whole_of_readWhole hwhole
  obtain ⟨t, ht, hf⟩ := fraction_of_readFraction hfraction
  obtain ⟨u, hu, he⟩ := exponent_of_readExponent hexponent
  refine ⟨rfl, _, ?_, .parts hw hf he⟩
  rw [ht, hu]
  simp only [List.append_assoc]

/-! ## Numbers -/

/-- The number that a numeral in range comes to. -/
theorem readValue_of_spelled {m : Numeral} {t rest : Text} {n : Number} (h : Spelled m t)
    (hn : m.value = .ok n) (hrest : Ends rest) :
    readValue true m.negative (t ++ rest) = .ok (n, rest) := by
  rw [readValue, read_of_spelled h hrest]
  simp only [bind, Except.bind, hn]
  rfl

theorem spelled_of_readValue {s rest : Text} {negative : Bool} {n : Number}
    (h : readValue true negative s = .ok (n, rest)) :
    ∃ m t, m.negative = negative ∧ s = t ++ rest ∧ Spelled m t ∧ m.value = .ok n := by
  rw [readValue] at h
  simp only [bind, Except.bind] at h
  split at h
  · cases h
  rename_i hread
  obtain ⟨hnegative, t, rfl, ht⟩ := spelled_of_read hread
  split at h
  · rename_i hvalue
    cases h
    exact ⟨_, t, hnegative, rfl, ht, hvalue⟩
  · cases h

end NoteTemplate.Json.Numeral
