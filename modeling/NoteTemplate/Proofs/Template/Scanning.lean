import NoteTemplate.Proofs.Template.Search
import NoteTemplate.Text.LineBreak

/-!
# A text as it is scanned

The scan cuts a text into placeholders and the characters between them. A part that begins at an
opening bracket ends at the next closing bracket, so what is a placeholder depends on what stands
before it: `[a[b]` is one placeholder, and `[][b]` has one behind its first two brackets.

* `parts`, `flatMap_written_parts`, `filterMap_name?_parts`: the parts of a text make it up, and
  the names among them are those that the scan meets.
* `parts_append`: where no placeholder runs over the seam, texts are scanned one by one.
* `fill`: a text with a value for every placeholder, in a single pass.
-/

namespace NoteTemplate.Placeholder

open Text

/-! ## Parts -/

/-- A placeholder, or a character that is not part of one. -/
inductive Part
  | char (c : Char)
  | name (name : Text)
deriving DecidableEq, Repr

namespace Part

def written : Part → Text
  | char c => [c]
  | name n => Placeholder.written n

def name? : Part → Option Text
  | char _ => none
  | name n => some n

/-- The value of a placeholder, with its line breaks marked. An absent value counts as empty. -/
def fill (value? : Text → Option Text) : Part → Text
  | char c => [c]
  | name n => markBreaks ((value? n).getD [])

end Part

/-- The parts met from left to right. The first `skip` characters belong to a placeholder that
has been read already. -/
def parts : (skip : Nat) → Text → List Part
  | _, [] => []
  | skip + 1, _ :: cs => parts skip cs
  | 0, c :: cs =>
    let name := cs.takeWhile (· ≠ ']')
    if c = '[' ∧ name ≠ [] ∧ name.length < cs.length then
      .name name :: parts (name.length + 1) cs
    else .char c :: parts 0 cs

/-- The text with a value in the place of each placeholder, in one pass from left to right. -/
def fill (value? : Text → Option Text) (s : Text) : Text :=
  (parts 0 s).flatMap (Part.fill value?)

/-- A placeholder begins the text. -/
def Begins (s : Text) : Prop := ∃ n rest, s = written n ++ rest ∧ n ≠ [] ∧ ']' ∉ n

theorem begins_cons_iff {c : Char} {cs : Text} :
    Begins (c :: cs) ↔ c = '[' ∧ cs.takeWhile (· ≠ ']') ≠ [] ∧
      (cs.takeWhile (· ≠ ']')).length < cs.length := by
  constructor
  · rintro ⟨n, rest, h, hne, hn⟩
    have hcs : c = '[' ∧ cs = n ++ ']' :: rest := by simpa [written] using h
    obtain ⟨rfl, rfl⟩ := hcs
    rw [takeWhile_append_stop hn]
    exact ⟨rfl, hne, by simp⟩
  · rintro ⟨rfl, hne, hlt⟩
    obtain ⟨rest, hrest⟩ := exists_stop hlt
    refine ⟨cs.takeWhile (· ≠ ']'), rest, ?_, hne, stop_not_mem_takeWhile ']' cs⟩
    conv => lhs; rw [hrest]
    simp [written]

theorem begins_append {s : Text} (h : Begins s) (t : Text) : Begins (s ++ t) := by
  obtain ⟨n, rest, rfl, hne, hn⟩ := h
  exact ⟨n, rest ++ t, by rw [List.append_assoc], hne, hn⟩

theorem parts_cons {c : Char} {cs : Text} (h : ¬ Begins (c :: cs)) :
    parts 0 (c :: cs) = .char c :: parts 0 cs := by
  rw [parts]
  exact if_neg fun hcond => h (begins_cons_iff.mpr hcond)

theorem scan_cons {c : Char} {cs : Text} (h : ¬ Begins (c :: cs)) :
    scan 0 (c :: cs) = scan 0 cs := by
  rw [scan]
  exact if_neg fun hcond => h (begins_cons_iff.mpr hcond)

theorem parts_eq_parts_drop (skip : Nat) (s : Text) : parts skip s = parts 0 (s.drop skip) := by
  induction s generalizing skip with
  | nil => simp [parts]
  | cons c cs ih =>
    cases skip with
    | zero => rfl
    | succ k => simpa [parts] using ih k

theorem parts_written_append {n : Text} (hne : n ≠ []) (hn : ']' ∉ n) (s : Text) :
    parts 0 (written n ++ s) = .name n :: parts 0 s := by
  have hlt : n.length < (n ++ ']' :: s).length := by simp
  have hs : written n ++ s = '[' :: (n ++ ']' :: s) := by simp [written]
  rw [hs, parts]
  simp only [takeWhile_append_stop hn]
  rw [if_pos ⟨trivial, hne, hlt⟩, parts_eq_parts_drop]
  simp

/-- Induction along the scan: one step takes a placeholder, or a character that begins none. -/
theorem scan_induction {P : Text → Prop} (nil : P [])
    (char : ∀ c cs, ¬ Begins (c :: cs) → P cs → P (c :: cs))
    (name : ∀ n s, n ≠ [] → ']' ∉ n → P s → P (written n ++ s)) (s : Text) : P s := by
  induction hlen : s.length using Nat.strongRecOn generalizing s with
  | _ len ih =>
    subst hlen
    cases s with
    | nil => exact nil
    | cons c cs =>
      by_cases hbegins : Begins (c :: cs)
      · obtain ⟨n, rest, heq, hne, hn⟩ := hbegins
        have hlt : rest.length < (c :: cs).length := by
          rw [heq, List.length_append]
          simp [written]
        rw [heq]
        exact name n rest hne hn (ih _ hlt rest rfl)
      · exact char c cs hbegins (ih _ (by simp) cs rfl)

theorem flatMap_written_parts (s : Text) : (parts 0 s).flatMap Part.written = s := by
  induction s using scan_induction with
  | nil => rfl
  | char c cs hbegins ih =>
    rw [parts_cons hbegins, List.flatMap_cons, ih]
    rfl
  | name n s hne hn ih =>
    rw [parts_written_append hne hn, List.flatMap_cons, ih]
    rfl

theorem filterMap_name?_parts (s : Text) : (parts 0 s).filterMap Part.name? = scan 0 s := by
  induction s using scan_induction with
  | nil => rfl
  | char c cs hbegins ih =>
    rw [parts_cons hbegins, scan_cons hbegins, ← ih]
    rfl
  | name n s hne hn ih =>
    rw [parts_written_append hne hn, scan_written_append hne hn, ← ih]
    rfl

theorem not_mem_fill {c : Char} {value? : Text → Option Text} {s : Text} (hs : c ∉ s)
    (hvalue : ∀ n, c ∉ markBreaks ((value? n).getD [])) : c ∉ fill value? s := by
  intro hmem
  obtain ⟨q, hq, hmem⟩ := List.mem_flatMap.mp hmem
  cases q with
  | char d =>
    rw [← flatMap_written_parts s] at hs
    exact hs (List.mem_flatMap.mpr ⟨_, hq, hmem⟩)
  | name n => exact hvalue n hmem

theorem name_mem_parts {n s : Text} : .name n ∈ parts 0 s ↔ n ∈ scan 0 s := by
  rw [← filterMap_name?_parts, List.mem_filterMap]
  constructor
  · intro h
    exact ⟨.name n, h, rfl⟩
  · rintro ⟨p, hp, hname⟩
    cases p with
    | char c => cases hname
    | name m =>
      cases hname
      exact hp

theorem ne_nil_and_not_mem_of_scan {n s : Text} (h : n ∈ scan 0 s) : n ≠ [] ∧ ']' ∉ n := by
  induction s using scan_induction with
  | nil => cases h
  | char c cs hbegins ih =>
    rw [scan_cons hbegins] at h
    exact ih h
  | name m s hne hm ih =>
    rw [scan_written_append hne hm] at h
    rcases List.mem_cons.mp h with rfl | h
    · exact ⟨hne, hm⟩
    · exact ih h

/-! ## Texts put together -/

theorem parts_append_of_not_mem {a : Text} (h : '[' ∉ a) (b : Text) :
    parts 0 (a ++ b) = a.map .char ++ parts 0 b := by
  induction a with
  | nil => rfl
  | cons c cs ih =>
    obtain ⟨hc, hcs⟩ := not_or.mp fun e => h (List.mem_cons.mpr e)
    have hbegins : ¬ Begins (c :: (cs ++ b)) := fun hb => hc (begins_cons_iff.mp hb).1.symm
    rw [List.cons_append, parts_cons hbegins, ih hcs]
    rfl

theorem parts_of_closing_not_mem {s : Text} (h : ']' ∉ s) : parts 0 s = s.map .char := by
  induction s with
  | nil => rfl
  | cons c cs ih =>
    have hbegins : ¬ Begins (c :: cs) := by
      rintro ⟨n, rest, heq, -, -⟩
      exact h (heq ▸ by simp [written])
    rw [parts_cons hbegins, ih fun hmem => h (List.mem_cons_of_mem c hmem)]
    rfl

/-- In the scan of `a ++ g ++ b` a placeholder begins in `g` and ends in `b`. -/
def Straddles (a g b : Text) : Prop :=
  ∃ qs n rs, parts 0 (a ++ g ++ b) = qs ++ .name n :: rs ∧
    a.length ≤ (qs.flatMap Part.written).length ∧
    (qs.flatMap Part.written).length < (a ++ g).length ∧
    (a ++ g).length < (qs.flatMap Part.written ++ written n).length

theorem straddles_iff {a g b : Text} :
    Straddles a g b ↔ ∃ i < (parts 0 (a ++ g ++ b)).length,
      ∃ n ∈ (parts 0 (a ++ g ++ b))[i]?.bind Part.name?,
        a.length ≤ (((parts 0 (a ++ g ++ b)).take i).flatMap Part.written).length ∧
        (((parts 0 (a ++ g ++ b)).take i).flatMap Part.written).length < (a ++ g).length ∧
        (a ++ g).length <
          (((parts 0 (a ++ g ++ b)).take i).flatMap Part.written ++ written n).length := by
  constructor
  · rintro ⟨qs, n, rs, heq, hbegin, hinside, hend⟩
    rw [heq]
    refine ⟨qs.length, by simp, n, by simp [Part.name?], ?_⟩
    rw [List.take_left]
    exact ⟨hbegin, hinside, hend⟩
  · rintro ⟨i, -, n, hn, hbegin, hinside, hend⟩
    obtain ⟨p, hp, hname⟩ := Option.bind_eq_some_iff.mp hn
    obtain ⟨hi, hget⟩ := List.getElem?_eq_some_iff.mp hp
    have hpart : p = .name n := by
      cases p with
      | char c => cases hname
      | name m =>
        cases hname
        rfl
    refine ⟨(parts 0 (a ++ g ++ b)).take i, n, (parts 0 (a ++ g ++ b)).drop (i + 1), ?_, hbegin,
      hinside, hend⟩
    rw [← hpart, ← hget, ← List.drop_eq_getElem_cons hi, List.take_append_drop]

instance (a g b : Text) : Decidable (Straddles a g b) := decidable_of_iff' _ straddles_iff

theorem straddles_of_written {n rest g b : Text} (hne : n ≠ []) (hn : ']' ∉ n) (hg : g ≠ [])
    (heq : g ++ b = written n ++ rest) (hlong : g.length < (written n).length) :
    Straddles [] g b := by
  refine ⟨[], n, parts 0 rest, ?_, Nat.zero_le _, List.length_pos_iff.mpr hg, hlong⟩
  rw [List.nil_append, heq, parts_written_append hne hn]
  rfl

/-- What straddles the rest of a gap straddles the gap. -/
theorem straddles_cons {p : Part} {g b : Text}
    (hparts : parts 0 (p.written ++ g ++ b) = p :: parts 0 (g ++ b)) (h : Straddles [] g b) :
    Straddles [] (p.written ++ g) b := by
  obtain ⟨qs, n, rs, heq, -, hbegin, hend⟩ := h
  refine ⟨p :: qs, n, rs, ?_, Nat.zero_le _, ?_, ?_⟩
  · rw [List.nil_append] at heq ⊢
    rw [hparts, heq]
    rfl
  all_goals
    simp only [List.nil_append, List.flatMap_cons, List.length_append] at hbegin hend ⊢
    omega

/-- Induction along the scan of `g ++ b` through `g`: a placeholder that begins in `g` ends there
or in `b`. -/
theorem scan_append_induction {b : Text} {P : Text → Prop} (nil : P [])
    (char : ∀ c g, ¬ Begins (c :: g ++ b) → P g → P (c :: g))
    (name : ∀ n g, n ≠ [] → ']' ∉ n → P g → P (written n ++ g))
    (straddles : ∀ n g rest, n ≠ [] → ']' ∉ n → g ≠ [] → g ++ b = written n ++ rest →
      g.length < (written n).length → P g) (g : Text) : P g := by
  induction hlen : g.length using Nat.strongRecOn generalizing g with
  | _ len ih =>
    subst hlen
    cases g with
    | nil => exact nil
    | cons c cs =>
      by_cases hbegins : Begins (c :: cs ++ b)
      · obtain ⟨n, rest, heq, hne, hn⟩ := hbegins
        rcases Nat.lt_or_ge (c :: cs).length (written n).length with hlong | hle
        · exact straddles n (c :: cs) rest hne hn (List.cons_ne_nil c cs) heq hlong
        · obtain ⟨g, hg⟩ : written n <+: c :: cs :=
            List.prefix_of_prefix_length_le ⟨rest, heq.symm⟩ (List.prefix_append _ b) hle
          have hlt : g.length < (c :: cs).length := by
            rw [← hg, List.length_append]
            simp [written]
          rw [← hg]
          exact name n g hne hn (ih _ hlt g rfl)
      · exact char c cs hbegins (ih _ (by simp) cs rfl)

theorem parts_append {g b : Text} (h : ¬ Straddles [] g b) :
    parts 0 (g ++ b) = parts 0 g ++ parts 0 b := by
  induction g using scan_append_induction (b := b) with
  | nil => rfl
  | char c g hbegins ih =>
    have hhead : ¬ Begins (c :: g) := fun hb => hbegins (begins_append hb b)
    have hparts : parts 0 (c :: g ++ b) = .char c :: parts 0 (g ++ b) := parts_cons hbegins
    have ih := ih fun hg => h (straddles_cons (p := .char c) hparts hg)
    rw [hparts, ih, parts_cons hhead]
    rfl
  | name n g hne hn ih =>
    have hparts : parts 0 (written n ++ g ++ b) = .name n :: parts 0 (g ++ b) := by
      rw [List.append_assoc, parts_written_append hne hn]
    have ih := ih fun hg => h (straddles_cons (p := .name n) hparts hg)
    rw [hparts, ih, parts_written_append hne hn]
    rfl
  | straddles n g rest hne hn hg heq hlong =>
    exact absurd (straddles_of_written hne hn hg heq hlong) h

/-! ## Open brackets -/

/-- The last opening bracket of the text is not closed in it. -/
def LeftOpen (g : Text) : Prop := ∃ u v, g = u ++ '[' :: v ∧ ']' ∉ v

theorem exists_of_straddles {g b : Text} (h : Straddles [] g b) :
    ∃ u v w n, n ∈ scan 0 (g ++ b) ∧ g = u ++ '[' :: v ∧ n ++ [']'] = v ++ w ∧ w ≠ [] ∧
      w <+: b := by
  obtain ⟨qs, n, rs, heq, -, hbegin, hend⟩ := h
  rw [List.nil_append] at heq
  have hn : n ∈ scan 0 (g ++ b) := by
    refine name_mem_parts.mp ?_
    rw [heq]
    exact List.mem_append_right qs List.mem_cons_self
  have htext : g ++ b = qs.flatMap Part.written ++ (written n ++ rs.flatMap Part.written) := by
    conv => lhs; rw [← flatMap_written_parts (g ++ b), heq]
    simp [Part.written]
  rw [List.nil_append] at hbegin hend
  obtain ⟨g, rfl⟩ : qs.flatMap Part.written <+: g :=
    List.prefix_of_prefix_length_le ⟨_, htext.symm⟩ (List.prefix_append g b) (Nat.le_of_lt hbegin)
  rw [List.append_assoc] at htext
  have hrest := List.append_cancel_left htext
  rw [List.length_append] at hbegin hend
  -- What is behind the beginning in the gap is a proper part of the placeholder.
  obtain ⟨w, hw⟩ : g <+: written n :=
    List.prefix_of_prefix_length_le (List.prefix_append g b) ⟨_, hrest.symm⟩ (by
      rw [List.length_append] at hend
      omega)
  cases g with
  | nil =>
    rw [List.length_nil] at hbegin
    omega
  | cons c v =>
    have hopened : c :: (v ++ w) = '[' :: (n ++ [']']) := hw
    obtain ⟨rfl, hname⟩ := List.cons_eq_cons.mp hopened
    refine ⟨qs.flatMap Part.written, v, w, n, hn, rfl, hname.symm, ?_, ?_⟩
    · rintro rfl
      rw [List.append_nil] at hw
      rw [List.length_append, ← hw] at hend
      omega
    · rw [← hw, List.append_assoc] at hrest
      exact ⟨_, (List.append_cancel_left hrest).symm⟩

theorem leftOpen_of_straddles {g b : Text} (h : Straddles [] g b) : LeftOpen g ∧ ']' ∈ b := by
  obtain ⟨u, v, w, n, hn, rfl, hname, hne, hw⟩ := exists_of_straddles h
  obtain ⟨w, d, rfl⟩ := (List.eq_nil_or_concat' w).resolve_left hne
  rw [← List.append_assoc] at hname
  obtain ⟨rfl, hd⟩ := List.append_inj' hname rfl
  refine ⟨⟨u, v, rfl, fun hv => ?_⟩, ?_⟩
  · exact (ne_nil_and_not_mem_of_scan hn).2 (List.mem_append_left w hv)
  · obtain rfl : ']' = d := List.head_eq_of_cons_eq hd
    exact hw.subset (List.mem_append_right w List.mem_cons_self)

/-- The name of a placeholder that runs over the end of a gap takes in the next character. -/
theorem exists_name_of_straddles {g b : Text} {c : Char} (hc : c ≠ ']')
    (h : Straddles [] g (c :: b)) : ∃ n ∈ scan 0 (g ++ c :: b), c ∈ n := by
  obtain ⟨u, v, w, n, hn, rfl, hname, hne, hw⟩ := exists_of_straddles h
  obtain ⟨d, w, rfl⟩ := List.exists_cons_of_ne_nil hne
  obtain ⟨rfl, -⟩ := List.cons_prefix_cons.mp hw
  refine ⟨n, hn, ?_⟩
  have hmem : d ∈ n ++ [']'] := by
    rw [hname]
    exact List.mem_append_right v List.mem_cons_self
  simpa [hc] using hmem

/-- A bracket that is left open is closed by the first closing one behind it, unless this follows
at once. -/
theorem straddles_of_leftOpen {g b : Text} (hopen : LeftOpen g) (hb : ']' ∈ b)
    (hhead : ∀ rest, b ≠ ']' :: rest) : Straddles [] g b := by
  induction g using scan_append_induction (b := b) with
  | nil =>
    obtain ⟨u, v, h, -⟩ := hopen
    simp at h
  | char c g hbegins ih =>
    obtain ⟨u, v, hg, hv⟩ := hopen
    cases u with
    | nil =>
      obtain ⟨x, y, rfl, hx⟩ := List.eq_append_cons_of_mem hb
      refine absurd ⟨v ++ x, y, ?_, ?_, List.not_mem_append hv hx⟩ hbegins
      · rw [hg]
        simp [written]
      · cases x with
        | nil => exact absurd rfl (hhead y)
        | cons d x => simp
    | cons d u =>
      have hparts : parts 0 (c :: g ++ b) = .char c :: parts 0 (g ++ b) := parts_cons hbegins
      obtain ⟨rfl, rfl⟩ := List.cons_eq_cons.mp hg
      exact straddles_cons (p := .char c) hparts (ih ⟨u, v, rfl, hv⟩)
  | name n g hne hn ih =>
    obtain ⟨u, v, hg, hv⟩ := hopen
    have hparts : parts 0 (written n ++ g ++ b) = .name n :: parts 0 (g ++ b) := by
      rw [List.append_assoc, parts_written_append hne hn]
    refine straddles_cons (p := .name n) hparts (ih ?_)
    -- The bracket that is left open stands behind the placeholder, which is closed.
    rcases List.append_eq_append_iff.mp hg with ⟨u', -, hrest⟩ | ⟨w, hwritten, hrest⟩
    · exact ⟨u', v, hrest, hv⟩
    · rcases List.eq_nil_or_concat' w with rfl | ⟨w, d, rfl⟩
      · exact ⟨[], v, hrest.symm, hv⟩
      · have hlast : '[' :: n ++ [']'] = u ++ w ++ [d] := by
          rw [List.append_assoc, ← hwritten]
          rfl
        obtain ⟨-, hd⟩ := List.append_inj' hlast rfl
        have hd : ']' = d := by simpa using hd
        have hmem : ']' ∈ '[' :: v := by
          rw [hrest, hd]
          simp
        exact absurd hmem (by simp [hv])
  | straddles n g rest hne hn hg heq hlong => exact straddles_of_written hne hn hg heq hlong

/-- Whether a placeholder runs over the end of a gap depends on what follows only as far as there
is a closing bracket in it. -/
theorem straddles_of_straddles {g b b' : Text} (h : Straddles [] g b') (hb : ']' ∈ b' → ']' ∈ b)
    (hhead : ∀ rest, b ≠ ']' :: rest) : Straddles [] g b := by
  obtain ⟨hopen, hclosing⟩ := leftOpen_of_straddles h
  exact straddles_of_leftOpen hopen (hb hclosing) hhead

end NoteTemplate.Placeholder
