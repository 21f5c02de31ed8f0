import NoteTemplate.Json.Reader
import NoteTemplate.Proofs.Json.Numerals
import NoteTemplate.Proofs.Json.Sorting
import NoteTemplate.Proofs.Json.Strings
import NoteTemplate.Text.Blank

/-!
# The grammar of JSON

Which texts are documents, and of which values, without regard to how they are read. A document
may have any space between its tokens, its strings and numerals may be spelled in any way, and its
members may come in any order.

* `Value.Written`: the texts of a value.
* `Value.ofText_eq_ok_iff`: a text is read if and only if it is a document, and it is read as the
  value that it is written for, with the members of every object sorted.
-/

namespace NoteTemplate.Json

/-! ## Space -/

/-- Nothing but space that may stand between tokens. -/
def IsGap (s : Text) : Prop := ∀ c ∈ s, isSpace c = true

theorem skipSpace_cons {c : Char} (h : isSpace c = false) (s : Text) :
    skipSpace (c :: s) = c :: s := by
  rw [skipSpace, List.dropWhile_cons, h]
  rfl

theorem skipSpace_append {gap : Text} (h : IsGap gap) (s : Text) :
    skipSpace (gap ++ s) = skipSpace s :=
  List.dropWhile_append_of_pos h

theorem isGap_append {a b : Text} (ha : IsGap a) (hb : IsGap b) : IsGap (a ++ b) := by
  intro c hc
  exact (List.mem_append.mp hc).elim (ha c) (hb c)

theorem exists_gap (s : Text) : ∃ gap, IsGap gap ∧ s = gap ++ skipSpace s :=
  ⟨s.takeWhile isSpace, fun _ hc => List.mem_takeWhile_imp hc,
    List.takeWhile_append_dropWhile.symm⟩

theorem ends_cons {c : Char} (h : isSpace c = true ∨ c = ',' ∨ c = ']' ∨ c = '}') (s : Text) :
    Numeral.Ends (c :: s) := by
  rintro _ ⟨⟩
  rw [isSpace, Bool.or_eq_true, Bool.or_eq_true, Bool.or_eq_true] at h
  simp only [decide_eq_true_eq] at h
  rcases h with (((rfl | rfl) | rfl) | rfl) | rfl | rfl | rfl <;> decide

theorem ends_gap_append {gap s : Text} (hgap : IsGap gap) (hs : Numeral.Ends s) :
    Numeral.Ends (gap ++ s) := by
  cases gap with
  | nil => exact hs
  | cons c cs => exact ends_cons (Or.inl (hgap c List.mem_cons_self)) (cs ++ s)

/-! ## Lists -/

section Lists

variable {α β : Type}

/-- Items with commas between them, and space around each. -/
inductive Items (P : α → Text → Prop) : List α → Text → Prop
  | single {a : α} {before t after : Text} : IsGap before → P a t → IsGap after →
      Items P [a] (before ++ t ++ after)
  | cons {a : α} {as : List α} {before t after u : Text} : IsGap before → P a t → IsGap after →
      Items P as u → Items P (a :: as) (before ++ t ++ after ++ ',' :: u)

/-- What stands between the brackets of an array or the braces of an object. -/
inductive Inside (P : α → Text → Prop) : List α → Text → Prop
  | empty {gap : Text} : IsGap gap → Inside P [] gap
  | items {as : List α} {t : Text} : Items P as t → Inside P as t

variable {P : α → Text → Prop} {q : Sequence β} {f : α → β}

theorem items_map {γ : Type} {Q : γ → Text → Prop} {g : γ → α} {as : List α} {t : Text}
    (h : Items P as t) {cs : List γ} (hcs : cs.map g = as)
    (hPQ : ∀ c ∈ cs, ∀ t, P (g c) t → Q c t) : Items Q cs t := by
  induction h generalizing cs with
  | single hbefore ht hafter =>
    obtain ⟨c, cs, rfl, rfl, hnil⟩ := List.map_eq_cons_iff.mp hcs
    obtain rfl := List.map_eq_nil_iff.mp hnil
    exact .single hbefore (hPQ c List.mem_cons_self _ ht) hafter
  | cons hbefore ht hafter _ ih =>
    obtain ⟨c, cs, rfl, rfl, hrest⟩ := List.map_eq_cons_iff.mp hcs
    obtain ⟨hc, hcs⟩ := List.forall_mem_cons.mp hPQ
    exact .cons hbefore (hc _ ht) hafter (ih hrest hcs)

/-- A list of items that come from others is a list of those others, if the texts of an item are
texts of the one that it comes from. -/
theorem inside_map {γ : Type} {Q : γ → Text → Prop} {g : γ → α} {cs : List γ} {t : Text}
    (h : Inside P (cs.map g) t) (hPQ : ∀ c ∈ cs, ∀ t, P (g c) t → Q c t) : Inside Q cs t := by
  generalize hcs : cs.map g = as at h
  cases h with
  | empty hgap =>
    obtain rfl := List.map_eq_nil_iff.mp hcs
    exact .empty hgap
  | items h => exact .items (items_map h hcs hPQ)

theorem length_le_of_items {as : List α} {t : Text} (h : Items P as t) :
    as.length ≤ t.length + 1 := by
  induction h with
  | single => simp
  | cons _ _ _ _ ih =>
    simp only [List.length_cons, List.length_append]
    omega

namespace Sequence

/-- What ends the list is no space, no comma, and no part of a numeral. -/
structure Closes (q : Sequence β) : Prop where
  noSpace : isSpace q.close = false
  noComma : q.close ≠ ','
  ends : ∀ s, Numeral.Ends (q.close :: s)

/-- The text of an item, which begins with something other than space or the end. -/
structure Takes (q : Sequence β) (t : Text) (b : β) : Prop where
  item : ∀ rest, Numeral.Ends rest → q.item (t ++ rest) = .ok (b, rest)
  head : ∃ c cs, t = c :: cs ∧ isSpace c = false ∧ c ≠ q.close

theorem item_of_takes {before t : Text} {b : β} (hbefore : IsGap before) (ht : q.Takes t b)
    {rest : Text} (hrest : Numeral.Ends rest) :
    ∃ c cs, skipSpace (before ++ (t ++ rest)) = c :: cs ∧ c ≠ q.close ∧
      q.item (c :: cs) = .ok (b, rest) := by
  obtain ⟨hitem, c, cs, rfl, hspace, hclose⟩ := ht
  refine ⟨c, cs ++ rest, ?_, hclose, hitem rest hrest⟩
  rw [skipSpace_append hbefore]
  exact skipSpace_cons hspace (cs ++ rest)

theorem readMore_close (hq : q.Closes) {gap : Text} (hgap : IsGap gap) (fuel : Nat)
    (rest : Text) : q.readMore (fuel + 1) (gap ++ q.close :: rest) = .ok ([], rest) := by
  rw [readMore, skipSpace_append hgap, skipSpace_cons hq.noSpace]
  exact if_pos rfl

/-- Items are read one after the other: the first one at once, the others behind it. -/
theorem read_items (hq : q.Closes) (hP : ∀ a t, P a t → q.Takes t (f a)) {as : List α} {t : Text}
    (h : Items P as t) (rest : Text) :
    ∃ c cs b bs s, skipSpace (t ++ q.close :: rest) = c :: cs ∧ c ≠ q.close ∧
      as.map f = b :: bs ∧ q.item (c :: cs) = .ok (b, s) ∧ bs.length ≤ s.length ∧
        ∀ fuel, bs.length < fuel → q.readMore fuel s = .ok (bs, rest) := by
  induction h with
  | @single a before t after hbefore ht hafter =>
    have hends := ends_gap_append hafter (hq.ends rest)
    obtain ⟨c, cs, hskip, hclose, hitem⟩ := item_of_takes hbefore (hP a t ht) hends
    refine ⟨c, cs, f a, [], _, ?_, hclose, rfl, hitem, Nat.zero_le _, fun fuel hfuel => ?_⟩
    · rw [List.append_assoc, List.append_assoc, hskip]
    · obtain ⟨fuel, rfl⟩ := Nat.exists_eq_add_one.mpr hfuel
      exact readMore_close hq hafter fuel rest
  | @cons a as before t after u hbefore ht hafter hu ih =>
    have hcomma : Numeral.Ends (',' :: (u ++ q.close :: rest)) := ends_cons (by simp) _
    have hends := ends_gap_append hafter hcomma
    obtain ⟨c, cs, hskip, hclose, hitem⟩ := item_of_takes hbefore (hP a t ht) hends
    obtain ⟨d, ds, b, bs, s, hskip', hclose', hmap, hitem', -, hmore⟩ := ih
    refine ⟨c, cs, f a, as.map f, _, ?_, hclose, rfl, hitem, ?_, fun fuel hfuel => ?_⟩
    · rw [List.append_assoc, List.append_assoc, List.append_assoc, List.cons_append, hskip]
    · have hlength := length_le_of_items hu
      simp only [List.length_map, List.length_append, List.length_cons]
      omega
    · obtain ⟨fuel, rfl⟩ := Nat.exists_eq_add_one.mpr (Nat.zero_lt_of_lt hfuel)
      rw [hmap, List.length_cons, Nat.add_lt_add_iff_right] at hfuel
      rw [readMore, skipSpace_append hafter, skipSpace_cons rfl, hmap]
      simp only [if_neg (Ne.symm hq.noComma), if_true, hskip', if_neg hclose', hitem',
        hmore fuel hfuel]

/-- A list is read up to its end. -/
theorem read_of_inside (hq : q.Closes) (hP : ∀ a t, P a t → q.Takes t (f a)) {as : List α}
    {t : Text} (h : Inside P as t) (rest : Text) :
    q.read (t ++ q.close :: rest) = .ok (as.map f, rest) := by
  cases h with
  | empty hgap =>
    rw [read, skipSpace_append hgap, skipSpace_cons hq.noSpace]
    exact if_pos rfl
  | items h =>
    obtain ⟨c, cs, b, bs, s, hskip, hclose, hmap, hitem, hlength, hmore⟩ := read_items hq hP h rest
    rw [read, hskip, hmap]
    simp only [if_neg hclose, hitem, hmore _ (Nat.lt_succ_of_le hlength)]

/-- Behind an item comes the end of the list, or a comma and further items. -/
theorem items_of_readMore
    (hitem : ∀ s b rest, q.item s = .ok (b, rest) →
      ∃ gap t a, IsGap gap ∧ s = gap ++ (t ++ rest) ∧ P a t ∧ f a = b) {fuel : Nat}
    {s rest : Text} {bs : List β} (h : q.readMore fuel s = .ok (bs, rest)) :
    ∃ gap, IsGap gap ∧ (s = gap ++ q.close :: rest ∧ bs = [] ∨
      ∃ as t, s = gap ++ ',' :: (t ++ q.close :: rest) ∧ Items P as t ∧ as.map f = bs) := by
  induction fuel generalizing s bs with
  | zero => cases h
  | succ fuel ih =>
    obtain ⟨gap, hgap, hs⟩ := exists_gap s
    refine ⟨gap, hgap, ?_⟩
    rw [readMore] at h
    split at h
    · cases h
    rename_i c cs hskip
    rw [hskip] at hs
    split at h
    · rename_i hc
      cases h
      exact Or.inl ⟨by rw [hs, hc], rfl⟩
    split at h
    · rename_i hc
      right
      split at h
      · cases h
      rename_i d ds hskip'
      split at h
      · cases h
      split at h
      · cases h
      rename_i b tail hread
      obtain ⟨before', t, a, hbefore', hds, ht, rfl⟩ := hitem _ _ _ hread
      split at h
      · cases h
      rename_i hmore
      cases h
      obtain ⟨before, hbefore, hcs⟩ := exists_gap cs
      have hfront := isGap_append hbefore hbefore'
      rw [hs, hc, hcs, hskip', hds]
      obtain ⟨after, hafter, ⟨rfl, rfl⟩ | ⟨as, u, rfl, hu, rfl⟩⟩ := ih hmore
      · exact ⟨[a], _, by simp, .single hfront ht hafter, rfl⟩
      · exact ⟨a :: as, _, by simp, .cons hfront ht hafter hu, rfl⟩
    · cases h

/-- What is read as a list stands inside one. -/
theorem inside_of_read
    (hitem : ∀ s b rest, q.item s = .ok (b, rest) →
      ∃ gap t a, IsGap gap ∧ s = gap ++ (t ++ rest) ∧ P a t ∧ f a = b)
    {s rest : Text} {bs : List β} (h : q.read s = .ok (bs, rest)) :
    ∃ as t, s = t ++ q.close :: rest ∧ Inside P as t ∧ as.map f = bs := by
  obtain ⟨before, hbefore, hs⟩ := exists_gap s
  rw [read] at h
  split at h
  · cases h
  rename_i c cs hskip
  split at h
  · rename_i hc
    cases h
    exact ⟨[], before, by rw [hs, hskip, hc], .empty hbefore, rfl⟩
  split at h
  · cases h
  rename_i b tail hread
  obtain ⟨before', t, a, hbefore', hcs, ht, rfl⟩ := hitem _ _ _ hread
  split at h
  · cases h
  rename_i hmore
  cases h
  have hfront := isGap_append hbefore hbefore'
  rw [hs, hskip, hcs]
  obtain ⟨after, hafter, ⟨rfl, rfl⟩ | ⟨as, u, rfl, hu, rfl⟩⟩ := items_of_readMore hitem hmore
  · exact ⟨[a], _, by simp, .items (.single hfront ht hafter), rfl⟩
  · exact ⟨a :: as, _, by simp, .items (.cons hfront ht hafter hu), rfl⟩

end Sequence

end Lists

/-! ## Values -/

theorem exists_of_map_ok {ε α β : Type} {x : Except ε α} {f : α → β} {b : β}
    (h : x.map f = .ok b) : ∃ a, x = .ok a ∧ f a = b := by
  cases x with
  | error e => cases h
  | ok a => exact ⟨a, rfl, Except.ok.inj h⟩

namespace Value

/-- The texts of a value that has no others inside it. -/
inductive Atomic : Value → Text → Prop
  | null : Atomic .null ['n', 'u', 'l', 'l']
  | bool_true : Atomic (.bool true) ['t', 'r', 'u', 'e']
  | bool_false : Atomic (.bool false) ['f', 'a', 'l', 's', 'e']
  | natural {m : Numeral} {n : Number} {t : Text} : m.negative = false → m.Spelled t →
      m.value = .ok n → Atomic (.number n) t
  | negative {m : Numeral} {n : Number} {t : Text} : m.negative = true → m.Spelled t →
      m.value = .ok n → Atomic (.number n) ('-' :: t)
  | string {s t : Text} : Quoted.Spelled t s → Atomic (.string s) ('"' :: t ++ ['"'])

/-- A name, a colon with space around it, and a value. -/
inductive MemberText (W : Value → Text → Prop) : Text × Value → Text → Prop
  | member {key name before after t : Text} {v : Value} : Quoted.Spelled key name →
      IsGap before → IsGap after → W v t →
      MemberText W (name, v) ('"' :: key ++ '"' :: before ++ ':' :: after ++ t)

/-- The texts of an array or an object, given those of the values inside it. -/
inductive Compound (W : Value → Text → Prop) : Value → Text → Prop
  | array {vs : List Value} {t : Text} : Inside W vs t → Compound W (.array vs) ('[' :: t ++ [']'])
  | object {ms : List (Text × Value)} {t : Text} : Inside (MemberText W) ms t →
      Compound W (.object ms) ('{' :: t ++ ['}'])

/-- The texts of a value in which arrays and objects nest at most `depth` deep. -/
def Written : (depth : Nat) → Value → Text → Prop
  | 0, v, t => Atomic v t
  | depth + 1, v, t => Atomic v t ∨ Compound (Written depth) v t

/-- A text that consists of a value and of the space around it. -/
inductive Document : Value → Text → Prop
  | document {v : Value} {before t after : Text} : IsGap before → Written maxDepth v t →
      IsGap after → Document v (before ++ t ++ after)

mutual

/-- The value with the members of every object in it sorted. -/
def sorted : Value → Value
  | array vs => array (sortedElements vs)
  | object ms => object (sortMembers (sortedMembers ms))
  | v => v

def sortedElements : List Value → List Value
  | [] => []
  | v :: vs => sorted v :: sortedElements vs

def sortedMembers : List (Text × Value) → List (Text × Value)
  | [] => []
  | (name, v) :: ms => (name, sorted v) :: sortedMembers ms

end

theorem sortedElements_eq (vs : List Value) : sortedElements vs = vs.map sorted := by
  induction vs with
  | nil => rfl
  | cons v vs ih => rw [sortedElements, ih, List.map_cons]

theorem sortedMembers_eq (ms : List (Text × Value)) :
    sortedMembers ms = ms.map fun m => (m.1, m.2.sorted) := by
  induction ms with
  | nil => rfl
  | cons m ms ih => rw [sortedMembers, ih, List.map_cons]

theorem sorted_of_atomic {v : Value} {t : Text} (h : Atomic v t) : v.sorted = v := by
  cases h <;> rfl

/-! ### Written values are read -/

theorem blankChar_of_isSpace {c : Char} (h : isSpace c = true) : Text.blankChar c = true := by
  rw [isSpace, Bool.or_eq_true, Bool.or_eq_true, Bool.or_eq_true] at h
  simp only [decide_eq_true_eq] at h
  rcases h with ((rfl | rfl) | rfl) | rfl <;> decide

theorem blankChar_of_isDigit {c : Char} (h : c.isDigit = true) : Text.blankChar c = false := by
  rw [Char.isDigit, Bool.and_eq_true, decide_eq_true_eq, decide_eq_true_eq] at h
  have hlow : 48 ≤ c.toNat := h.1
  have hhigh : c.toNat ≤ 57 := h.2
  simp only [Text.blankChar, Bool.or_eq_false_iff, Bool.and_eq_false_iff, decide_eq_false_iff_not,
    beq_eq_false_iff_ne]
  omega

theorem head_of_atomic {v : Value} {t : Text} (h : Atomic v t) :
    ∃ c cs, t = c :: cs ∧ Text.blankChar c = false ∧ c ≠ ']' := by
  cases h with
  | null => exact ⟨'n', _, rfl, by decide, by decide⟩
  | bool_true => exact ⟨'t', _, rfl, by decide, by decide⟩
  | bool_false => exact ⟨'f', _, rfl, by decide, by decide⟩
  | natural _ ht _ =>
    obtain ⟨c, cs, rfl, hc⟩ := Numeral.exists_digit_of_spelled ht
    refine ⟨c, cs, rfl, blankChar_of_isDigit hc, ?_⟩
    rintro rfl
    exact absurd hc (by decide)
  | negative _ _ _ => exact ⟨'-', _, rfl, by decide, by decide⟩
  | string _ => exact ⟨'"', _, rfl, by decide, by decide⟩

/-- What a value begins with. -/
theorem head_of_written {depth : Nat} {v : Value} {t : Text} (h : Written depth v t) :
    ∃ c cs, t = c :: cs ∧ Text.blankChar c = false ∧ c ≠ ']' := by
  cases depth with
  | zero => exact head_of_atomic h
  | succ depth =>
    rcases h with h | h
    · exact head_of_atomic h
    · cases h with
      | array _ => exact ⟨'[', _, rfl, by decide, by decide⟩
      | object _ => exact ⟨'{', _, rfl, by decide, by decide⟩

theorem isSpace_of_blankChar {c : Char} (h : Text.blankChar c = false) : isSpace c = false := by
  rw [Bool.eq_false_iff] at h ⊢
  exact fun hspace => h (blankChar_of_isSpace hspace)

theorem readWith_of_digit {r : Strictness} (inner : Option (Read Value)) {c : Char}
    (hc : c.isDigit = true) (cs : Text) : readWith r inner (c :: cs) =
      (Numeral.readValue r.finite false (c :: cs)).map fun (n, rest) => (.number n, rest) := by
  have hne (d : Char) (hd : d.isDigit = false) : c ≠ d := by
    rintro rfl
    rw [hc] at hd
    cases hd
  have hspace := isSpace_of_blankChar (blankChar_of_isDigit hc)
  rw [readWith, skipSpace_cons hspace]
  simp only [if_neg (hne 'n' rfl), if_neg (hne 't' rfl), if_neg (hne 'f' rfl),
    if_neg (hne '-' rfl), if_pos hc]

theorem readWith_of_atomic (inner : Option (Read Value)) {v : Value} {t rest : Text}
    (h : Atomic v t) (hrest : Numeral.Ends rest) :
    readWith ⟨true, true⟩ inner (t ++ rest) = .ok (v, rest) := by
  cases h with
  | null => rfl
  | bool_true => rfl
  | bool_false => rfl
  | natural hm ht hn =>
    have hread := Numeral.readValue_of_spelled ht hn hrest
    obtain ⟨c, cs, rfl, hc⟩ := Numeral.exists_digit_of_spelled ht
    rw [hm, List.cons_append] at hread
    rw [List.cons_append, readWith_of_digit inner hc, hread]
    rfl
  | negative hm ht hn =>
    have hread := Numeral.readValue_of_spelled ht hn hrest
    rw [hm] at hread
    show (Numeral.readValue true true (_ ++ rest)).map _ = _
    rw [hread]
    rfl
  | string hs =>
    have hread := Quoted.read_of_spelled hs rest
    show (Quoted.read true (_ ++ ['"'] ++ rest)).map _ = _
    rw [List.append_assoc, List.singleton_append, hread]
    rfl

theorem closes_elements (element : Read Value) : (elements element).Closes :=
  ⟨rfl, by show ']' ≠ ','; decide, fun s => ends_cons (by simp [elements]) s⟩

theorem closes_members {α : Type} (paired : Bool) (value : Text → Read α) :
    (members paired value).Closes :=
  ⟨rfl, by show '}' ≠ ','; decide, fun s => ends_cons (by simp [members]) s⟩

theorem read_of_space {depth : Nat} {gap : Text} (hgap : IsGap gap) (s : Text) :
    read ⟨true, true⟩ depth (gap ++ s) = read ⟨true, true⟩ depth s := by
  cases depth <;> rw [read, readWith, readWith, skipSpace_append hgap]

/-- A member is read as its name and whatever its value is read as. -/
theorem takes_member {α : Type} {W : Value → Text → Prop} {value : Text → Read α}
    {m : Text × Value} {a : α} {t : Text}
    (hvalue : ∀ gap u rest, IsGap gap → W m.2 u → Numeral.Ends rest →
      value m.1 (gap ++ (u ++ rest)) = .ok (a, rest))
    (h : MemberText W m t) : (members true value).Takes t (m.1, a) := by
  cases h with
  | @member key name before after t v hkey hbefore hafter ht =>
    refine ⟨fun rest hrest => ?_, '"', _, rfl, rfl, by show '"' ≠ '}'; decide⟩
    have hread := Quoted.read_of_spelled hkey (before ++ (':' :: (after ++ (t ++ rest))))
    have htext : '"' :: key ++ '"' :: before ++ ':' :: after ++ t ++ rest =
        '"' :: (key ++ '"' :: (before ++ (':' :: (after ++ (t ++ rest))))) := by
      simp
    have hitem : (members true value).item = readMember true value := rfl
    rw [hitem, htext, readMember]
    simp only [if_true, hread, skipSpace_append hbefore, skipSpace_cons (c := ':') rfl,
      hvalue after t rest hafter ht hrest]

/-- Whatever follows it, as long as it does not go on with a numeral, a value is read. -/
theorem read_of_written {depth : Nat} {v : Value} {t rest : Text} (h : Written depth v t)
    (hrest : Numeral.Ends rest) : read ⟨true, true⟩ depth (t ++ rest) = .ok (v.sorted, rest) := by
  induction depth generalizing v t rest with
  | zero => rw [read, readWith_of_atomic none h hrest, sorted_of_atomic h]
  | succ depth ih =>
    rcases h with h | h
    · rw [read, readWith_of_atomic _ h hrest, sorted_of_atomic h]
    · have htakes (v : Value) (t : Text) (ht : Written depth v t) :
          (elements (read ⟨true, true⟩ depth)).Takes t v.sorted := by
        obtain ⟨c, cs, hc, hblank, hclose⟩ := head_of_written ht
        exact ⟨fun rest hrest => ih ht hrest, c, cs, hc, isSpace_of_blankChar hblank, hclose⟩
      cases h with
      | @array vs t h =>
        have hread := Sequence.read_of_inside (closes_elements _) htakes h rest
        show ((elements (read ⟨true, true⟩ depth)).read (t ++ [']'] ++ rest)).map _ = _
        rw [List.append_assoc, List.singleton_append, sorted, sortedElements_eq]
        exact congrArg (Except.map _) hread
      | @object ms t h =>
        have hmember (m : Text × Value) (t : Text) (ht : MemberText (Written depth) m t) :
            (members true fun _ => read ⟨true, true⟩ depth).Takes t (m.1, m.2.sorted) := by
          refine takes_member (fun gap u rest hgap hu hrest => ?_) ht
          rw [read_of_space hgap, ih hu hrest]
        have hread := Sequence.read_of_inside (closes_members _ _) hmember h rest
        show ((members true fun _ => read ⟨true, true⟩ depth).read (t ++ ['}'] ++ rest)).map _ = _
        rw [List.append_assoc, List.singleton_append, sorted, sortedMembers_eq]
        exact congrArg (Except.map _) hread

/-! ### What is read is written -/

theorem eq_of_readWord {letters s rest : Text} (h : readWord letters s = .ok rest) :
    s = letters ++ rest := by
  induction letters generalizing s with
  | nil => exact Except.ok.inj h
  | cons l ls ih =>
    cases s with
    | nil => cases h
    | cons c cs =>
      rw [readWord] at h
      split at h
      · rename_i hc
        rw [hc, ih h, List.cons_append]
      · cases h

variable {W : Value → Text → Prop} {value : Read Value}

theorem member_of_readMember
    (hvalue : ∀ s w rest, value s = .ok (w, rest) →
      ∃ gap t v, IsGap gap ∧ s = gap ++ (t ++ rest) ∧ W v t ∧ v.sorted = w)
    {s rest : Text} {m : Text × Value} (h : readMember true (fun _ => value) s = .ok (m, rest)) :
    ∃ gap t n, IsGap gap ∧ s = gap ++ (t ++ rest) ∧ MemberText W n t ∧
      (n.1, n.2.sorted) = m := by
  rw [readMember.eq_def] at h
  split at h
  · cases h
  rename_i c cs
  split at h
  · rename_i hc
    split at h
    · cases h
    rename_i name tail hname
    obtain ⟨key, rfl, hkey⟩ := Quoted.read_eq_ok_iff.mp hname
    obtain ⟨before, hbefore, htail⟩ := exists_gap tail
    split at h
    · cases h
    rename_i d ds hskip
    split at h
    · rename_i hd
      split at h
      · cases h
      rename_i hread
      cases h
      obtain ⟨after, t, v, hafter, rfl, ht, rfl⟩ := hvalue _ _ _ hread
      refine ⟨[], _, (name, v), fun _ hx => absurd hx List.not_mem_nil, ?_,
        .member hkey hbefore hafter ht, rfl⟩
      rw [hc, htail, hskip, hd]
      simp
    · cases h
  · cases h

/-- What a value is read from, given what the values inside it are read from. -/
theorem written_of_readWith {P : Value → Text → Prop} {inner : Option (Read Value)}
    (hatomic : ∀ v t, Atomic v t → P v t)
    (hinner : ∀ value ∈ inner, ∃ W, (∀ s w rest, value s = .ok (w, rest) →
        ∃ gap t v, IsGap gap ∧ s = gap ++ (t ++ rest) ∧ W v t ∧ v.sorted = w) ∧
      ∀ v t, Compound W v t → P v t)
    {s rest : Text} {w : Value} (h : readWith ⟨true, true⟩ inner s = .ok (w, rest)) :
    ∃ gap t v, IsGap gap ∧ s = gap ++ (t ++ rest) ∧ P v t ∧ v.sorted = w := by
  obtain ⟨gap, hgap, hs⟩ := exists_gap s
  have hatom {v : Value} {t : Text} (ht : Atomic v t) (heq : skipSpace s = t ++ rest) :
      ∃ gap t v', IsGap gap ∧ s = gap ++ (t ++ rest) ∧ P v' t ∧ v'.sorted = v :=
    ⟨gap, t, v, hgap, by rw [← heq]; exact hs, hatomic v t ht, sorted_of_atomic ht⟩
  rw [readWith] at h
  split at h
  · cases h
  rename_i c cs hskip
  split at h
  · rename_i hc
    obtain ⟨_, hword, heq⟩ := exists_of_map_ok h
    cases heq
    exact hatom .null (by rw [hskip, hc, eq_of_readWord hword]; rfl)
  split at h
  · rename_i hc
    obtain ⟨_, hword, heq⟩ := exists_of_map_ok h
    cases heq
    exact hatom .bool_true (by rw [hskip, hc, eq_of_readWord hword]; rfl)
  split at h
  · rename_i hc
    obtain ⟨_, hword, heq⟩ := exists_of_map_ok h
    cases heq
    exact hatom .bool_false (by rw [hskip, hc, eq_of_readWord hword]; rfl)
  split at h
  · rename_i hc
    obtain ⟨⟨n, _⟩, hread, heq⟩ := exists_of_map_ok h
    cases heq
    obtain ⟨m, t, hm, hcs, ht, hn⟩ := Numeral.spelled_of_readValue hread
    exact hatom (.negative hm ht hn) (by rw [hskip, hc, hcs]; rfl)
  split at h
  · obtain ⟨⟨n, _⟩, hread, heq⟩ := exists_of_map_ok h
    cases heq
    obtain ⟨m, t, hm, hcs, ht, hn⟩ := Numeral.spelled_of_readValue hread
    exact hatom (.natural hm ht hn) (by rw [hskip, hcs])
  split at h
  · rename_i hc
    obtain ⟨⟨str, _⟩, hread, heq⟩ := exists_of_map_ok h
    cases heq
    obtain ⟨u, hcs, hu⟩ := Quoted.read_eq_ok_iff.mp hread
    exact hatom (.string hu) (by rw [hskip, hc, hcs]; simp)
  split at h
  · rename_i hbracket
    split at h
    · cases h
    rename_i value
    obtain ⟨W, hvalue, hcompound⟩ := hinner value rfl
    split at h
    · rename_i hc
      obtain ⟨⟨ws, _⟩, hread, heq⟩ := exists_of_map_ok h
      cases heq
      obtain ⟨vs, t, hcs, ht, hws⟩ := Sequence.inside_of_read hvalue hread
      refine ⟨gap, _, .array vs, hgap, ?_, hcompound _ _ (.array ht), ?_⟩
      · rw [hs, hskip, hc, hcs]
        simp [elements]
      · rw [sorted, sortedElements_eq, hws]
    · rename_i hc
      have hc : c = '{' := hbracket.resolve_left hc
      obtain ⟨⟨ns, _⟩, hread, heq⟩ := exists_of_map_ok h
      cases heq
      obtain ⟨ms, t, hcs, ht, hns⟩ := Sequence.inside_of_read
        (fun _ _ _ hmember => member_of_readMember hvalue hmember) hread
      refine ⟨gap, _, .object ms, hgap, ?_, hcompound _ _ (.object ht), ?_⟩
      · rw [hs, hskip, hc, hcs]
        simp [members]
      · rw [sorted, sortedMembers_eq, hns]
  · cases h

theorem written_of_read {depth : Nat} {s rest : Text} {w : Value}
    (h : read ⟨true, true⟩ depth s = .ok (w, rest)) :
    ∃ gap t v, IsGap gap ∧ s = gap ++ (t ++ rest) ∧ Written depth v t ∧ v.sorted = w := by
  induction depth generalizing s rest w with
  | zero => exact written_of_readWith (fun _ _ ht => ht) (fun _ hvalue => by cases hvalue) h
  | succ depth ih =>
    refine written_of_readWith (fun _ _ ht => Or.inl ht) (fun value hvalue => ?_) h
    cases hvalue
    exact ⟨Written depth, fun s w rest hread => ih hread, fun _ _ ht => Or.inr ht⟩

/-! ### Documents -/

theorem ends_gap {gap : Text} (h : IsGap gap) : Numeral.Ends gap := by
  have hnil : Numeral.Ends [] := fun c hc => by cases hc
  simpa using ends_gap_append h hnil

theorem atEnd_of_isGap {s : Text} (h : IsGap s) : atEnd s = .ok () := by
  have hskip := skipSpace_append h []
  rw [List.append_nil] at hskip
  rw [atEnd, hskip]
  rfl

theorem isGap_of_atEnd {s : Text} (h : atEnd s = .ok ()) : IsGap s := by
  obtain ⟨gap, hgap, hs⟩ := exists_gap s
  rw [atEnd] at h
  split at h
  · rename_i hskip
    rw [hskip, List.append_nil] at hs
    exact hs ▸ hgap
  · cases h

/-- Space around a document belongs to it. -/
theorem document_append {v : Value} {s before after : Text} (h : v.Document s)
    (hbefore : IsGap before) (hafter : IsGap after) : v.Document (before ++ s ++ after) := by
  obtain ⟨hbefore', ht, hafter'⟩ := h
  simpa using Document.document (isGap_append hbefore hbefore') ht (isGap_append hafter' hafter)

/-- A text is read if and only if it is a document. -/
theorem ofText_eq_ok_iff {s : Text} {w : Value} :
    ofText s = .ok w ↔ ∃ v, Document v s ∧ v.sorted = w := by
  constructor
  · intro h
    rw [ofText] at h
    split at h
    · cases h
    rename_i u rest hread
    obtain ⟨_, hend, rfl⟩ := exists_of_map_ok h
    obtain ⟨before, t, v, hbefore, rfl, ht, hsorted⟩ := written_of_read hread
    refine ⟨v, ?_, hsorted⟩
    rw [← List.append_assoc]
    exact .document hbefore ht (isGap_of_atEnd hend)
  · rintro ⟨v, ⟨hbefore, ht, hafter⟩, rfl⟩
    rw [ofText, List.append_assoc, read_of_space hbefore, read_of_written ht (ends_gap hafter)]
    dsimp only
    rw [atEnd_of_isGap hafter]
    rfl

end Value

end NoteTemplate.Json
