import Mathlib.Data.List.Infix
import NoteTemplate.Text.Basic

/-!
# Occurrences of a needle

A text avoids a needle if no occurrence of the needle begins inside it, whatever comes behind
the text. This is stronger than not containing the needle: a text that ends with the first
characters of the needle does not avoid it. The stronger notion is the one that is kept when
texts are put together, so it can be checked part by part.

* `avoids_append`, `avoids_flatMap`: texts that avoid a needle may be put together.
* `cut?_eq_some_iff`: a cut is made at the first occurrence of the needle.
* `replaceAll_flatMap`: in a text made of parts, each of which is the needle or avoids it,
  replacing the needle replaces these parts.
-/

namespace NoteTemplate.Text

/-- No occurrence of `needle` begins inside the text, whatever comes behind it. -/
def Avoids (needle s : Text) : Prop :=
  ∀ t, t <:+ s → t ≠ [] → ∀ rest, ¬ needle <+: t ++ rest

/-! ## Texts that avoid a needle -/

theorem avoids_nil (needle : Text) : Avoids needle [] := by
  intro t ht hne
  exact absurd (List.suffix_nil.mp ht) hne

theorem avoids_cons {needle : Text} {c : Char} {cs : Text} :
    Avoids needle (c :: cs) ↔ (∀ rest, ¬ needle <+: c :: cs ++ rest) ∧ Avoids needle cs := by
  constructor
  · intro h
    exact ⟨h _ List.suffix_rfl (List.cons_ne_nil c cs),
      fun t ht => h t (ht.trans (List.suffix_cons c cs))⟩
  · rintro ⟨hhead, htail⟩ t ht hne
    rcases List.suffix_cons_iff.mp ht with rfl | ht
    · exact hhead
    · exact htail t ht hne

theorem avoids_append {needle a b : Text} (ha : Avoids needle a) (hb : Avoids needle b) :
    Avoids needle (a ++ b) := by
  induction a with
  | nil => exact hb
  | cons c cs ih =>
    obtain ⟨hhead, htail⟩ := avoids_cons.mp ha
    refine avoids_cons.mpr ⟨fun rest => ?_, ih htail⟩
    simpa using hhead (b ++ rest)

theorem avoids_flatMap {α : Type} {needle : Text} {f : α → Text} {xs : List α}
    (h : ∀ x ∈ xs, Avoids needle (f x)) : Avoids needle (xs.flatMap f) := by
  induction xs with
  | nil => exact avoids_nil needle
  | cons x xs ih =>
    rw [List.flatMap_cons]
    exact avoids_append (h x List.mem_cons_self)
      (ih fun y hy => h y (List.mem_cons_of_mem x hy))

/-- A text without the first character of the needle avoids it. -/
theorem avoids_of_not_mem {c : Char} {needle s : Text} (h : c ∉ s) : Avoids (c :: needle) s := by
  intro t ht hne rest hp
  cases t with
  | nil => exact hne rfl
  | cons d ds =>
    obtain ⟨rfl, -⟩ := List.cons_prefix_cons.mp hp
    exact h (ht.subset List.mem_cons_self)

/-- Whether a needle can begin inside a text is decided by comparing characters: either it
ends inside, or the rest of the text is the beginning of the needle. -/
theorem avoids_iff {needle s : Text} :
    Avoids needle s ↔ ∀ t ∈ s.tails, t ≠ [] → ¬ needle <+: t ∧ ¬ t <+: needle := by
  constructor
  · intro h t ht hne
    have hnot := h t ((List.mem_tails t s).mp ht) hne
    refine ⟨fun hp => hnot [] (by simpa using hp), fun hp => ?_⟩
    obtain ⟨rest, rfl⟩ := hp
    exact hnot rest List.prefix_rfl
  · intro h t ht hne rest hp
    obtain ⟨hlong, hshort⟩ := h t ((List.mem_tails t s).mpr ht) hne
    rcases List.prefix_or_prefix_of_prefix hp (List.prefix_append t rest) with hp | hp
    · exact hlong hp
    · exact hshort hp

instance (needle s : Text) : Decidable (Avoids needle s) := decidable_of_iff' _ avoids_iff

/-! ## Search -/

theorem isPrefixOf?_eq_none_iff {needle s : Text} :
    needle.isPrefixOf? s = none ↔ ¬ needle <+: s := by
  rw [← Option.not_isSome_iff_eq_none, List.isSome_isPrefixOf?_eq_isPrefixOf,
    List.isPrefixOf_iff_prefix]

theorem cut?_eq_none_iff {needle s : Text} : cut? needle s = none ↔ ¬ needle <:+: s := by
  induction s with
  | nil =>
    by_cases hne : needle = []
    · simp [cut?, hne]
    · simp [cut?, hne]
  | cons c cs ih =>
    rw [cut?, List.infix_cons_iff, not_or, ← ih, ← isPrefixOf?_eq_none_iff]
    cases needle.isPrefixOf? (c :: cs) with
    | some rest => simp
    | none => simp

theorem contains_iff {s needle : Text} : contains s needle = true ↔ needle <:+: s := by
  rw [contains, ← Option.ne_none_iff_isSome, Ne, cut?_eq_none_iff, Classical.not_not]

/-- A cut is made at the first occurrence. -/
theorem cut?_eq_some_iff {needle s before after : Text} :
    cut? needle s = some (before, after) ↔
      s = before ++ needle ++ after ∧
        ∀ t, t <:+ before → t ≠ [] → ¬ needle <+: t ++ needle ++ after := by
  induction s generalizing before with
  | nil =>
    rw [cut?]
    constructor
    · intro h
      split at h
      · rename_i hneedle
        cases h
        subst hneedle
        exact ⟨rfl, fun t ht hne => absurd (List.suffix_nil.mp ht) hne⟩
      · cases h
    · rintro ⟨h, -⟩
      obtain ⟨hboth, rfl⟩ := List.append_eq_nil_iff.mp h.symm
      obtain ⟨rfl, rfl⟩ := List.append_eq_nil_iff.mp hboth
      rfl
  | cons c cs ih =>
    rw [cut?]
    cases hneedle : needle.isPrefixOf? (c :: cs) with
    | some rest =>
      have hcons := eq_append_of_isPrefixOf? hneedle
      constructor
      · intro h
        cases h
        exact ⟨hcons, fun t ht hne => absurd (List.suffix_nil.mp ht) hne⟩
      · rintro ⟨h, hfirst⟩
        have hprefix : needle <+: before ++ needle ++ after := ⟨rest, by rw [← hcons, h]⟩
        have hnil : before = [] := by
          by_contra hne
          exact hfirst before List.suffix_rfl hne hprefix
        subst hnil
        rw [List.nil_append] at h
        have hrest : rest = after := List.append_cancel_left (hcons.symm.trans h)
        rw [hrest]
    | none =>
      rw [isPrefixOf?_eq_none_iff] at hneedle
      rw [Option.map_eq_some_iff]
      constructor
      · rintro ⟨⟨b, rest⟩, hcut, heq⟩
        cases heq
        obtain ⟨rfl, hfirst⟩ := ih.mp hcut
        refine ⟨rfl, fun t ht hne => ?_⟩
        rcases List.suffix_cons_iff.mp ht with rfl | ht
        · exact hneedle
        · exact hfirst t ht hne
      · rintro ⟨h, hfirst⟩
        cases before with
        | nil => exact absurd ⟨after, by rw [h, List.nil_append]⟩ hneedle
        | cons b before =>
          obtain ⟨rfl, hcs⟩ := List.cons_eq_cons.mp h
          refine ⟨(before, after), ih.mpr ⟨hcs, fun t ht => ?_⟩, rfl⟩
          exact hfirst t (ht.trans (List.suffix_cons _ _))

theorem cut?_append {needle s : Text} (h : Avoids needle s) (rest : Text) :
    cut? needle (s ++ needle ++ rest) = some (s, rest) := by
  refine cut?_eq_some_iff.mpr ⟨rfl, fun t ht hne => ?_⟩
  rw [List.append_assoc]
  exact h t ht hne (needle ++ rest)

/-- The needle is not empty, and it begins nowhere inside itself but at its first character. -/
def Unbordered (needle : Text) : Prop := needle ≠ [] ∧ Avoids needle needle.tail

instance (needle : Text) : Decidable (Unbordered needle) := instDecidableAnd

/-- What stands before the first occurrence is told by not containing the needle. -/
theorem cut?_eq_some_iff_of_unbordered {needle : Text} (h : Unbordered needle)
    {s before after : Text} :
    cut? needle s = some (before, after) ↔
      s = before ++ needle ++ after ∧ ¬ needle <:+: before := by
  obtain ⟨hne, hborder⟩ := h
  rw [cut?_eq_some_iff, and_congr_right_iff]
  rintro -
  constructor
  · rintro hfirst ⟨a, b, rfl⟩
    refine hfirst (needle ++ b) ⟨a, by simp⟩ (by simp [hne]) ?_
    exact ⟨b ++ needle ++ after, by simp⟩
  · intro hnot t ht htne hp
    rw [List.append_assoc] at hp
    rcases List.prefix_or_prefix_of_prefix hp (List.prefix_append t _) with hlong | ⟨u, rfl⟩
    · exact hnot (hlong.isInfix.trans ht.isInfix)
    · -- The needle ends inside its own occurrence behind `t`, with `u` as a border.
      have hu : u <+: t ++ u := by
        have hu := (List.prefix_append_right_inj t).mp hp
        refine List.prefix_of_prefix_length_le hu (List.prefix_append _ _) ?_
        simp
      have hune : u ≠ [] := by
        rintro rfl
        refine hnot ?_
        simpa using ht.isInfix
      obtain ⟨c, t, rfl⟩ := List.exists_cons_of_ne_nil htne
      exact (avoids_iff.mp hborder u ((List.mem_tails _ _).mpr ⟨t, rfl⟩) hune).2 hu

/-! ## Up to a character -/

theorem takeWhile_append_stop {c : Char} {a : Text} (h : c ∉ a) (b : Text) :
    (a ++ c :: b).takeWhile (fun d => decide (d ≠ c)) = a := by
  have hpass : ∀ d ∈ a, decide (d ≠ c) = true := by
    intro d hd
    rw [decide_eq_true_eq]
    rintro rfl
    exact h hd
  rw [List.takeWhile_append_of_pos hpass]
  simp

theorem dropWhile_append_stop {c : Char} {a : Text} (h : c ∉ a) (b : Text) :
    (a ++ c :: b).dropWhile (fun d => decide (d ≠ c)) = c :: b := by
  have hpass : ∀ d ∈ a, decide (d ≠ c) = true := by
    intro d hd
    rw [decide_eq_true_eq]
    rintro rfl
    exact h hd
  rw [List.dropWhile_append_of_pos hpass]
  simp

theorem stop_not_mem_takeWhile (c : Char) (s : Text) :
    c ∉ s.takeWhile (fun d => decide (d ≠ c)) := by
  induction s with
  | nil => exact List.not_mem_nil
  | cons d ds ih =>
    rw [List.takeWhile_cons]
    by_cases hd : d = c
    · simp [hd]
    · simpa [hd, Ne.symm hd] using ih

/-- A character ends what stands before it, if that is not the whole text. -/
theorem exists_stop {c : Char} {s : Text}
    (h : (s.takeWhile fun d => decide (d ≠ c)).length < s.length) :
    ∃ rest, s = s.takeWhile (fun d => decide (d ≠ c)) ++ c :: rest := by
  induction s with
  | nil => exact absurd h (Nat.lt_irrefl _)
  | cons d ds ih =>
    by_cases hd : d = c
    · exact ⟨ds, by simp [hd]⟩
    · simp only [List.takeWhile_cons, hd, ne_eq, not_false_eq_true, decide_true, if_true,
        List.length_cons, Nat.add_lt_add_iff_right] at h
      obtain ⟨rest, hrest⟩ := ih (by simpa using h)
      refine ⟨rest, ?_⟩
      conv => lhs; rw [hrest]
      simp [hd]

/-- Of two texts that a character ends neither is longer. -/
theorem eq_of_prefix_stop {c : Char} {a b s t : Text} (ha : c ∉ a) (hb : c ∉ b)
    (h : a ++ c :: s <+: b ++ c :: t) : a = b := by
  obtain ⟨rest, h⟩ := h
  rw [List.append_assoc, List.cons_append] at h
  rw [← takeWhile_append_stop ha (s ++ rest), h, takeWhile_append_stop hb]

/-! ## Replacement -/

theorem mem_replaceFrom {needle new s : Text} {skip : Nat} {c : Char}
    (h : c ∈ replaceFrom needle new skip s) : c ∈ new ∨ c ∈ s := by
  induction s generalizing skip with
  | nil => simp [replaceFrom] at h
  | cons d ds ih =>
    cases skip with
    | succ k => exact (@ih k h).imp_right (List.mem_cons_of_mem d)
    | zero =>
      rw [replaceFrom] at h
      split at h
      · rcases List.mem_append.mp h with h | h
        · exact Or.inl h
        · exact (ih h).imp_right (List.mem_cons_of_mem d)
      · rcases List.mem_cons.mp h with rfl | h
        · exact Or.inr List.mem_cons_self
        · exact (ih h).imp_right (List.mem_cons_of_mem d)

/-- A replacement brings in no characters but those of the new text. -/
theorem mem_replaceAll {needle new s : Text} {c : Char} (h : c ∈ replaceAll needle new s) :
    c ∈ new ∨ c ∈ s :=
  mem_replaceFrom h

theorem replaceAll_cons_of_not_prefix {needle s : Text} {c : Char} (h : ¬ needle <+: c :: s)
    (new : Text) : replaceAll needle new (c :: s) = c :: replaceAll needle new s := by
  have hnot : needle.isPrefixOf (c :: s) = false := by
    rw [Bool.eq_false_iff, Ne, List.isPrefixOf_iff_prefix]
    exact h
  rw [replaceAll, replaceFrom, hnot, if_neg Bool.false_ne_true, replaceAll]

/-- No occurrence begins in `a`, given what stands behind it. -/
theorem replaceAll_append_of_forall {needle new a b : Text}
    (h : ∀ t, t <:+ a → t ≠ [] → ¬ needle <+: t ++ b) :
    replaceAll needle new (a ++ b) = a ++ replaceAll needle new b := by
  induction a with
  | nil => rfl
  | cons c cs ih =>
    have hnot : ¬ needle <+: c :: (cs ++ b) := h _ List.suffix_rfl (List.cons_ne_nil c cs)
    have ih := ih fun t ht => h t (ht.trans (List.suffix_cons c cs))
    rw [List.cons_append, replaceAll_cons_of_not_prefix hnot, ih, List.cons_append]

theorem replaceAll_append {needle new a : Text} (h : Avoids needle a) (b : Text) :
    replaceAll needle new (a ++ b) = a ++ replaceAll needle new b :=
  replaceAll_append_of_forall fun t ht hne => h t ht hne b

theorem replaceAll_of_avoids {needle new a : Text} (h : Avoids needle a) :
    replaceAll needle new a = a := by
  simpa using replaceAll_append h []

theorem replaceAll_needle_append {needle : Text} (hne : needle ≠ []) (new b : Text) :
    replaceAll needle new (needle ++ b) = new ++ replaceAll needle new b := by
  cases needle with
  | nil => exact absurd rfl hne
  | cons c cs =>
    have hp : (c :: cs).isPrefixOf (c :: (cs ++ b)) = true := by
      rw [List.isPrefixOf_iff_prefix]
      exact List.prefix_append (c :: cs) b
    unfold replaceAll
    rw [List.cons_append, replaceFrom, hp, if_pos rfl, replaceFrom_eq_drop]
    simp

/-- In a text made of parts, each of which is the needle or avoids it, replacing the needle
replaces these parts. -/
theorem replaceAll_flatMap {α : Type} {needle new : Text} (hne : needle ≠ []) {f g : α → Text}
    {xs : List α}
    (h : ∀ x ∈ xs, f x = needle ∧ g x = new ∨ Avoids needle (f x) ∧ g x = f x) :
    replaceAll needle new (xs.flatMap f) = xs.flatMap g := by
  induction xs with
  | nil => rfl
  | cons x xs ih =>
    have ih := ih fun y hy => h y (List.mem_cons_of_mem x hy)
    rw [List.flatMap_cons, List.flatMap_cons]
    rcases h x List.mem_cons_self with ⟨hf, hg⟩ | ⟨hf, hg⟩
    · rw [hf, hg, replaceAll_needle_append hne, ih]
    · rw [replaceAll_append hf, hg, ih]

/-- A single character is replaced wherever it stands. -/
theorem replaceAll_single (c : Char) (new s : Text) :
    replaceAll [c] new s = s.flatMap fun d => if d = c then new else [d] := by
  have h := @replaceAll_flatMap Char [c] new (List.cons_ne_nil c []) (fun d => [d])
    (fun d => if d = c then new else [d]) s
  rw [List.flatMap_singleton' s] at h
  refine h fun d _ => ?_
  by_cases hd : d = c
  · exact Or.inl ⟨by rw [hd], if_pos hd⟩
  · exact Or.inr ⟨avoids_of_not_mem (by simpa using Ne.symm hd), if_neg hd⟩

end NoteTemplate.Text
