import NoteTemplate.Proofs.Text.Occurrence

/-!
# Counting occurrences

The number of places at which a needle begins adds up over the parts of a text, unless an
occurrence runs over the seam between them. Whether one can is seen from the first or the last
characters at the seam.

* `occurrences_append`: the occurrences of two parts that none crosses.
* `replaceAll_append_of_not_crosses`: such parts are replaced in one by one.
* `not_crosses_of_head`, `not_crosses_of_last`: seams that no occurrence crosses.
* `occurrences_of_cut?`: for a needle without a border the places are as many as the cuts that can
  be made one after the other.
-/

namespace NoteTemplate.Text

/-- The number of places at which the needle begins. -/
def occurrences (needle s : Text) : Nat := s.tails.countP fun t => needle.isPrefixOf t

/-- An occurrence of the needle begins in `a` and ends in `b`. -/
def Crosses (needle a b : Text) : Prop :=
  ∃ u v, needle = u ++ v ∧ u ≠ [] ∧ v ≠ [] ∧ u <:+ a ∧ v <+: b

theorem occurrences_nil {needle : Text} (h : needle ≠ []) : occurrences needle [] = 0 := by
  obtain ⟨n, ns, rfl⟩ := List.exists_cons_of_ne_nil h
  rfl

theorem occurrences_cons_of_begins {needle s : Text} {c : Char} (h : needle <+: c :: s) :
    occurrences needle (c :: s) = occurrences needle s + 1 := by
  have hp : needle.isPrefixOf (c :: s) = true := List.isPrefixOf_iff_prefix.mpr h
  rw [occurrences, List.tails_cons, List.countP_cons_of_pos hp, occurrences]

theorem occurrences_cons_of_not_begins {needle s : Text} {c : Char} (h : ¬ needle <+: c :: s) :
    occurrences needle (c :: s) = occurrences needle s := by
  have hp : ¬ needle.isPrefixOf (c :: s) = true := mt List.isPrefixOf_iff_prefix.mp h
  rw [occurrences, List.tails_cons, List.countP_cons_of_neg hp, occurrences]

theorem occurrences_eq_zero {needle s : Text} (h : ¬ needle <:+: s) : occurrences needle s = 0 := by
  refine List.countP_eq_zero.mpr fun t ht hp => h ?_
  exact (List.isPrefixOf_iff_prefix.mp hp).isInfix.trans ((List.mem_tails t s).mp ht).isInfix

theorem infix_of_occurrences_pos {needle s : Text} (h : 0 < occurrences needle s) :
    needle <:+: s := by
  by_contra hnot
  rw [occurrences_eq_zero hnot] at h
  exact Nat.lt_irrefl 0 h

theorem occurrences_pos {needle s : Text} (h : needle <:+: s) : 0 < occurrences needle s := by
  obtain ⟨t, hprefix, hsuffix⟩ := List.infix_iff_prefix_suffix.mp h
  refine List.countP_pos_iff.mpr ⟨t, (List.mem_tails t s).mpr hsuffix, ?_⟩
  exact List.isPrefixOf_iff_prefix.mpr hprefix

theorem occurrences_le_append (needle a b : Text) :
    occurrences needle b ≤ occurrences needle (a ++ b) := by
  induction a with
  | nil => exact Nat.le_refl _
  | cons c cs ih =>
    refine Nat.le_trans ih ?_
    rw [List.cons_append]
    by_cases hp : needle <+: c :: (cs ++ b)
    · rw [occurrences_cons_of_begins hp]
      exact Nat.le_succ _
    · rw [occurrences_cons_of_not_begins hp]

theorem Crosses.of_suffix {needle a a' b : Text} (h : Crosses needle a b) (ha : a <:+ a') :
    Crosses needle a' b := by
  obtain ⟨u, v, heq, hu, hv, hua, hvb⟩ := h
  exact ⟨u, v, heq, hu, hv, hua.trans ha, hvb⟩

/-- An occurrence that begins with the first part and crosses no seam is inside it. -/
theorem prefix_append_iff {needle a b : Text} (ha : a ≠ []) (h : ¬ Crosses needle a b) :
    needle <+: a ++ b ↔ needle <+: a := by
  constructor
  · intro hp
    rcases List.prefix_or_prefix_of_prefix hp (List.prefix_append a b) with hp' | ⟨v, rfl⟩
    · exact hp'
    · by_cases hv : v = []
      · rw [hv, List.append_nil]
      · refine absurd ⟨a, v, rfl, ha, hv, List.suffix_rfl, ?_⟩ h
        exact (List.prefix_append_right_inj a).mp hp
  · intro hp
    exact hp.trans (List.prefix_append a b)

theorem occurrences_append {needle a b : Text} (hne : needle ≠ []) (h : ¬ Crosses needle a b) :
    occurrences needle (a ++ b) = occurrences needle a + occurrences needle b := by
  induction a with
  | nil => rw [List.nil_append, occurrences_nil hne, Nat.zero_add]
  | cons c cs ih =>
    have hiff : needle <+: c :: (cs ++ b) ↔ needle <+: c :: cs :=
      prefix_append_iff (List.cons_ne_nil c cs) h
    have ih := ih fun hcrosses => h (hcrosses.of_suffix (List.suffix_cons c cs))
    rw [List.cons_append]
    by_cases hp : needle <+: c :: cs
    · rw [occurrences_cons_of_begins (hiff.mpr hp), occurrences_cons_of_begins hp, ih]
      omega
    · rw [occurrences_cons_of_not_begins (mt hiff.mp hp), occurrences_cons_of_not_begins hp, ih]

theorem occurrences_append_of_avoids {needle a : Text} (h : Avoids needle a) (b : Text) :
    occurrences needle (a ++ b) = occurrences needle b := by
  induction a with
  | nil => rfl
  | cons c cs ih =>
    obtain ⟨hhead, htail⟩ := avoids_cons.mp h
    have hhead : ¬ needle <+: c :: (cs ++ b) := hhead b
    rw [List.cons_append, occurrences_cons_of_not_begins hhead, ih htail]

/-- No occurrence runs into a text that cannot begin inside one. -/
theorem not_crosses_of_head {needle head : Text} (h : Avoids head needle.tail) (a b : Text) :
    ¬ Crosses needle a (head ++ b) := by
  rintro ⟨u, v, rfl, hu, hv, -, hvb⟩
  obtain ⟨c, cs, rfl⟩ := List.exists_cons_of_ne_nil hu
  have hnot := h v (List.suffix_append cs v) hv
  rcases List.prefix_or_prefix_of_prefix hvb (List.prefix_append head b) with
    ⟨rest, hrest⟩ | hlong
  · exact hnot rest ⟨[], by rw [List.append_nil, hrest]⟩
  · exact hnot [] (by rwa [List.append_nil])

/-- No occurrence runs over the end of a text that cannot end inside one. -/
theorem not_crosses_of_last {needle last : Text}
    (h : ∀ u ∈ needle.inits, u ≠ [] → u ≠ needle → ¬ u <:+ last ∧ ¬ last <:+ u) (a b : Text) :
    ¬ Crosses needle (a ++ last) b := by
  rintro ⟨u, v, rfl, hu, hv, hua, -⟩
  obtain ⟨hshort, hlong⟩ := h u ((List.mem_inits u _).mpr (List.prefix_append u v)) hu
    (by simpa using hv)
  rcases List.suffix_or_suffix_of_suffix hua (List.suffix_append a last) with hu | hu
  · exact hshort hu
  · exact hlong hu

/-- Parts that no occurrence crosses are replaced in one by one. -/
theorem replaceAll_append_of_not_crosses {needle a b : Text} (hne : needle ≠ [])
    (h : ¬ Crosses needle a b) (new : Text) :
    replaceAll needle new (a ++ b) = replaceAll needle new a ++ replaceAll needle new b := by
  -- An occurrence takes several characters, so the induction is on the length.
  induction hn : a.length using Nat.strongRecOn generalizing a with
  | _ n ih =>
    subst hn
    cases a with
    | nil => rfl
    | cons c cs =>
      have hiff : needle <+: c :: (cs ++ b) ↔ needle <+: c :: cs :=
        prefix_append_iff (List.cons_ne_nil c cs) h
      by_cases hp : needle <+: c :: cs
      · obtain ⟨t, ht⟩ := hp
        have hcross : ¬ Crosses needle t b := fun hcrosses =>
          h (hcrosses.of_suffix (ht ▸ List.suffix_append needle t))
        have hlt : t.length < (c :: cs).length := by
          rw [← ht, List.length_append]
          have := List.length_pos_iff.mpr hne
          omega
        rw [← ht, List.append_assoc, replaceAll_needle_append hne, replaceAll_needle_append hne,
          ih _ hlt hcross rfl, List.append_assoc]
      · have hcross : ¬ Crosses needle cs b := fun hcrosses =>
          h (hcrosses.of_suffix (List.suffix_cons c cs))
        have hrest := ih _ (Nat.lt_succ_self cs.length) hcross rfl
        rw [List.cons_append, replaceAll_cons_of_not_prefix (mt hiff.mp hp),
          replaceAll_cons_of_not_prefix hp, hrest, List.cons_append]

/-- A cut takes one occurrence away. -/
theorem occurrences_of_cut? {needle s before after : Text} (h : Unbordered needle)
    (hcut : cut? needle s = some (before, after)) :
    occurrences needle s = occurrences needle after + 1 := by
  obtain ⟨rfl, hnot⟩ := (cut?_eq_some_iff_of_unbordered h).mp hcut
  obtain ⟨hne, hborder⟩ := h
  rw [List.append_assoc, occurrences_append hne (not_crosses_of_head hborder before after),
    occurrences_eq_zero hnot, Nat.zero_add]
  obtain ⟨c, cs, rfl⟩ := List.exists_cons_of_ne_nil hne
  have hprefix : c :: cs <+: c :: (cs ++ after) := List.prefix_append (c :: cs) after
  rw [List.cons_append, occurrences_cons_of_begins hprefix,
    occurrences_append_of_avoids (a := cs) hborder]

end NoteTemplate.Text
