import NoteTemplate.Proofs.Text.Counting
import NoteTemplate.Text.LineBreak

/-!
# Marking line breaks

The markers are put in two steps: first for the pairs of carriage return and line feed, then for
what is left of either. The second step sees a text that the first has changed. Together they do
what one pass does that takes a pair as a unit wherever it comes to one.

* `onePass`, `markBreaks_eq_onePass`: the pass, and that the two steps do the same.
* `markBreaks_append`: texts are marked one by one, unless a pair lies across the seam.
* `markBreaks_as_one_pass`: with what follows for marked texts and for pairs across a seam.
-/

namespace NoteTemplate.Text

/-- One pass from left to right. A pair is taken as a unit, and becomes a marker like any other
carriage return or line feed. -/
def onePass : Text → Text
  | [] => []
  | '\r' :: '\n' :: s => breakMarker ++ onePass s
  | '\r' :: s => breakMarker ++ onePass s
  | '\n' :: s => breakMarker ++ onePass s
  | c :: s => c :: onePass s

/-! ## Characters of a marked text -/

theorem mem_markBreaks {value : Text} {c : Char} (h : c ∈ markBreaks value) :
    c ∈ value ∨ c ∈ breakMarker := by
  obtain ⟨d, hd, hc⟩ := List.mem_flatMap.mp h
  rw [markBreak] at hc
  split at hc
  · exact Or.inr hc
  · rw [List.mem_singleton.mp hc]
    exact (mem_replaceAll hd).symm

/-- A character that is not in the marker comes from the value that is put in. -/
theorem not_mem_markBreaks_getD {c : Char} (hc : c ∉ breakMarker) {value : Option Text}
    (h : ∀ v ∈ value, c ∉ v) : c ∉ markBreaks (value.getD []) := by
  intro hmem
  rcases mem_markBreaks hmem with hmem | hmem
  · cases value with
    | none => cases hmem
    | some v => exact h v rfl hmem
  · exact hc hmem

/-- What is put in for a value is on one line. -/
theorem break_not_mem_markBreaks {c : Char} (hc : c = '\r' ∨ c = '\n') (value : Text) :
    c ∉ markBreaks value := by
  intro hmem
  obtain ⟨d, -, hd⟩ := List.mem_flatMap.mp hmem
  rw [markBreak] at hd
  split at hd
  · rcases hc with rfl | rfl <;> exact absurd hd (by decide)
  · rename_i hnot
    obtain rfl := List.mem_singleton.mp hd
    exact hnot hc

theorem markBreaks_of_not_mem {s : Text} (hr : '\r' ∉ s) (hn : '\n' ∉ s) : markBreaks s = s := by
  have hcopy : ∀ c ∈ s, markBreak c = [c] := by
    intro c hc
    refine if_neg ?_
    rintro (rfl | rfl)
    · exact hr hc
    · exact hn hc
  rw [markBreaks, replaceAll_of_avoids (avoids_of_not_mem hr), List.flatMap_congr hcopy,
    List.flatMap_singleton']

theorem markBreaks_markBreaks (s : Text) : markBreaks (markBreaks s) = markBreaks s :=
  markBreaks_of_not_mem (break_not_mem_markBreaks (Or.inl rfl) s)
    (break_not_mem_markBreaks (Or.inr rfl) s)

/-! ## The two steps as one -/

theorem markBreaks_pair_append (s : Text) :
    markBreaks ('\r' :: '\n' :: s) = breakMarker ++ markBreaks s := by
  have hpair : replaceAll ['\r', '\n'] breakMarker ('\r' :: '\n' :: s) =
      breakMarker ++ replaceAll ['\r', '\n'] breakMarker s :=
    replaceAll_needle_append (List.cons_ne_nil _ _) breakMarker s
  rw [markBreaks, hpair, List.flatMap_append]
  rfl

theorem markBreaks_cons {c : Char} {s : Text} (h : ¬ ['\r', '\n'] <+: c :: s) :
    markBreaks (c :: s) = markBreak c ++ markBreaks s := by
  rw [markBreaks, replaceAll_cons_of_not_prefix h, List.flatMap_cons, markBreaks]

theorem markBreaks_eq_onePass (s : Text) : markBreaks s = onePass s := by
  fun_induction onePass s with
  | case1 => rfl
  | case2 s ih => rw [markBreaks_pair_append, ih]
  | case3 s hpair ih =>
    have hnot : ¬ ['\r', '\n'] <+: '\r' :: s := by
      rintro ⟨rest, heq⟩
      exact hpair rest (List.tail_eq_of_cons_eq heq).symm
    rw [markBreaks_cons hnot, ih]
    rfl
  | case4 s ih =>
    have hnot : ¬ ['\r', '\n'] <+: '\n' :: s := by simp
    rw [markBreaks_cons hnot, ih]
    rfl
  | case5 c s _ hr hn ih =>
    have hnot : ¬ ['\r', '\n'] <+: c :: s := fun hp => hr (List.cons_prefix_cons.mp hp).1.symm
    rw [markBreaks_cons hnot, markBreak, if_neg (not_or.mpr ⟨hr, hn⟩), ih]
    rfl

/-! ## Texts put together -/

/-- Of a pair, only the carriage return and the line feed can be in different parts. -/
theorem crosses_pair_iff {a b : Text} :
    Crosses ['\r', '\n'] a b ↔ ['\r'] <:+ a ∧ ['\n'] <+: b := by
  constructor
  · rintro ⟨u, v, heq, hu, hv, hua, hvb⟩
    obtain ⟨c, u, rfl⟩ := List.exists_cons_of_ne_nil hu
    obtain ⟨rfl, hrest⟩ := List.cons_eq_cons.mp heq
    rcases List.singleton_eq_append_iff.mp hrest with ⟨rfl, rfl⟩ | ⟨rfl, rfl⟩
    · exact ⟨hua, hvb⟩
    · exact absurd rfl hv
  · rintro ⟨ha, hb⟩
    exact ⟨['\r'], ['\n'], rfl, List.cons_ne_nil _ _, List.cons_ne_nil _ _, ha, hb⟩

theorem markBreaks_append {a b : Text} (h : ¬ (['\r'] <:+ a ∧ ['\n'] <+: b)) :
    markBreaks (a ++ b) = markBreaks a ++ markBreaks b := by
  have hcross : ¬ Crosses ['\r', '\n'] a b := mt crosses_pair_iff.mp h
  rw [markBreaks, replaceAll_append_of_not_crosses (List.cons_ne_nil _ _) hcross,
    List.flatMap_append, markBreaks, markBreaks]

/-- A pair across the seam is one line break of the whole text. -/
theorem markBreaks_append_pair (a b : Text) :
    markBreaks (a ++ ['\r'] ++ '\n' :: b) = markBreaks a ++ breakMarker ++ markBreaks b := by
  have hpair : markBreaks (a ++ '\r' :: '\n' :: b) =
      markBreaks a ++ markBreaks ('\r' :: '\n' :: b) := markBreaks_append (by simp)
  rw [List.append_assoc, List.append_assoc, ← markBreaks_pair_append b, ← hpair]
  rfl

/-- A pair across the seam is two line breaks of the parts. -/
theorem markBreaks_append_markBreaks (a b : Text) :
    markBreaks (a ++ ['\r']) ++ markBreaks ('\n' :: b) =
      markBreaks a ++ breakMarker ++ breakMarker ++ markBreaks b := by
  have hreturn : markBreaks (a ++ ['\r']) = markBreaks a ++ breakMarker :=
    markBreaks_append (by simp)
  have hfeed : markBreaks ('\n' :: b) = breakMarker ++ markBreaks b := markBreaks_cons (by simp)
  rw [hreturn, hfeed, ← List.append_assoc]

/-- Putting in the markers is one pass over the text, after which no line break is left to mark.
Texts may be marked before or after they are put together, unless a pair lies across the seam: then
its two characters are marked as two line breaks instead of one. -/
theorem markBreaks_as_one_pass (s : Text) :
    markBreaks s = onePass s ∧ ('\r' ∉ markBreaks s ∧ '\n' ∉ markBreaks s) ∧
      markBreaks (markBreaks s) = markBreaks s ∧
      (∀ a b, ¬ (['\r'] <:+ a ∧ ['\n'] <+: b) →
        markBreaks (a ++ b) = markBreaks a ++ markBreaks b) ∧
      ∀ a b, markBreaks (a ++ ['\r'] ++ '\n' :: b) = markBreaks a ++ breakMarker ++ markBreaks b ∧
        markBreaks (a ++ ['\r']) ++ markBreaks ('\n' :: b) =
          markBreaks a ++ breakMarker ++ breakMarker ++ markBreaks b := by
  refine ⟨markBreaks_eq_onePass s, ⟨?_, ?_⟩, markBreaks_markBreaks s, fun a b => ?_, fun a b => ?_⟩
  · exact break_not_mem_markBreaks (Or.inl rfl) s
  · exact break_not_mem_markBreaks (Or.inr rfl) s
  · exact markBreaks_append
  · exact ⟨markBreaks_append_pair a b, markBreaks_append_markBreaks a b⟩

/-- A single carriage return, a pair, a single line feed, and a carriage return at the end. -/
def mixedBreaks : Text := "\r\r\n\n\r".toList

theorem markBreaks_as_one_pass_mixedBreaks :
    ¬ (['\r'] <:+ mixedBreaks ∧ ['\n'] <+: "\r\nx".toList) ∧
      markBreaks mixedBreaks = "<br><br><br><br>".toList ∧
      markBreaks (mixedBreaks ++ "\r\nx".toList) = "<br><br><br><br><br>x".toList := by
  have hseam : ¬ (['\r'] <:+ mixedBreaks ∧ ['\n'] <+: "\r\nx".toList) := by decide
  obtain ⟨hpass, -, -, happend, -⟩ := markBreaks_as_one_pass mixedBreaks
  refine ⟨hseam, hpass.trans (by decide), ?_⟩
  rw [happend _ _ hseam]
  decide

end NoteTemplate.Text
