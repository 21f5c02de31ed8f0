import Mathlib.Data.List.TakeWhile
import NoteTemplate.Proofs.Template.Scanning

/-!
# Names by cutting

The names of a text can be read without a search. The closing brackets cut the text into pieces.
A piece that a closing bracket ends holds at most one name: what stands behind its first opening
bracket. It does not matter where the scan has failed before and begun anew.

* `scan_closed_append`: behind a closing bracket the scan begins anew.
* `scan_eq_filterMap`: the scan meets the names of the pieces.
* `names_by_cutting`: so the names of a text are those of its pieces, each where it is met first.
-/

namespace NoteTemplate.Placeholder

open Text

/-- The pieces that the closing brackets cut a text into, but for the one behind the last bracket. -/
def closedPieces (s : Text) : List Text := (s.splitOn ']').dropLast

/-- The name in a piece: what stands behind its first opening bracket, unless that is nothing. -/
def nameIn? (piece : Text) : Option Text :=
  match piece.dropWhile (· ≠ '[') with
  | [] => none
  | _ :: name => if name = [] then none else some name

/-! ## Pieces -/

theorem closedPieces_of_not_mem {s : Text} (h : ']' ∉ s) : closedPieces s = [] := by
  rw [closedPieces, List.splitOn_eq_singleton h]
  rfl

theorem closedPieces_append {p : Text} (h : ']' ∉ p) (s : Text) :
    closedPieces (p ++ ']' :: s) = p :: closedPieces s := by
  rw [closedPieces, List.splitOn_append_cons_self_of_not_mem h,
    List.dropLast_cons_of_ne_nil (List.splitOn_ne_nil ']' s), closedPieces]

theorem nameIn?_of_not_mem {p : Text} (h : '[' ∉ p) : nameIn? p = none := by
  have hdrop : p.dropWhile (· ≠ '[') = [] := by
    rw [List.dropWhile_eq_nil_iff]
    intro c hc
    rw [decide_eq_true_eq]
    rintro rfl
    exact h hc
  rw [nameIn?, hdrop]

theorem nameIn?_append {u : Text} (h : '[' ∉ u) (name : Text) :
    nameIn? (u ++ '[' :: name) = if name = [] then none else some name := by
  rw [nameIn?, dropWhile_append_stop h]

/-! ## The scan of a piece -/

theorem scan_of_closing_not_mem {s : Text} (h : ']' ∉ s) : scan 0 s = [] := by
  rw [← filterMap_name?_parts, parts_of_closing_not_mem h, List.filterMap_map]
  exact List.filterMap_eq_nil_iff.mpr fun _ _ => rfl

/-- Behind a closing bracket the scan begins anew, for no placeholder runs over it. -/
theorem scan_closed_append (a b : Text) :
    scan 0 (a ++ ']' :: b) = scan 0 (a ++ [']']) ++ scan 0 b := by
  have hclosed : ¬ Straddles [] (a ++ [']']) b := by
    intro h
    obtain ⟨⟨u, v, heq, hv⟩, -⟩ := leftOpen_of_straddles h
    have hlast : [']'] <:+ '[' :: v :=
      List.suffix_of_suffix_length_le (List.suffix_append a [']'])
        (heq ▸ List.suffix_append u ('[' :: v)) (by simp)
    have hmem : ']' ∈ '[' :: v := hlast.subset List.mem_cons_self
    exact hv (by simpa using hmem)
  have hparts := parts_append hclosed
  rw [List.append_assoc] at hparts
  rw [← filterMap_name?_parts, ← filterMap_name?_parts, ← filterMap_name?_parts,
    ← List.filterMap_append, ← hparts]
  rfl

theorem scan_piece {p : Text} (h : ']' ∉ p) : scan 0 (p ++ [']']) = (nameIn? p).toList := by
  by_cases hopen : '[' ∈ p
  · obtain ⟨u, name, rfl, hu⟩ := List.eq_append_cons_of_mem hopen
    rw [nameIn?_append hu, List.append_assoc, scan_append hu]
    by_cases hname : name = []
    · subst hname
      rfl
    · have hclosing : ']' ∉ name := fun hmem =>
        h (List.mem_append_right u (List.mem_cons_of_mem _ hmem))
      have hwritten := scan_written_append hname hclosing []
      rw [List.append_nil] at hwritten
      rw [if_neg hname]
      exact hwritten
  · rw [nameIn?_of_not_mem hopen, scan_append hopen]
    rfl

/-! ## The scan of a text -/

theorem scan_eq_filterMap (s : Text) : scan 0 s = (closedPieces s).filterMap nameIn? := by
  induction hn : s.length using Nat.strongRecOn generalizing s with
  | _ n ih =>
    subst hn
    by_cases hclosing : ']' ∈ s
    · obtain ⟨p, rest, rfl, hp⟩ := List.eq_append_cons_of_mem hclosing
      have hlt : rest.length < (p ++ ']' :: rest).length := by
        rw [List.length_append, List.length_cons]
        omega
      rw [scan_closed_append, scan_piece hp, ih _ hlt rest rfl, closedPieces_append hp]
      cases hname : nameIn? p with
      | none =>
        rw [List.filterMap_cons_none hname]
        rfl
      | some name =>
        rw [List.filterMap_cons_some hname]
        rfl
    · rw [scan_of_closing_not_mem hclosing, closedPieces_of_not_mem hclosing]
      rfl

theorem written_infix_of_scan {n s : Text} (h : n ∈ scan 0 s) : written n <:+: s := by
  obtain ⟨qs, rs, hparts⟩ := List.append_of_mem (name_mem_parts.mpr h)
  refine ⟨qs.flatMap Part.written, rs.flatMap Part.written, ?_⟩
  conv => rhs; rw [← flatMap_written_parts s, hparts]
  simp [Part.written]

/-! ## Distinct names -/

theorem filter_note (p : Text → Bool) (known : List Text) (name : Text) :
    (note known name).filter p = if p name then note (known.filter p) name else known.filter p := by
  by_cases hp : p name = true
  · have hmem : name ∈ known.filter p ↔ name ∈ known := by simp [hp]
    rw [if_pos hp, note, note]
    by_cases hknown : name ∈ known
    · rw [if_pos hknown, if_pos (hmem.mpr hknown)]
    · rw [if_neg hknown, if_neg (mt hmem.mp hknown), List.filter_append, List.filter_cons_of_pos hp,
        List.filter_nil]
  · rw [if_neg hp, note]
    split
    · rfl
    · rw [List.filter_append, List.filter_cons_of_neg hp, List.filter_nil, List.append_nil]

theorem filter_foldl_note (p : Text → Bool) (found known : List Text) :
    (found.foldl note known).filter p = (found.filter p).foldl note (known.filter p) := by
  induction found generalizing known with
  | nil => rfl
  | cons name found ih =>
    rw [List.foldl_cons, ih, filter_note]
    by_cases hp : p name = true
    · rw [if_pos hp, List.filter_cons_of_pos hp, List.foldl_cons]
    · rw [if_neg hp, List.filter_cons_of_neg hp]

theorem filter_names (p : Text → Bool) (s : Text) :
    (names s).filter p = ((scan 0 s).filter p).eraseDups := by
  rw [names, filter_foldl_note, List.filter_nil, foldl_note_nil]

/-- Names found behind a closing bracket are added unless they are known. -/
theorem names_closed_append (a b : Text) :
    names (a ++ ']' :: b) = names (a ++ [']']) ++
      (names b).filter fun name => name ∉ names (a ++ [']']) := by
  rw [filter_names, ← foldl_note_eq, names, scan_closed_append, List.foldl_append, names]

/-- The names of a text are those of its closed pieces, each where it is met first. So they are
distinct, each is the name of a placeholder that stands in the text, and a text that is put behind
a closing bracket adds the names of its own that are not known. -/
theorem names_by_cutting (s : Text) :
    names s = ((closedPieces s).filterMap nameIn?).eraseDups ∧ (names s).Nodup ∧
      (∀ n ∈ names s, n ≠ [] ∧ ']' ∉ n ∧ written n <:+: s) ∧
      ∀ a b, names (a ++ ']' :: b) = names (a ++ [']']) ++
        (names b).filter fun name => name ∉ names (a ++ [']']) := by
  refine ⟨?_, nodup_names s, fun n hn => ?_, names_closed_append⟩
  · rw [names_eq_eraseDups, scan_eq_filterMap]
  · have hscan : n ∈ scan 0 s := mem_names_iff.mp hn
    obtain ⟨hne, hclosing⟩ := ne_nil_and_not_mem_of_scan hscan
    exact ⟨hne, hclosing, written_infix_of_scan hscan⟩

/-- Brackets around nothing, opening brackets inside names, a line break inside a name, a name that
is met twice, and a bracket that is left open. -/
def cutText : Text := "][][a[b]x]y[[][c\nd][a[b][e".toList

theorem names_by_cutting_cutText :
    "c\nd".toList ∈ names cutText ∧
      ("c\nd".toList ≠ [] ∧ ']' ∉ "c\nd".toList ∧ written "c\nd".toList <:+: cutText) ∧
      names cutText = ["a[b".toList, "[".toList, "c\nd".toList] := by
  obtain ⟨hcut, -, hname, -⟩ := names_by_cutting cutText
  have hnames : names cutText = ["a[b".toList, "[".toList, "c\nd".toList] :=
    hcut.trans (by decide +kernel)
  have hmem : "c\nd".toList ∈ names cutText := by
    rw [hnames]
    decide
  exact ⟨hmem, hname _ hmem, hnames⟩

end NoteTemplate.Placeholder
