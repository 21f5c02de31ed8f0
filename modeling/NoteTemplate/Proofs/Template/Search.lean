import NoteTemplate.Directive
import NoteTemplate.Placeholder
import NoteTemplate.Proofs.Text.Occurrence

/-!
# Finding what was written

What the searches for directives and placeholders find in a text that was put together from
directives and placeholders, and from stretches in which none begins.

* `Directive.find?_append`: the first directive of a text is the one written behind a stretch
  in which no opening tag begins.
* `Placeholder.scan_append`, `Placeholder.scan_written_append`: the scan passes over a stretch
  without an opening bracket and meets the name of a placeholder.
* `Placeholder.names_eq_eraseDups`: the names of a text are those that the scan meets, each
  where it is met first.
-/

namespace NoteTemplate

namespace Directive

open Text

variable {kind : DirectiveKind}

/-! ## Directives -/

theorem read?_eq_none {s : Text} (h : ¬ kind.opener <+: s) : read? kind s = none := by
  rw [read?, isPrefixOf?_eq_none_iff.mpr h]

/-- Behind an opening tag the body is what stands before the first closing tag. -/
theorem read?_opened {label : Text} (hne : label ≠ []) (hlabel : '}' ∉ label) (inner : Text) :
    read? kind (kind.opener ++ label ++ tagEnd ++ inner) =
      (cut? kind.closer inner).map fun (body, after) => (⟨label, body⟩, after) := by
  have hs : kind.opener ++ label ++ tagEnd ++ inner =
      kind.opener ++ (label ++ '}' :: '}' :: inner) := by
    simp [tagEnd]
  have hprefix (needle rest : Text) : needle.isPrefixOf? (needle ++ rest) = some rest :=
    List.isPrefixOf?_eq_some_iff_append_eq.mpr rfl
  have hend : tagEnd.isPrefixOf? ('}' :: '}' :: inner) = some inner := hprefix tagEnd inner
  rw [hs, read?, hprefix]
  simp only [takeWhile_append_stop hlabel, dropWhile_append_stop hlabel, if_neg hne, hend]
  cases cut? kind.closer inner <;> rfl

theorem read?_append {d : Directive} (hne : d.label ≠ []) (hlabel : '}' ∉ d.label)
    (hbody : Avoids kind.closer d.body) (after : Text) :
    read? kind (d.written kind ++ after) = some (d, after) := by
  have hread := @read?_opened kind d.label hne hlabel (d.body ++ kind.closer ++ after)
  rw [cut?_append hbody] at hread
  simpa [written] using hread

theorem find?_of_avoids {s : Text} (h : Avoids kind.opener s) : find? kind s = none := by
  induction s with
  | nil => rfl
  | cons c cs ih =>
    obtain ⟨hhead, htail⟩ := avoids_cons.mp h
    have hread : read? kind (c :: cs) = none := read?_eq_none (by simpa using hhead [])
    rw [find?, hread, ih htail]
    rfl

theorem find?_append {before : Text} {d : Directive} (hbefore : Avoids kind.opener before)
    (hne : d.label ≠ []) (hlabel : '}' ∉ d.label) (hbody : Avoids kind.closer d.body)
    (after : Text) :
    find? kind (before ++ d.written kind ++ after) = some ⟨before, d, after⟩ := by
  have hread := read?_append hne hlabel hbody after
  induction before with
  | nil =>
    rw [List.nil_append]
    cases hs : d.written kind ++ after with
    | nil =>
      rw [hs] at hread
      have hlen := congrArg List.length hs
      rw [List.length_append, length_written, List.length_nil] at hlen
      omega
    | cons c cs => rw [find?, ← hs, hread]
  | cons c cs ih =>
    obtain ⟨hhead, htail⟩ := avoids_cons.mp hbefore
    have hnone : read? kind (c :: (cs ++ d.written kind ++ after)) = none :=
      read?_eq_none (by simpa using hhead (d.written kind ++ after))
    rw [List.cons_append, List.cons_append, find?, hnone, ih htail]
    rfl

end Directive

namespace Placeholder

/-! ## Placeholders -/

theorem scan_eq_scan_drop (skip : Nat) (s : Text) : scan skip s = scan 0 (s.drop skip) := by
  induction s generalizing skip with
  | nil => simp [scan]
  | cons c cs ih =>
    cases skip with
    | zero => rfl
    | succ k => simpa [scan] using ih k

theorem scan_append {a : Text} (h : '[' ∉ a) (b : Text) : scan 0 (a ++ b) = scan 0 b := by
  induction a with
  | nil => rfl
  | cons c cs ih =>
    obtain ⟨hc, hcs⟩ := not_or.mp fun e => h (List.mem_cons.mpr e)
    have hne : ¬ c = '[' := fun e => hc e.symm
    simpa [scan, hne] using ih hcs

theorem scan_written_append {name : Text} (hne : name ≠ []) (h : ']' ∉ name) (b : Text) :
    scan 0 (written name ++ b) = name :: scan 0 b := by
  have hlt : name.length < (name ++ ']' :: b).length := by simp
  have hs : written name ++ b = '[' :: (name ++ ']' :: b) := by simp [written]
  rw [hs, scan]
  simp only [Text.takeWhile_append_stop h]
  rw [if_pos ⟨trivial, hne, hlt⟩, scan_eq_scan_drop]
  simp

/-! ## Distinct names -/

theorem foldl_note_eq (found known : List Text) :
    found.foldl note known =
      known ++ (found.filter fun name => decide (name ∉ known)).eraseDups := by
  induction found generalizing known with
  | nil => simp
  | cons name found ih =>
    rw [List.foldl_cons, ih]
    by_cases h : name ∈ known
    · simp [note, h]
    · have hfilter : found.filter (fun n => decide (n ∉ known ++ [name])) =
          (found.filter fun n => decide (n ∉ known)).filter fun n => !n == name := by
        rw [List.filter_filter]
        congr 1
        funext n
        by_cases hk : n ∈ known <;> by_cases hn : n = name <;> simp [hk, hn]
      rw [note, if_neg h, List.filter_cons_of_pos (by simpa using h), List.eraseDups_cons, hfilter]
      simp

theorem foldl_note_nil (found : List Text) : found.foldl note [] = found.eraseDups := by
  rw [foldl_note_eq]
  simp

theorem head?_eraseDups (ns : List Text) : ns.eraseDups.head? = ns.head? := by
  cases ns with
  | nil => rfl
  | cons n ns => rw [List.eraseDups_cons, List.head?_cons, List.head?_cons]

theorem names_eq_eraseDups (s : Text) : names s = (scan 0 s).eraseDups := foldl_note_nil _

end Placeholder

end NoteTemplate
