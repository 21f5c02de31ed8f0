import Mathlib.Data.List.Basic
import NoteTemplate.FileTree

/-!
# What operations do to files

* `FileTree.file?_makeDirectory`: a new directory changes no file.
* `FileTree.OnlyWritten`, `FileTree.onlyWritten_write`: a write gives the file at its path new
  bytes and changes no other file.
-/

namespace NoteTemplate

/-! ## Names of a path -/

namespace Path

theorem names_ne_nil (path : Text) : names path ≠ [] := List.splitOn_ne_nil '/' path

theorem names_cons (c : Char) (cs : Text) :
    names (c :: cs) =
      if c = '/' then [] :: names cs else (names cs).modifyHead (List.cons c) := by
  simp only [names, List.splitOn_cons_eq_if_modifyHead, beq_iff_eq]

/-- Only a slash at the end makes the last name empty. -/
theorem getLast?_names {path : Text} (hne : path ≠ []) (hslash : endsWithSlash path = false) :
    (names path).getLast? ≠ some [] := by
  induction path with
  | nil => exact absurd rfl hne
  | cons c cs ih =>
    have hrest : cs ≠ [] → (names cs).getLast? ≠ some [] := by
      intro hcs
      obtain ⟨d, ds, rfl⟩ := List.exists_cons_of_ne_nil hcs
      refine ih hcs ?_
      rwa [endsWithSlash, List.getLast?_cons_cons] at hslash
    rw [names_cons]
    split
    · rename_i hc
      have hcs : cs ≠ [] := by
        rintro rfl
        simp [endsWithSlash, hc] at hslash
      obtain ⟨n, ns, hnames⟩ := List.exists_cons_of_ne_nil (names_ne_nil cs)
      rw [hnames, List.getLast?_cons_cons, ← hnames]
      exact hrest hcs
    · cases hnames : names cs with
      | nil => exact absurd hnames (names_ne_nil cs)
      | cons n ns =>
        cases ns with
        | nil => simp
        | cons m ms =>
          have hcs : cs ≠ [] := by
            rintro rfl
            simp [names] at hnames
          have hlast := hrest hcs
          rw [hnames, List.getLast?_cons_cons] at hlast
          rwa [List.modifyHead_cons, List.getLast?_cons_cons]

end Path

namespace FileTree

variable {t t' : FileTree} {path : Text}

/-! ## Entries -/

/-- The bytes of the file at a place. -/
def file? (t : FileTree) (place : List Text) : Option (List UInt8) :=
  match t.entry? place with
  | some (.file bytes) => some bytes
  | _ => none

theorem not_isAbove {place : List Text} (h : t.entry? place ≠ some .directory) :
    ¬ isAbove place = true := by
  intro habove
  exact h (by rw [ entry?, if_pos habove])

theorem entry?_insert {place : List Text} (h : ¬ isAbove place = true) (entry : FileEntry)
    (other : List Text) :
    entry? (t.insert place entry) other =
      if place = other then some entry else t.entry? other := by
  rw [ entry?, entry?, insert, OrderedMap.find?_insert]
  by_cases hother : place = other
  · subst hother
    rw [if_neg h, if_pos rfl, if_pos rfl]
  · rw [if_neg hother, if_neg hother]

theorem file?_insert_of_ne {place : List Text} (h : ¬ isAbove place = true) (entry : FileEntry)
    {other : List Text} (hother : other ≠ place) :
    (t.insert place entry).file? other = t.file? other := by
  rw [file?, file?, entry?_insert h, if_neg (Ne.symm hother)]

/-! ## Paths -/

/-- Whatever is a directory in one tree is a directory in the other. -/
def DirectoriesIn (t t' : FileTree) : Prop :=
  ∀ place, t.entry? place = some .directory → entry? t' place = some .directory

theorem step_of_directoriesIn (h : t.DirectoriesIn t') {place place' : List Text} {name : Text}
    (hstep : t.step place name = .ok place') : t'.step place name = .ok place' := by
  rw [step] at hstep
  split at hstep
  · cases hstep
  · cases hstep
  · rename_i hdirectory
    rw [step, h place hdirectory]
    exact hstep

theorem foldlM_step_of_directoriesIn (h : t.DirectoriesIn t') {names : List Text}
    {place place' : List Text} (hsteps : names.foldlM t.step place = .ok place') :
    names.foldlM t'.step place = .ok place' := by
  induction names generalizing place with
  | nil => exact hsteps
  | cons name names ih =>
    rw [List.foldlM_cons] at hsteps ⊢
    cases hstep : t.step place name with
    | error e =>
      rw [hstep] at hsteps
      cases hsteps
    | ok next =>
      rw [hstep] at hsteps
      rw [step_of_directoriesIn h hstep]
      exact ih hsteps

/-- A path leads to the same place as long as the directories on the way are there. -/
theorem place_of_directoriesIn (h : t.DirectoriesIn t') {place : List Text}
    (hplace : t.place path = .ok place) : t'.place path = .ok place := by
  rw [FileTree.place, follow] at hplace ⊢
  split at hplace
  · cases hplace
  split at hplace
  · cases hplace
  split at hplace
  · cases hplace
  rename_i hnul hempty hlong
  rw [if_neg hnul, if_neg hempty, if_neg hlong]
  exact foldlM_step_of_directoriesIn h hplace

/-- Without a slash at the end of its path, a new entry has the place to which the path leads. -/
theorem newPlace_eq_place (h : Path.endsWithSlash path = false) :
    t.newPlace path = t.place path := by
  by_cases hne : path = []
  · rw [newPlace, FileTree.place, follow, follow, hne]
    simp
  · have hlast := Path.getLast?_names hne h
    have hnames : ((Path.names path).reverse.dropWhile fun n => decide (n = [])) =
        (Path.names path).reverse := by
      rw [← List.head?_reverse] at hlast
      cases hreverse : (Path.names path).reverse with
      | nil => rfl
      | cons n ns =>
        rw [hreverse, List.head?_cons] at hlast
        refine List.dropWhile_cons_of_neg ?_
        simpa using fun hn => hlast (congrArg some hn)
    rw [newPlace, FileTree.place, hnames, List.reverse_reverse]

/-! ## Operations -/

theorem exists_of_bind_ok {ε α β : Type} {x : Except ε α} {f : α → Except ε β} {b : β}
    (h : (x >>= f) = .ok b) : ∃ a, x = .ok a ∧ f a = .ok b := by
  cases x with
  | error e => cases h
  | ok a => exact ⟨a, rfl, h⟩

theorem of_makeDirectory (h : t.makeDirectory path = .ok t') :
    ∃ place, t.entry? place = none ∧ t' = t.insert place .directory := by
  obtain ⟨place, -, h⟩ := exists_of_bind_ok h
  dsimp only at h
  split at h
  · cases h
  · rename_i hnone
    cases h
    exact ⟨place, by simpa using hnone, rfl⟩

theorem of_write {bytes : List UInt8} (h : t.write path bytes = .ok t') :
    ∃ place, t.newPlace path = .ok place ∧ Path.endsWithSlash path = false ∧
      t.entry? place ≠ some .directory ∧ t' = t.insert place (.file bytes) := by
  obtain ⟨place, hplace, h⟩ := exists_of_bind_ok h
  dsimp only at h
  split at h
  · cases h
  · rename_i hfree
    rw [not_or, Bool.not_eq_true] at hfree
    cases h
    exact ⟨place, hplace, hfree.1, hfree.2, rfl⟩

/-- A new directory is made where there was no file. -/
theorem file?_makeDirectory (h : t.makeDirectory path = .ok t') : t'.file? = t.file? := by
  obtain ⟨place, hnone, rfl⟩ := of_makeDirectory h
  have hbelow : ¬ isAbove place = true := not_isAbove (t := t) (by simp [hnone])
  funext other
  by_cases hother : other = place
  · rw [hother, file?, file?, entry?_insert hbelow, if_pos rfl, hnone]
  · exact file?_insert_of_ne hbelow _ hother

theorem read_of_file? {place : List Text} {bytes : List UInt8} (hplace : t.place path = .ok place)
    (hfile : t.file? place = some bytes) : t.read path = .ok bytes := by
  rw [file?] at hfile
  split at hfile
  · rename_i hentry
    cases hfile
    simp only [read, hplace, bind, Except.bind, hentry]
    rfl
  · cases hfile

/-- The file at the path has the bytes, and all other files are as before. -/
structure OnlyWritten (t t' : FileTree) (path : Text) (bytes : List UInt8) : Prop where
  read : t'.read path = .ok bytes
  others : ∃ place, t'.place path = .ok place ∧
    ∀ other, other ≠ place → t'.file? other = t.file? other

theorem onlyWritten_write {bytes : List UInt8} (h : t.write path bytes = .ok t') :
    t.OnlyWritten t' path bytes := by
  obtain ⟨place, hplace, hslash, hfree, rfl⟩ := of_write h
  have hbelow := not_isAbove hfree
  -- The file is put where no directory was, so the path leads to it still.
  have hdirectories : t.DirectoriesIn (t.insert place (.file bytes)) := by
    intro other hother
    have hne : place ≠ other := by
      rintro rfl
      exact hfree hother
    rw [ entry?_insert hbelow, if_neg hne, hother]
  rw [newPlace_eq_place hslash] at hplace
  have hplace' := place_of_directoriesIn hdirectories hplace
  refine ⟨read_of_file? hplace' ?_, place, hplace',
    fun other hother => file?_insert_of_ne hbelow _ hother⟩
  rw [file?, entry?_insert hbelow, if_pos rfl]

end FileTree

end NoteTemplate
