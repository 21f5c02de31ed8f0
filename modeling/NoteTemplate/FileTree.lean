import NoteTemplate.FileError
import NoteTemplate.OrderedMap
import NoteTemplate.Path

/-!
# Trees of files

The files and directories around a working directory. Of what is outside of it only the
directories on the way up to the root are there from the beginning.

* `FileTree.read`, `FileTree.write`: the bytes of a file.
* `FileTree.makeDirectory`: a new directory in one that is there.
-/

namespace NoteTemplate

/-- What a name stands for. -/
inductive FileEntry
  | file (bytes : List UInt8)
  | directory
deriving DecidableEq, Repr

/-- Files and directories by their places. A place is the list of names that lead there from
the working directory, or a slash and the names that lead there from the root. -/
structure FileTree where
  entries : OrderedMap (List Text) FileEntry
deriving DecidableEq

namespace FileTree

def empty : FileTree := ⟨∅⟩

/-- The name of the directory around a directory. -/
def up : Text := ['.', '.']

/-- The place of the root. -/
def root : List Text := [['/']]

/-- The working directory and what is on the way up from it. -/
def isAbove (place : List Text) : Bool := place = root || place.all (· = up)

/-- What is at a place. -/
def entry? (t : FileTree) (place : List Text) : Option FileEntry :=
  if isAbove place then some .directory else t.entries.find? place

/-- Puts an entry at a place. -/
def insert (t : FileTree) (place : List Text) (entry : FileEntry) : FileTree :=
  ⟨t.entries.insert place entry⟩

/-! ## Following paths -/

/-- The longest name, in bytes. -/
def maxName : Nat := 255

/-- The longest path, in bytes. -/
def maxPath : Nat := 4095

/-- Follows one name from a place, which has to be a directory. -/
def step (t : FileTree) (place : List Text) (name : Text) : Except FileError (List Text) :=
  match t.entry? place with
  | none => .error .notFound
  | some (.file _) => .error .notDirectory
  | some .directory =>
    if name = [] ∨ name = ['.'] then .ok place
    else if name = up then
      if place = root then .ok root
      else .ok (if isAbove place then place ++ [up] else place.dropLast)
    else if maxName < name.byteSize then .error .nameTooLong
    else .ok (place ++ [name])

/-- The place to which a path leads by way of the given names. Nothing need be there. -/
def follow (t : FileTree) (path : Text) (names : List Text) : Except FileError (List Text) :=
  if '\x00' ∈ path then .error .nulInName
  else if path = [] then .error .notFound
  else if maxPath < path.byteSize then .error .nameTooLong
  else names.foldlM t.step (if Path.isAbsolute path then root else [])

/-- The place to which a path leads. What comes before a slash has to be a directory. -/
def place (t : FileTree) (path : Text) : Except FileError (List Text) :=
  t.follow path (Path.names path)

/-- The place of an entry that is to be made. Slashes at the end of its path do not count. -/
def newPlace (t : FileTree) (path : Text) : Except FileError (List Text) :=
  t.follow path ((Path.names path).reverse.dropWhile (· = [])).reverse

/-! ## Operations -/

def isDirectory (t : FileTree) (path : Text) : Bool :=
  match t.place path with
  | .ok place => t.entry? place = some .directory
  | .error _ => false

/-- The bytes of a file. -/
def read (t : FileTree) (path : Text) : Except FileError (List UInt8) := do
  match t.entry? (← t.place path) with
  | none => throw .notFound
  | some .directory => throw .isDirectory
  | some (.file bytes) => return bytes

/-- Gives a file new bytes, or makes it. -/
def write (t : FileTree) (path : Text) (bytes : List UInt8) : Except FileError FileTree := do
  let place ← t.newPlace path
  if Path.endsWithSlash path ∨ t.entry? place = some .directory then throw .isDirectory
  return t.insert place (.file bytes)

/-- Makes a directory in a directory. -/
def makeDirectory (t : FileTree) (path : Text) : Except FileError FileTree := do
  let place ← t.newPlace path
  if (t.entry? place).isSome then throw .alreadyExists
  return t.insert place .directory

/-- Whether a place is below the working directory. -/
def isInside (place : List Text) : Bool :=
  match place with
  | [] => false
  | name :: _ => name ≠ up && name ≠ ['/']

/-- The files below the working directory, each with its path, whose bytes are not the same in
an earlier tree. -/
def changedSince (t earlier : FileTree) : List (Text × List UInt8) :=
  t.entries.entries.filterMap fun (place, entry) =>
    match entry with
    | .directory => none
    | .file bytes =>
      if !isInside place || earlier.entry? place = some entry then none
      else some (['/'].intercalate place, bytes)

end FileTree

end NoteTemplate
