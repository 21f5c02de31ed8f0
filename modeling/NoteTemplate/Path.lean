import NoteTemplate.Text.Basic

/-!
# Paths

A path is a text. Slashes divide it into names.

* `Path.names`: all names, the empty ones included.
* `Path.parents`: the directories on the way to a file, the innermost first.
-/

namespace NoteTemplate.Path

/-- The parts between slashes, of which there is always one more than slashes. -/
def names (path : Text) : List Text := path.splitOn '/'

/-- The names that lead somewhere: neither empty nor a single dot. -/
def steps (path : Text) : List Text := (names path).filter fun n => n ≠ [] && n ≠ ['.']

/-- Whether a path begins at the root. -/
def isAbsolute (path : Text) : Bool := path.head? = some '/'

/-- Whether a path ends with a slash. -/
def endsWithSlash (path : Text) : Bool := path.getLast? = some '/'

/-- The path made of the given names, the last of which comes first. -/
def ofReversed (absolute : Bool) (reversed : List Text) : Text :=
  (if absolute then ['/'] else []) ++ ['/'].intercalate reversed.reverse

/-- The paths that result when names are taken away, one after the other. -/
def shortened (absolute : Bool) : (reversed : List Text) → List Text
  | [] => if absolute then [['/']] else []
  | n :: ns => ofReversed absolute (n :: ns) :: shortened absolute ns

/-- The directories on the way to a file, the innermost first. -/
def parents (path : Text) : List Text :=
  match (steps path).reverse with
  | [] => []
  | _ :: ns => shortened (isAbsolute path) ns

end NoteTemplate.Path
