import NoteTemplate.CommandLine.Run
import NoteTemplate.CommandLine.World

/-!
# The program

The host that the program has on a machine. It never asks questions on a terminal and has no
editor to open.
-/

namespace NoteTemplate.CommandLine

/-- An error of the machine as an error of the file system. -/
def fileError : IO.Error → FileError
  | .noFileOrDirectory .. => .notFound
  | .alreadyExists .. => .alreadyExists
  | .inappropriateType _ 21 _ => .isDirectory
  | .inappropriateType .. => .notDirectory
  | e => .other (toString e)

/-- Does something that can fail. -/
def attempt {α : Type} (action : IO α) : IO (Except FileError α) :=
  try .ok <$> action catch e => return .error (fileError e)

/-- A text as a string. -/
def asString (s : Text) : String := String.ofList s

instance : Host IO where
  readFile path := do
    match ← attempt (IO.FS.readBinFile (asString path)) with
    | .error e => return .error e
    | .ok bytes => return World.decode bytes.toList
  readInput := do
    match ← attempt (do (← IO.getStdin).readBinToEnd) with
    | .error e => return .error e
    | .ok bytes => return World.decode bytes.toList
  makeDirectory path := attempt (IO.FS.createDir (asString path))
  isDirectory path := do return ← ((← IO.currentDir) / asString path).isDir
  writeFile path content := attempt (IO.FS.writeFile (asString path) (asString content))
  print s := IO.print (asString s)
  complain s := IO.eprint (asString s)
  log r := IO.eprint (asString r.line)
  respondent editor :=
    return silentUser [] (.error (if editor then noEditor else notTerminal))

end NoteTemplate.CommandLine

def main (words : List String) : IO UInt32 :=
  NoteTemplate.CommandLine.start (words.map String.toList)
