import NoteTemplate.CommandLine.Run
import NoteTemplate.FileTree

/-!
# A world for the program

A world is all that a run can see and change: files, the standard input, what an editor would
leave, and the output so far. There is no terminal in it.

* `World.start`: the exit code of a run and the world it leaves.
-/

namespace NoteTemplate.CommandLine

/-- What a run can see and change. -/
structure World where
  files : FileTree
  input : List UInt8
  /-- what the editor leaves each time it opens, if there is one; past the end of the list the
  file stays empty -/
  editor : Option (List (List UInt8))
  output : Text
  errors : Text
  log : List Log.Record

namespace World

/-- Nothing has been shown yet. -/
def ofFiles (files : FileTree) (input : List UInt8) (editor : Option (List (List UInt8))) :
    World :=
  ⟨files, input, editor, [], [], []⟩

/-- Bytes as a text in UTF-8. -/
def decode (bytes : List UInt8) : Except FileError Text :=
  match String.fromUTF8? ⟨bytes.toArray⟩ with
  | some s => .ok s.toList
  | none => .error .notUtf8

/-- A text as bytes in UTF-8. -/
def encode (s : Text) : List UInt8 := s.utf8

/-- Changes the files, unless that fails. -/
def change (f : FileTree → Except FileError FileTree) : StateM World (Except FileError Unit) :=
  fun w =>
    match f w.files with
    | .error e => (.error e, w)
    | .ok files => (.ok (), { w with files })

/-- Who answers questions in a world. -/
def respondent (w : World) (editor : Bool) : Respondent :=
  match editor, w.editor with
  | false, _ => silentUser [] (.error notTerminal)
  | true, none => silentUser [] (.error noEditor)
  | true, some contents => silentUser (contents.map decode) (.ok [])

instance : Host (StateM World) where
  readFile path w := ((w.files.read path).bind decode, w)
  readInput w := (decode w.input, w)
  makeDirectory path := change fun t => t.makeDirectory path
  isDirectory path w := (w.files.isDirectory path, w)
  writeFile path content := change fun t => t.write path (encode content)
  print s w := ((), { w with output := w.output ++ s })
  complain s w := ((), { w with errors := w.errors ++ s })
  log r w :=
    ((), { w with errors := w.errors ++ r.line, log := w.log ++ [r] })
  respondent editor w := (w.respondent editor, w)

/-- Runs the program in a world. -/
def start (w : World) (words : List Text) : UInt32 × World :=
  (CommandLine.start (m := StateM World) words).run w

/-- Runs a part of the program in a world. -/
def perform {α : Type} (w : World) (part : ExceptT Error (StateM World) α) :
    Except Error α × World :=
  part.run w

end World

end NoteTemplate.CommandLine
