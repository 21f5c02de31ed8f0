import NoteTemplate.FileError
import NoteTemplate.Interview
import NoteTemplate.Log
import NoteTemplate.Text.LineBreak

/-!
# What the program needs from outside

A host reads and writes files, and shows texts and log records to the user. The program is
written against it, so that it runs on a machine and also on a described world.
-/

namespace NoteTemplate.CommandLine

/-- The operations of a host. -/
class Host (m : Type → Type) where
  readFile : (path : Text) → m (Except FileError Text)
  /-- all that comes in on the standard input -/
  readInput : m (Except FileError Text)
  /-- makes a directory in one that is there -/
  makeDirectory : (path : Text) → m (Except FileError Unit)
  isDirectory : (path : Text) → m Bool
  /-- gives a file new content, or makes it -/
  writeFile : (path content : Text) → m (Except FileError Unit)
  /-- shows a text on the standard output -/
  print : Text → m Unit
  /-- shows a text on the standard error -/
  complain : Text → m Unit
  /-- puts a record into the log -/
  log : Log.Record → m Unit
  /-- who answers questions, typing texts in an editor or not -/
  respondent : (editor : Bool) → m Respondent

/-- Why a question cannot be asked where there is no terminal. -/
def notTerminal : PromptFailure := .device "not a terminal"

/-- Why there is no editor. -/
def noEditor : PromptFailure := .device FileError.notFound.message

/-- What an editor leaves in its file, as a reply. Nothing else than a text can be replied. -/
def editedReply (content : Except FileError Text) : Reply where
  choice := .error notTerminal
  text :=
    match content with
    | .error e => .error (.device e.message)
    | .ok s => .ok (Text.dropFinalBreak (Text.dropFinalBreaks s))

/-- A user without a terminal, who replies with the listed texts, and then with `last`. -/
def silentUser (edited : List (Except FileError Text)) (last : Except PromptFailure Text) :
    Respondent :=
  ⟨edited.map editedReply, fun _ => notTerminal, fun _ => last⟩

end NoteTemplate.CommandLine
