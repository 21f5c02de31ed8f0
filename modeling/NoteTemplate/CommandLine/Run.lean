import NoteTemplate.Answers.Json
import NoteTemplate.Catalog.Builtin
import NoteTemplate.Catalog.Format
import NoteTemplate.CommandLine.Arguments
import NoteTemplate.CommandLine.Help
import NoteTemplate.CommandLine.Host
import NoteTemplate.Note
import NoteTemplate.Path

/-!
# Running the program

A run loads the catalog and lists it, or finds a template, gets the answers, fills the
template, and writes the note. The first error ends it.

* `loadCatalog`, `fullCatalog`: the catalog in a file, and the one with the built-in templates.
* `loadAnswers`: the answers of a source.
* `run`: what the arguments ask for.
* `start`: the whole program. It returns the exit code.
-/

namespace NoteTemplate.CommandLine

variable {m : Type → Type} [Monad m] [Host m]

/-- Logs the records that are to be seen. -/
def report (verbose : Bool) (records : List Log.Record) : ExceptT Error m Unit :=
  (records.filter (·.shown verbose)).forM fun r => (Host.log r : m Unit)

/-- The text of a file. -/
def readFile (path : Text) : ExceptT Error m Text := do
  match ← (Host.readFile path : m _) with
  | .ok s => return s
  | .error e => throw (.io e.message)

/-! ## Catalogs -/

/-- The catalog in a file. -/
def loadCatalog (verbose : Bool) (path : Text) : ExceptT Error m Catalog := do
  report verbose [Log.debug .catalog ("Loading catalog from " ++ String.ofList path)]
  let content ← readFile path
  Catalog.ofText content

/-- The built-in templates, with those of a file merged over them. -/
def fullCatalog (verbose : Bool) (path : Option Text) : ExceptT Error m Catalog := do
  match path with
  | none => return .builtin
  | some path =>
    let c ← loadCatalog verbose path
    report verbose (Catalog.mergeReport c)
    return Catalog.builtin.merge c

/-! ## Answers -/

/-- The answers in a text. -/
def readAnswers (verbose : Bool) (content : Text) : ExceptT Error m Answers := do
  report verbose (Answers.report content)
  match Answers.ofText content with
  | .ok a => return a
  | .error e => throw (.answers e.message)

/-- The answers of a source, if it has any. -/
def loadAnswers (verbose : Bool) (source : AnswerSource) : ExceptT Error m (Option Answers) := do
  match source with
  | .interview => return none
  | .input =>
    match ← (Host.readInput : m _) with
    | .error e => throw (.io e.message)
    | .ok content => some <$> readAnswers verbose content
  | .file path =>
    report verbose [Log.debug .answers ("Loading answers from " ++ String.ofList path)]
    some <$> readAnswers verbose (← readFile path)

/-- Shows what happens in an interview. Questions are seen only when an editor opens. -/
def showEvent (verbose editor : Bool) (event : Interview.Event) : ExceptT Error m Unit :=
  match event with
  | .logged r => report verbose [r]
  | .asked (.text prompt) =>
    if editor then (Host.complain (prompt ++ " (opening editor)\n".toList) : m Unit)
    else pure ()
  | .asked (.confirm ..) => pure ()

/-- The answers that the user gives. -/
def interview (verbose editor : Bool) (source : Text) : ExceptT Error m Answers := do
  report verbose (Document.report source)
  let respondent ← (Host.respondent editor : m _)
  let course := Interview.collect respondent (Document.parse source)
  course.events.forM (showEvent verbose editor)
  match course.answers with
  | .ok a => return a
  | .error f => throw (.prompt f.message)

/-! ## Output -/

/-- Makes the directories that are missing. Each lies in the one that follows it in the
list. -/
def makeDirectories : (paths : List Text) → ExceptT Error m Unit
  | [] => pure ()
  | path :: outer => do
    match ← (Host.makeDirectory path : m _) with
    | .ok () => return
    | .error .notFound =>
      makeDirectories outer
      match ← (Host.makeDirectory path : m _) with
      | .ok () => return
      | .error e => unless ← (Host.isDirectory path : m _) do throw (.io e.message)
    | .error e => unless ← (Host.isDirectory path : m _) do throw (.io e.message)

/-- Writes a file, and before it the directories on the way. -/
def writeFile (path content : Text) : ExceptT Error m Unit := do
  makeDirectories (Path.parents path)
  match ← (Host.writeFile path content : m _) with
  | .ok () => return
  | .error e => throw (.output (String.ofList path ++ ": " ++ e.message))

/-- Shows a note, or writes its body to a file. -/
def deliver (verbose : Bool) (output : Option Text) (note : Note) : ExceptT Error m Unit := do
  if let some start := note.subjectPrefix then
    Host.complain (m := m) ("Subject prefix: ".toList ++ start ++ ['\n'])
  match output with
  | none => Host.print (m := m) (note.body ++ ['\n'])
  | some path =>
    writeFile path note.body
    report verbose [Log.debug .program ("Output written to " ++ String.ofList path)]

/-! ## Runs -/

/-- The keys and names of a catalog, a line for each template. -/
def listing (c : Catalog) : Text :=
  c.entries.entries.flatMap fun (key, entry) => key ++ ['\t'] ++ entry.name ++ ['\n']

/-- Does what the arguments ask for. -/
def run (a : Arguments) : ExceptT Error m Unit := do
  let verbose := a.has .verbose
  let catalog ← fullCatalog verbose (a.file? .catalog)
  if a.has .list then
    Host.print (m := m) (listing catalog)
    return
  let entry ← catalog.get (a.template.getD [])
  let answers ← match ← loadAnswers verbose a.answerSource with
    | some answers => pure answers
    | none => interview verbose (a.has .editor) entry.source
  let values := answers.toValues
  report verbose (entry.fillReport values)
  deliver verbose (a.file? .output) (entry.fill values)

/-- Answers a command line that asks for nothing to run. -/
def refuse (r : Refusal) : m UInt32 := do
  match r with
  | .helpWanted => Host.print helpText.toList; return 0
  | .versionWanted => Host.print versionText.toList; return 0
  | .missingTemplate => Host.print helpText.toList; return 1
  | r =>
    Host.complain (("error: " ++ r.message?.getD "" ++ "\n").toList)
    return 2

/-- The whole program, from the words of the command line to the exit code. -/
def start (words : List Text) : m UInt32 := do
  match Arguments.parse words with
  | .error r => refuse r
  | .ok a =>
    match ← (run a).run with
    | .ok () => return 0
    | .error e =>
      Host.complain ((e.message ++ "\n").toList)
      return 1

end NoteTemplate.CommandLine
