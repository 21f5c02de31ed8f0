import NoteTemplate.Answers.Source
import NoteTemplate.Text.Control

/-!
# Arguments

What the user asks for on the command line: flags, options with a value, and the key of a
template.

The value of an option is looked at only when the next argument that is known comes, or when
the arguments end. So an unknown argument is reported in preference to a bad value before it.

* `Arguments.parse`: the arguments, or why there is nothing to run.
-/

namespace NoteTemplate.CommandLine

/-- A switch. -/
inductive Flag
  | input
  | editor
  | list
  | verbose
deriving DecidableEq, Repr

/-- An option with a file as its value. -/
inductive FileOption
  | catalog
  | answers
  | output
deriving DecidableEq, Repr

/-- What a name with hyphens stands for. -/
inductive Switch
  | flag (f : Flag)
  | file (o : FileOption)
  | help
  | version
deriving DecidableEq, Repr

def Flag.name : Flag → String
  | input => "stdin"
  | editor => "editor"
  | list => "list"
  | verbose => "verbose"

def FileOption.name : FileOption → String
  | catalog => "catalog"
  | answers => "answers"
  | output => "output"

namespace Switch

def name : Switch → String
  | flag f => f.name
  | file o => o.name
  | help => "help"
  | version => "version"

/-- The switch with a short name. -/
def ofLetter? (c : Char) : Option Switch :=
  match c with
  | 'c' => some (file .catalog)
  | 'a' => some (file .answers)
  | 'o' => some (file .output)
  | 's' => some (flag .input)
  | 'e' => some (flag .editor)
  | 'l' => some (flag .list)
  | 'v' => some (flag .verbose)
  | 'h' => some help
  | 'V' => some version
  | _ => none

def all : List Switch :=
  [file .catalog, file .answers, flag .input, flag .editor, file .output, flag .list,
    flag .verbose, help, version]

/-- The switch with a long name. -/
def ofName? (name : Text) : Option Switch := all.find? fun s => s.name.toList = name

/-- A switch as messages speak of it. -/
def shown : Switch → String
  | file o => "--" ++ o.name ++ " <FILE>"
  | s => "--" ++ s.name

end Switch

/-- What a run is asked to do. -/
structure Arguments where
  /-- the key of a template -/
  template : Option Text
  file? : FileOption → Option Text
  has : Flag → Bool

namespace Arguments

def empty : Arguments := ⟨none, fun _ => none, fun _ => false⟩

def setFile (a : Arguments) (o : FileOption) (path : Text) : Arguments :=
  { a with file? := fun p => if p = o then some path else a.file? p }

def setFlag (a : Arguments) (f : Flag) : Arguments :=
  { a with has := fun g => g = f || a.has g }

/-- Where the answers come from. -/
def answerSource (a : Arguments) : AnswerSource :=
  .choose (a.has .input) (a.file? .answers)

end Arguments

/-- Why there is nothing to run. -/
inductive Refusal
  | helpWanted
  | versionWanted
  | missingTemplate
  | unknown (argument : Text)
  | missingValue (o : FileOption)
  | repeated (s : Switch)
  | unwantedValue (s : Switch) (value : Text)
deriving DecidableEq, Repr

/-- The error message, if the refusal is one. What the user wrote is quoted as it is shown. -/
def Refusal.message? : Refusal → Option String
  | helpWanted | versionWanted | missingTemplate => none
  | unknown argument =>
    some ("unexpected argument '" ++ String.ofList (Text.shown argument) ++ "' found")
  | missingValue o =>
    some ("a value is required for '" ++ (Switch.file o).shown ++ "' but none was supplied")
  | repeated s => some ("the argument '" ++ s.shown ++ "' cannot be used multiple times")
  | unwantedValue s value =>
    some ("unexpected value '" ++ String.ofList (Text.shown value) ++ "' for '" ++ s.shown ++
      "' found; no more were expected")

/-- The arguments up to some place. -/
structure Progress where
  arguments : Arguments
  /-- an option whose value, if it has come already, is not looked at yet -/
  pending : Option (FileOption × Option Text)
  /-- names with hyphens are not switches any more -/
  switchesEnded : Bool

namespace Progress

def start : Progress := ⟨.empty, none, false⟩

/-- Gives an option its value. -/
def assign (a : Arguments) (o : FileOption) (value : Text) : Except Refusal Arguments :=
  if (a.file? o).isSome then .error (.repeated (.file o))
  else if value = [] then .error (.missingValue o)
  else .ok (a.setFile o value)

/-- Looks at the value of the option that is pending. -/
def settle (p : Progress) : Except Refusal Progress :=
  match p.pending with
  | none => .ok p
  | some (o, none) => .error (.missingValue o)
  | some (o, some value) =>
    (assign p.arguments o value).map fun a => { p with arguments := a, pending := none }

/-- Follows a switch that needs no value. -/
def follow (p : Progress) (s : Switch) : Except Refusal Progress := do
  let p ← p.settle
  match s with
  | .flag f =>
    if p.arguments.has f then throw (.repeated s)
    return { p with arguments := p.arguments.setFlag f }
  | .file o => return { p with pending := some (o, none) }
  | .help => throw .helpWanted
  | .version => throw .versionWanted

/-- Follows an option with the value that is written beside it. -/
def followWith (p : Progress) (o : FileOption) (value : Text) : Except Refusal Progress := do
  let p ← p.settle
  return { p with arguments := ← assign p.arguments o value }

/-- A long name, perhaps with a value behind an equals sign. -/
def readLong (p : Progress) (s : Text) : Except Refusal Progress :=
  let name := s.takeWhile (· ≠ '=')
  match Switch.ofName? name, s.dropWhile (· ≠ '=') with
  | none, _ => .error (.unknown (['-', '-'] ++ name))
  | some switch, [] => p.follow switch
  | some (.file o), _ :: value => p.followWith o value
  | some switch, _ :: value => .error (.unwantedValue switch value)

/-- Short names, and perhaps the value of the last one. -/
def readShort (p : Progress) : Text → Except Refusal Progress
  | [] => .ok p
  | c :: cs =>
    match Switch.ofLetter? c, cs with
    | none, _ => .error (.unknown ['-', c])
    | some (.file o), '=' :: value => p.followWith o value
    | some (.file o), _ :: _ => p.followWith o cs
    | some switch, _ =>
      match p.follow switch with
      | .error r => .error r
      | .ok p => readShort p cs

/-- A key, of which there is only one. -/
def readKey (p : Progress) (s : Text) : Except Refusal Progress :=
  if p.arguments.template.isSome then .error (.unknown s)
  else p.settle.map fun p => { p with arguments := { p.arguments with template := some s } }

/-- One argument. -/
def read (p : Progress) (s : Text) : Except Refusal Progress :=
  if p.switchesEnded then p.readKey s
  else
    match s with
    | ['-', '-'] => .ok { p with switchesEnded := true }
    | '-' :: '-' :: cs => p.readLong cs
    | '-' :: c :: cs => p.readShort (c :: cs)
    | _ =>
      match p.pending with
      | some (o, none) => .ok { p with pending := some (o, some s) }
      | _ => p.readKey s

end Progress

/-- The arguments of a command line. A key is needed unless the templates are to be listed. -/
def Arguments.parse (words : List Text) : Except Refusal Arguments := do
  let p ← words.foldlM Progress.read Progress.start
  let p ← p.settle
  if p.arguments.template.isNone ∧ !p.arguments.has .list then throw .missingTemplate
  return p.arguments

end NoteTemplate.CommandLine
