import NoteTemplate.Text.Control

/-!
# Log records

The engine itself is silent. What it would report is listed by functions of its own, beside
the ones that do the work; the command line prints such lists.
-/

namespace NoteTemplate.Log

/-- How grave a record is. -/
inductive Level
  | debug
  | warn
deriving DecidableEq, Repr

/-- The part of the engine a record speaks for. -/
inductive Origin
  | program
  | answers
  | catalog
  | sections
  | blocks
  | interview
  | note
  | rendering
deriving DecidableEq, Repr

/-- One line of the log. -/
structure Record where
  level : Level
  origin : Origin
  message : String
deriving DecidableEq, Repr

def Level.name : Level → String
  | .debug => "DEBUG"
  | .warn => "WARN"

/-- The name an origin has in the log. -/
def Origin.name : Origin → String
  | .program => "notefill"
  | .answers => "notefill::answers"
  | .catalog => "notefill::config"
  | .sections => "notefill::extractor"
  | .blocks => "notefill::parser"
  | .interview => "notefill::prompt"
  | .note => "notefill::processor"
  | .rendering => "notefill::renderer"

/-- The name of a level, filled up to five characters. -/
def Level.column : Level → String
  | .debug => "DEBUG"
  | .warn => "WARN "

/-- A record as it is printed, with the line break behind it. The lines behind the first one
are indented, and what is not shown is left out. -/
def Record.line (r : Record) : Text :=
  let indent := fun c => if c = '\n' then ['\n', ' ', ' ', ' ', ' '] else [c]
  let head := "[" ++ r.level.column ++ " " ++ r.origin.name ++ "] "
  Text.shown (head.toList ++ r.message.toList.flatMap indent ++ ['\n'])

/-- Whether a record is printed: warnings always are. -/
def Record.shown (verbose : Bool) (r : Record) : Bool := verbose || r.level = .warn

def debug (origin : Origin) (message : String) : Record := ⟨.debug, origin, message⟩

def warn (origin : Origin) (message : String) : Record := ⟨.warn, origin, message⟩

end NoteTemplate.Log
