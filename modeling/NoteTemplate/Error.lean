import NoteTemplate.Text.Basic

/-!
# Errors

Parsing and rendering a template never fails. What can fail is all around it: files, catalogs,
documents of answers, interviews and the output. Each error says which of these it was.
-/

namespace NoteTemplate

/-- An error that ends a run of the program. -/
inductive Error
  | io (reason : String)
  | configuration (reason : String)
  | templateNotFound (key : Text)
  | answers (reason : String)
  | prompt (reason : String)
  | output (reason : String)
deriving DecidableEq, Repr

def Error.message : Error → String
  | io reason => "IO error: " ++ reason ++ "."
  | configuration reason => "Configuration error: " ++ reason ++ "."
  | templateNotFound key =>
    "Template '" ++ String.ofList key ++ "' was not found in the catalog."
  | answers reason => "Answers error: " ++ reason ++ "."
  | prompt reason => "Prompt error: " ++ reason ++ "."
  | output reason => "Output error: " ++ reason ++ "."

end NoteTemplate
