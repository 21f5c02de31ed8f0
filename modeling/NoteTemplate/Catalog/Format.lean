import NoteTemplate.Catalog.Json
import NoteTemplate.Catalog.Yaml

/-!
# Reading catalogs

A catalog is written in JSON or in YAML. A text that is no catalog in JSON is taken for YAML.
-/

namespace NoteTemplate.Catalog

/-- The catalog in a text. -/
def ofText (s : Text) : Except Error Catalog :=
  match ofJson s with
  | .ok c => .ok c
  | .error _ =>
    match ofYaml s with
    | .ok c => .ok c
    | .error fault => .error (.configuration ("Invalid catalog format: " ++ fault.message))

end NoteTemplate.Catalog
