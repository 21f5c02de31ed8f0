import NoteTemplate.Catalog.Field
import NoteTemplate.Json.Printer
import NoteTemplate.Json.Reader

/-!
# Catalogs in JSON

* `Catalog.ofJson`: reads a catalog. An entry is an object, or an array of its three fields.
* `Catalog.toJson`: the catalog as a JSON value.
-/

namespace NoteTemplate

/-- The three fields of an entry as a JSON object. -/
def TemplateEntry.toJson (e : TemplateEntry) : Json.Value :=
  .object [("name".toList, .string e.name),
    ("subject_prefix".toList, (e.subjectPrefix.map .string).getD .null),
    ("source".toList, .string e.source)]

namespace Catalog

open Json (Read skipSpace)

/-! ## Reading -/

/-- A string. -/
def readString : Read Text := fun s =>
  match skipSpace s with
  | '"' :: cs => Json.Quoted.read true cs
  | rest => .error ⟨.otherKind, rest, 0⟩

/-- A string or null. -/
def readOptional : Read (Option Text) := fun s =>
  match skipSpace s with
  | 'n' :: cs => (Json.readWord ['u', 'l', 'l'] cs).map fun rest => (none, rest)
  | cs => (readString cs).map fun (t, rest) => (some t, rest)

/-- The value of a field. -/
def readField (name : Text) : Read Field := fun s =>
  match FieldKind.ofText name with
  | .name => (readString s).map fun (t, rest) => (.name t, rest)
  | .subjectPrefix => (readOptional s).map fun (t, rest) => (.subjectPrefix t, rest)
  | .source => (readString s).map fun (t, rest) => (.source t, rest)
  | .other => (Json.skip s).map fun (_, rest) => (.other, rest)

/-- Passes over a character that has to come next. -/
def readMark (mark : Char) : Read Unit := fun s =>
  match skipSpace s with
  | [] => .error ⟨.endOfList, [], 0⟩
  | c :: cs => if c = mark then .ok ((), cs) else .error ⟨.expectedListEnd, c :: cs, 1⟩

/-- The three fields of an array, its opening bracket excepted. -/
def readTuple : Read TemplateEntry := fun s => do
  let (name, s) ← readString s
  let (_, s) ← readMark ',' s
  let (start, s) ← readOptional s
  let (_, s) ← readMark ',' s
  let (source, s) ← readString s
  let (_, s) ← readMark ']' s
  return (⟨name, start, source⟩, s)

/-- An entry. -/
def readEntry : Read TemplateEntry := fun s =>
  match skipSpace s with
  | '[' :: cs => readTuple cs
  | '{' :: cs =>
    match (Json.members true readField).read cs with
    | .error f => .error f
    | .ok (fields, rest) =>
      match entryOf? (fields.map Prod.snd) with
      | some entry => .ok (entry, rest)
      | none => .error ⟨.unfitFields, rest, 0⟩
  | rest => .error ⟨.otherKind, rest, 0⟩

/-- The catalog in a JSON document. -/
def ofJson (s : Text) : Except Json.Fault Catalog :=
  match skipSpace s with
  | '{' :: cs =>
    match (Json.members true fun _ => readEntry).read cs with
    | .error f => .error f
    | .ok (entries, rest) => (Json.Value.atEnd rest).map fun _ => ofList entries
  | rest => .error ⟨.otherKind, rest, 0⟩

/-! ## Writing -/

/-- Keys and entries, in the order of the catalog. -/
def toJson (c : Catalog) : Json.Value :=
  .object (c.entries.entries.map fun (key, entry) => (key, entry.toJson))

end Catalog

end NoteTemplate
