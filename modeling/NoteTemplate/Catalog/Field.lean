import NoteTemplate.Catalog.Basic

/-!
# Fields of catalog entries

In a document a catalog is a mapping of keys to entries, and an entry is a mapping of field
names to values. Of the fields that are known, name and source are required and none may be
given twice.
-/

namespace NoteTemplate.Catalog

/-- A field of an entry. -/
inductive Field
  | name (value : Text)
  | subjectPrefix (value : Option Text)
  | source (value : Text)
  /-- a field that nobody asks for -/
  | other
deriving DecidableEq, Repr

namespace Field

def name? : Field → Option Text
  | name value => some value
  | _ => none

def subjectPrefix? : Field → Option (Option Text)
  | subjectPrefix value => some value
  | _ => none

def source? : Field → Option Text
  | source value => some value
  | _ => none

end Field

/-- The kind of a field, which its name tells. -/
inductive FieldKind
  | name
  | subjectPrefix
  | source
  | other
deriving DecidableEq, Repr

def FieldKind.ofText (s : Text) : FieldKind :=
  if s = ['n', 'a', 'm', 'e'] then .name
  else if s = "subject_prefix".toList then .subjectPrefix
  else if s = ['s', 'o', 'u', 'r', 'c', 'e'] then .source
  else .other

/-- The entry with the given fields. -/
def entryOf? (fields : List Field) : Option TemplateEntry :=
  match fields.filterMap Field.name?, fields.filterMap Field.subjectPrefix?,
    fields.filterMap Field.source? with
  | [name], [], [source] => some ⟨name, none, source⟩
  | [name], [start], [source] => some ⟨name, start, source⟩
  | _, _, _ => none

end NoteTemplate.Catalog
