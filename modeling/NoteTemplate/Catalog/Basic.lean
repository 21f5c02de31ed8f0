import NoteTemplate.Error
import NoteTemplate.Log
import NoteTemplate.OrderedMap

/-!
# Catalogs

A catalog maps keys to templates and remembers their order. Of two catalogs that are merged
the second overrides the first, each key keeping the place where it came in first.
-/

namespace NoteTemplate

/-- A template that can be filled. -/
structure TemplateEntry where
  /-- the name shown in a list of templates -/
  name : Text
  /-- what the subject line of a note begins with -/
  subjectPrefix : Option Text
  /-- the template itself -/
  source : Text
deriving DecidableEq, Repr, Inhabited

/-- Templates by their keys. -/
structure Catalog where
  entries : OrderedMap Text TemplateEntry
deriving DecidableEq, Inhabited

namespace Catalog

/-- No template at all. -/
def empty : Catalog := ⟨∅⟩

def get? (c : Catalog) (key : Text) : Option TemplateEntry := c.entries.find? key

/-- The template with a key, which has to be there. -/
def get (c : Catalog) (key : Text) : Except Error TemplateEntry :=
  match c.get? key with
  | some entry => .ok entry
  | none => .error (.templateNotFound key)

def keys (c : Catalog) : List Text := c.entries.keys

def isEmpty (c : Catalog) : Bool := c.entries.isEmpty

def insert (c : Catalog) (key : Text) (entry : TemplateEntry) : Catalog :=
  ⟨c.entries.insert key entry⟩

/-- The catalog made by inserting the pairs into the empty one. -/
def ofList (ps : List (Text × TemplateEntry)) : Catalog := ⟨OrderedMap.ofList ps⟩

/-- Inserts every template of the other catalog. -/
def merge (c other : Catalog) : Catalog := ⟨c.entries.merge other.entries⟩

/-- What is reported while the other catalog is merged into one. -/
def mergeReport (other : Catalog) : List Log.Record :=
  other.keys.map fun key =>
    Log.debug .catalog ("Catalog entry '" ++ String.ofList key ++ "' loaded.")

end Catalog

end NoteTemplate
