import NoteTemplate.Answers.Basic
import NoteTemplate.Json.Mismatch
import NoteTemplate.Json.Printer
import NoteTemplate.Json.Reader
import NoteTemplate.Log
import NoteTemplate.Text.Blank

/-!
# Answers as JSON

A document of answers is an object. Its member `values` maps variables to texts, its member
`include` maps labels to choices, and every other member that is an array of objects with
only texts in them is a namespace. Any other member is ignored.

* `Answers.ofText`: reads a document; a blank text has no answers.
* `Answers.toText`: writes a document. An empty map of values or choices is left out.
-/

namespace NoteTemplate

namespace Answers

/-- The name of the member with the values. -/
def valuesKey : Text := ['v', 'a', 'l', 'u', 'e', 's']

/-- The name of the member with the choices. -/
def choicesKey : Text := ['i', 'n', 'c', 'l', 'u', 'd', 'e']

/-! ## Reading -/

/-- Why a text is no document of answers. -/
inductive ReadError
  | malformed (fault : Json.Fault) (text : Text)
  | mismatch (m : Json.Mismatch)

def ReadError.message : ReadError → String
  | malformed fault text => "Failed to parse answers as JSON: " ++ fault.message text
  | mismatch m => "Failed to parse answers as JSON: " ++ m.message

/-- A text and nothing else. -/
def text (v : Json.Value) : Except Json.Mismatch Text :=
  match v with
  | .string s => .ok s
  | found => .error ⟨found, .string⟩

/-- A choice and nothing else. -/
def choice (v : Json.Value) : Except Json.Mismatch Bool :=
  match v with
  | .bool b => .ok b
  | found => .error ⟨found, .boolean⟩

/-- Members whose values are all of one kind. -/
def members {α : Type} (kind : Json.Value → Except Json.Mismatch α) :
    List (Text × Json.Value) → Except Json.Mismatch (List (Text × α))
  | [] => .ok []
  | (name, v) :: ms =>
    match kind v with
    | .error m => .error m
    | .ok a =>
      match members kind ms with
      | .error m => .error m
      | .ok as => .ok ((name, a) :: as)

/-- An object whose members are all of one kind. -/
def map {α : Type} (kind : Json.Value → Except Json.Mismatch α) (v : Json.Value) :
    Except Json.Mismatch (OrderedMap Text α) :=
  match v with
  | .object ms => (members kind ms).map OrderedMap.ofList
  | found => .error ⟨found, .map⟩

/-- Objects with only texts in them. -/
def itemsOf? : List Json.Value → Option (List Item)
  | [] => some []
  | v :: vs =>
    match map text v, itemsOf? vs with
    | .ok item, some items => some (item :: items)
    | _, _ => none

/-- The items of a namespace, if the value is one. -/
def namespace? (v : Json.Value) : Option (List Item) :=
  match v with
  | .array vs => itemsOf? vs
  | _ => none

/-- A member with the values or the choices. -/
def isReserved (name : Text) : Bool := name = valuesKey || name = choicesKey

/-- A namespace for each member that is one. -/
def namespacesOf (ms : List (Text × Json.Value)) : List (Text × List Item) :=
  ms.filterMap fun (name, v) =>
    if isReserved name then none else (namespace? v).map fun items => (name, items)

/-- The map in a member, which is empty if there is no such member. -/
def mapOf {α : Type} (kind : Json.Value → Except Json.Mismatch α) (name : Text)
    (ms : List (Text × Json.Value)) : Except Json.Mismatch (OrderedMap Text α) :=
  match ms.lookup name with
  | none => .ok ∅
  | some v => map kind v

/-- The answers that a value describes. The choices are looked at before the values. -/
def ofValue (v : Json.Value) : Except Json.Mismatch Answers :=
  match v with
  | .object ms =>
    match mapOf choice choicesKey ms with
    | .error m => .error m
    | .ok choices =>
      match mapOf text valuesKey ms with
      | .error m => .error m
      | .ok values => .ok ⟨values, choices, OrderedMap.ofList (namespacesOf ms)⟩
  | found => .error ⟨found, .answers⟩

/-- Reads a document of answers. -/
def ofText (s : Text) : Except ReadError Answers :=
  if Text.isBlank s then .ok empty
  else
    match Json.Value.ofText s with
    | .error fault => .error (.malformed fault s)
    | .ok v =>
      match ofValue v with
      | .error m => .error (.mismatch m)
      | .ok a => .ok a

/-- The names of the members that are ignored. -/
def ignored (v : Json.Value) : List Text :=
  match v with
  | .object ms =>
    (ms.filter fun m => !isReserved m.1 && (namespace? m.2).isNone).map Prod.fst
  | _ => []

/-- What is reported while a document is read. -/
def report (s : Text) : List Log.Record :=
  if Text.isBlank s then []
  else
    match Json.Value.ofText s with
    | .error _ => []
    | .ok v =>
      (ignored v).map fun key =>
        Log.debug .answers ("Ignoring answers key '" ++ String.ofList key ++ "'.")

/-! ## Writing -/

def mapToJson {α : Type} (kind : α → Json.Value) (m : OrderedMap Text α) : Json.Value :=
  .object (m.entries.map fun (name, a) => (name, kind a))

/-- The document of the answers. -/
def toJson (a : Answers) : Json.Value :=
  .object <|
    (if a.values.isEmpty then [] else [(valuesKey, mapToJson .string a.values)]) ++
    (if a.choices.isEmpty then [] else [(choicesKey, mapToJson .bool a.choices)]) ++
    a.namespaces.entries.map fun (name, items) =>
      (name, .array (items.map (mapToJson .string)))

/-- Writes the document of the answers on several lines. -/
def toText (a : Answers) : Text := a.toJson.pretty

end Answers

end NoteTemplate
