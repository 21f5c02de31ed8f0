import NoteTemplate.Catalog.Field
import NoteTemplate.Yaml.Document

/-!
# Catalogs in YAML

Any scalar is a text, whatever its tag and its style. Only a plain scalar can be null. A small
document can stand for a large catalog, so there is a limit to the nodes that are looked up.

* `Catalog.ofYaml`: reads a catalog. A text without a document is an empty one.
-/

namespace NoteTemplate.Catalog

/-- Why a YAML text is no catalog. -/
inductive YamlFault
  | malformed (cause : Yaml.Cause)
  | notCatalog
  | notEntry
  | notText
  | notNull
  | unfitFields
  | tooManyLookups
deriving DecidableEq, Repr

def YamlFault.message : YamlFault → String
  | malformed cause => cause.message
  | notCatalog => "expected a mapping of keys to entries"
  | notEntry => "expected a mapping of field names to values"
  | notText => "expected a scalar"
  | notNull => "expected null"
  | unfitFields => "a field is missing or given twice"
  | tooManyLookups => "too many nodes stand for others"

section

open Yaml (Node)

variable (anchors : List (Nat × Node))

/-- The text of a scalar. -/
def textOf (n : Node) : Except YamlFault Text :=
  match n.target anchors with
  | .scalar _ text _ => .ok text
  | _ => .error .notText

/-- The tag of null. -/
def nullTag : Text := "tag:yaml.org,2002:null".toList

/-- The words for null. -/
def isNullWord (s : Text) : Bool :=
  s = ['~'] || s = ['n', 'u', 'l', 'l'] || s = ['N', 'u', 'l', 'l'] || s = ['N', 'U', 'L', 'L']

/-- A text or null. A plain scalar is null if its tag says so, or if it has no tag and is empty
or a word for null. -/
def optionalOf (n : Node) : Except YamlFault (Option Text) :=
  match n.target anchors with
  | .scalar p text true =>
    match p.tag with
    | none => .ok (if text = [] || isNullWord text then none else some text)
    | some tag =>
      if tag ≠ nullTag then .ok (some text)
      else if isNullWord text then .ok none
      else .error .notNull
  | .scalar _ text false => .ok (some text)
  | _ => .error .notText

/-- A field of an entry. -/
def fieldOf (member : Node × Node) : Except YamlFault Field := do
  match FieldKind.ofText (← textOf anchors member.1) with
  | .name => return .name (← textOf anchors member.2)
  | .subjectPrefix => return .subjectPrefix (← optionalOf anchors member.2)
  | .source => return .source (← textOf anchors member.2)
  | .other => return .other

/-- An entry. -/
def entryOfNode (n : Node) : Except YamlFault TemplateEntry :=
  match n.target anchors with
  | .mapping _ members => do
    match entryOf? (← members.mapM (fieldOf anchors)) with
    | some entry => return entry
    | none => throw .unfitFields
  | _ => .error .notEntry

/-- A key and its entry. -/
def pairOf (member : Node × Node) : Except YamlFault (Text × TemplateEntry) :=
  return (← textOf anchors member.1, ← entryOfNode anchors member.2)

/-! ## Look-ups -/

/-- The look-ups that a field takes. The value of a field that nobody asks for is not read. -/
def fieldLookups (member : Node × Node) : Nat :=
  match (textOf anchors member.1).map FieldKind.ofText with
  | .ok .other => member.1.lookups
  | _ => member.1.lookups + member.2.lookups

/-- The look-ups that a key and its entry take. -/
def pairLookups (member : Node × Node) : Nat :=
  let fields := match member.2.target anchors with
    | .mapping _ members => (members.map (fieldLookups anchors)).foldl (· + ·) 0
    | _ => 0
  member.1.lookups + member.2.lookups + fields

/-- The look-ups that the members of a catalog take. -/
def lookups (members : List (Node × Node)) : Nat :=
  (members.map (pairLookups anchors)).foldl (· + ·) 0

/-- The most look-ups that may be needed in a document. -/
def maxLookups (root : Node) : Nat := 100 * root.size

end

/-- The catalog of which a document has the root. -/
def ofRoot (root : Yaml.Node) : Except YamlFault Catalog :=
  match root with
  | .mapping _ members =>
    let anchors := root.anchors
    if maxLookups root < lookups anchors members then .error .tooManyLookups
    else (members.mapM (pairOf anchors)).map ofList
  | .scalar _ [] true => .ok empty
  | _ => .error .notCatalog

/-- The catalog in a YAML document. -/
def ofYaml (s : Text) : Except YamlFault Catalog :=
  match Yaml.Document.ofText s with
  | .error cause => .error (.malformed cause)
  | .ok none => .ok empty
  | .ok (some root) => ofRoot root

end NoteTemplate.Catalog
