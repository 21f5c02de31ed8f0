import NoteTemplate.Document
import NoteTemplate.Text.LineBreak
import NoteTemplate.Values

/-!
# Rendering

A document is rendered block by block. In a content the variables are put in first, one
after the other, then every token is replaced by the items of its section.

* `Content.fill`, `Block.render`, `Document.assemble`: the text of a content, a block, a
  document.
* `Content.observable`: whether an optional block has something to show.
-/

namespace NoteTemplate

/-- Puts a value, with its line breaks marked, in the place of a variable. An absent value
counts as empty. -/
def substitute (name : Text) (value : Option Text) (s : Text) : Text :=
  Text.replaceAll (Placeholder.written name) (Text.markBreaks (value.getD [])) s

namespace RepeatSection

/-- The text of the item at an index. -/
def item (s : RepeatSection) (v : Values) (ns : Text) (index : Nat) : Text :=
  s.names.foldl (fun t name => substitute name (v.item? ns index name) t) s.content

/-- The number of items; none if the section has no variable. -/
def itemCount (s : RepeatSection) (v : Values) (ns : Text) : Nat :=
  match s.first? with
  | none => 0
  | some first => v.itemCount ns first

/-- The items one after the other. -/
def expansion (s : RepeatSection) (v : Values) (ns : Text) : Text :=
  (List.range (s.itemCount v ns)).flatMap (s.item v ns)

end RepeatSection

namespace Content

/-- The literal with a value for every variable. -/
def substituted (c : Content) (v : Values) : Text :=
  c.names.foldl (fun t name => substitute name (v.value? name) t) c.literal

/-- The text of a content. Repeat sections take their items from the namespace `ns`. -/
def fill (c : Content) (v : Values) (ns : Text) : Text :=
  c.sections.foldl (fun t s => Text.replaceAll s.token (s.expansion v ns) t) (c.substituted v)

/-- Some variable has a value that is not blank, or some section has an item. -/
def observable (c : Content) (v : Values) : Bool :=
  c.names.any (fun name => (v.value? name).any fun value => !Text.isBlank value) ||
    c.sections.any (fun s => s.first?.any fun first => v.hasItem repeatNamespace 0 first)

end Content

namespace Block

/-- The text of a block. An optional block that is left out, or has nothing to show, is
empty. -/
def render (b : Block) (v : Values) : Text :=
  match b with
  | plain c => c.fill v repeatNamespace
  | optional label c =>
    if v.included label && c.observable v then c.fill v repeatNamespace else []

end Block

/-- The texts of the blocks one after the other. -/
def Document.assemble (d : Document) (v : Values) : Text := d.blocks.flatMap (·.render v)

/-! ## Report -/

/-- The number of items of each section that has a variable. -/
def Content.fillReport (c : Content) (v : Values) (ns : Text) : List Log.Record :=
  c.sections.flatMap fun s =>
    if s.first?.isSome then
      [Log.debug .rendering ("Expanded section '" ++ String.ofList s.label ++ "' with " ++
        toString (s.itemCount v ns) ++ " item(s).")]
    else []

/-- Why an optional block is empty, or what its content reports. -/
def Block.renderReport (b : Block) (v : Values) : List Log.Record :=
  match b with
  | plain c => c.fillReport v repeatNamespace
  | optional label c =>
    let block := "Optional block '" ++ String.ofList label ++ "'"
    if !v.included label then [Log.debug .rendering (block ++ " is excluded.")]
    else if !c.observable v then
      [Log.debug .rendering (block ++ " has no content, skipping.")]
    else c.fillReport v repeatNamespace

/-- What is reported while a document is assembled. -/
def Document.assembleReport (d : Document) (v : Values) : List Log.Record :=
  d.blocks.flatMap (·.renderReport v)

end NoteTemplate
