import NoteTemplate.Yaml.Property

/-!
# Tokens of YAML

A text is a list of tokens. Indentation has become tokens that open and close collections.
-/

namespace NoteTemplate.Yaml

/-- A token. The names of anchors are of type `ν`. -/
inductive Token (ν : Type)
  | directive (d : Directive)
  | documentStart
  | documentEnd
  /-- entries follow that are indented more -/
  | sequenceStart
  /-- keys follow that are indented more -/
  | mappingStart
  | dedent
  | openBracket
  | closeBracket
  | openBrace
  | closeBrace
  | comma
  | entry
  | key
  | value
  | anchor (name : ν)
  /-- the node with that anchor again -/
  | repeated (name : ν)
  | tag (t : Tag)
  | scalar (text : Text) (plain : Bool)
deriving DecidableEq, Repr

/-- Gives anchors other names. -/
def Token.rename {ν μ : Type} (f : ν → μ) : Token ν → Token μ
  | .anchor name => .anchor (f name)
  | .repeated name => .repeated (f name)
  | .directive d => .directive d
  | .documentStart => .documentStart
  | .documentEnd => .documentEnd
  | .sequenceStart => .sequenceStart
  | .mappingStart => .mappingStart
  | .dedent => .dedent
  | .openBracket => .openBracket
  | .closeBracket => .closeBracket
  | .openBrace => .openBrace
  | .closeBrace => .closeBrace
  | .comma => .comma
  | .entry => .entry
  | .key => .key
  | .value => .value
  | .tag t => .tag t
  | .scalar text plain => .scalar text plain

end NoteTemplate.Yaml
