import NoteTemplate.OrderedMap
import NoteTemplate.Yaml.Node
import NoteTemplate.Yaml.TokenStream

/-!
# YAML documents

* `numberAnchors` turns the names of anchors into numbers.
* `Grammar.readNode`: the node at the front of a list of tokens.
* `Document.ofText`: the document that a text consists of.
-/

namespace NoteTemplate.Yaml

/-! ## Anchors -/

/-- Numbers the anchors in the order of the text. An anchor gets the number of names that are
known before it, so an anchor whose name is used a second time can share its number with the
anchor that comes next. -/
def numberAnchors (known : OrderedMap Text Nat) :
    List (Token Text) → Except Cause (List (Token Nat))
  | [] => .ok []
  | .anchor name :: ts =>
    (numberAnchors (known.insert name known.size) ts).map (.anchor known.size :: ·)
  | .repeated name :: ts =>
    match known.find? name with
    | some n => (numberAnchors known ts).map (.repeated n :: ·)
    | none => .error .undefinedAlias
  | t :: ts => (numberAnchors known ts).map (t.rename (fun _ => 0) :: ·)

/-! ## Nodes -/

/-- What the handles of tags stand for. -/
abbrev Handles := OrderedMap Text Text

namespace Grammar

/-- The tag that is meant. Both parts of it end where they have the character NUL. -/
def resolveTag (handles : Handles) (t : Tag) : Except Cause Text :=
  if t.handle = [] then .ok (Tag.cut t.suffix)
  else
    match handles.find? t.handle with
    | some start => .ok (Tag.cut start ++ Tag.cut t.suffix)
    | none => .error .undefinedHandle

/-- The anchor and the tag in front of a node, in either order. -/
def readProperties (handles : Handles) (ts : List (Token Nat)) :
    Except Cause (Properties × List (Token Nat)) :=
  match ts with
  | .anchor n :: .tag g :: ts | .tag g :: .anchor n :: ts =>
    (resolveTag handles g).map fun tag => (⟨some n, some tag⟩, ts)
  | .anchor n :: ts => .ok (⟨some n, none⟩, ts)
  | .tag g :: ts => (resolveTag handles g).map fun tag => (⟨none, some tag⟩, ts)
  | ts => .ok (⟨none, none⟩, ts)

/-- Where a node stands. -/
inductive Place
  /-- inside a flow collection -/
  | flow
  /-- outside all flow collections -/
  | block
  /-- behind a key or a colon of a block mapping, where the entries of a sequence need not be
  indented more -/
  | member
deriving DecidableEq, Repr

/-- Whether a node that may be absent behind an indicator is absent. -/
def isAbsent (ends : List (Token Nat)) : List (Token Nat) → Bool
  | [] => false
  | t :: _ => ends.contains t

/-- What reads something from the front of a list of tokens. -/
abbrev Reader (α : Type) := List (Token Nat) → Except Cause (α × List (Token Nat))

/-- What follows the comma that all but the first item need. -/
def afterComma (first : Bool) (ts : List (Token Nat)) : Except Cause (List (Token Nat)) :=
  match first, ts with
  | true, ts => .ok ts
  | false, .comma :: ts => .ok ts
  | false, _ => .error .missingComma

mutual

/-- The node at the front. -/
def readNode (handles : Handles) (place : Place) : (fuel : Nat) → Reader Node
  | 0, _ => .error .outOfFuel
  | _, .repeated n :: ts => .ok (.repeated n, ts)
  | fuel + 1, ts => do
    let (p, ts) ← readProperties handles ts
    match place, ts with
    | .member, .entry :: _ => do
      let (items, ts) ← readIndentless handles fuel ts
      return (.sequence p items, ts)
    | _, .scalar text plain :: ts => return (.scalar p text plain, ts)
    | _, .openBracket :: ts => do
      let (items, ts) ← readItems handles true fuel ts
      return (.sequence p items, ts)
    | _, .openBrace :: ts => do
      let (members, ts) ← readFlowMembers handles true fuel ts
      return (.mapping p members, ts)
    | .block, .sequenceStart :: ts | .member, .sequenceStart :: ts => do
      let (items, ts) ← readEntries handles fuel ts
      return (.sequence p items, ts)
    | .block, .mappingStart :: ts | .member, .mappingStart :: ts => do
      let (members, ts) ← readMembers handles fuel ts
      return (.mapping p members, ts)
    | _, ts => if p = ⟨none, none⟩ then throw .missingContent else return (.scalar p [] true, ts)

/-- The node at the front, unless one of `ends` stands there. -/
def readOptional (handles : Handles) (place : Place) (ends : List (Token Nat)) :
    (fuel : Nat) → Reader Node
  | 0, _ => .error .outOfFuel
  | fuel + 1, ts =>
    if isAbsent ends ts then .ok (.absent, ts) else readNode handles place fuel ts

/-- The entries of an indented sequence. -/
def readEntries (handles : Handles) : (fuel : Nat) → Reader (List Node)
  | 0, _ => .error .outOfFuel
  | _, .dedent :: ts => .ok ([], ts)
  | fuel + 1, .entry :: ts => do
    let (n, ts) ← readOptional handles .block [.entry, .dedent] fuel ts
    let (ns, ts) ← readEntries handles fuel ts
    return (n :: ns, ts)
  | _, _ => .error .missingEntry

/-- The entries of a sequence that is indented as much as the mapping around it. -/
def readIndentless (handles : Handles) : (fuel : Nat) → Reader (List Node)
  | 0, _ => .error .outOfFuel
  | fuel + 1, .entry :: ts => do
    let (n, ts) ← readOptional handles .block [.entry, .key, .value, .dedent] fuel ts
    let (ns, ts) ← readIndentless handles fuel ts
    return (n :: ns, ts)
  | _, ts => .ok ([], ts)

/-- The members of a block mapping. -/
def readMembers (handles : Handles) : (fuel : Nat) → Reader (List (Node × Node))
  | 0, _ => .error .outOfFuel
  | _, .dedent :: ts => .ok ([], ts)
  | fuel + 1, .key :: ts => do
    let (k, ts) ← readOptional handles .member [.key, .value, .dedent] fuel ts
    let (v, ts) ← readValue handles .member [.key, .value, .dedent] fuel ts
    let (ms, ts) ← readMembers handles fuel ts
    return ((k, v) :: ms, ts)
  | _, _ => .error .missingKey

/-- The value of a key, which is absent if there is no colon. -/
def readValue (handles : Handles) (place : Place) (ends : List (Token Nat)) :
    (fuel : Nat) → Reader Node
  | 0, _ => .error .outOfFuel
  | fuel + 1, .value :: ts => readOptional handles place ends fuel ts
  | _, ts => .ok (.absent, ts)

/-- The items of a sequence in brackets. -/
def readItems (handles : Handles) (first : Bool) : (fuel : Nat) → Reader (List Node)
  | 0, _ => .error .outOfFuel
  | _, .closeBracket :: ts => .ok ([], ts)
  | fuel + 1, ts => do
    let ts ← afterComma first ts
    match ts with
    | .closeBracket :: ts => return ([], ts)
    | .key :: ts => do
      let (k, ts) ← readItemKey handles fuel ts
      let (v, ts) ← readValue handles .flow [.comma, .closeBracket] fuel ts
      let (ns, ts) ← readItems handles false fuel ts
      return (.mapping ⟨none, none⟩ [(k, v)] :: ns, ts)
    | ts => do
      let (n, ts) ← readNode handles .flow fuel ts
      let (ns, ts) ← readItems handles false fuel ts
      return (n :: ns, ts)

/-- The key of an item. If none is written, the token in its place is passed over. -/
def readItemKey (handles : Handles) : (fuel : Nat) → Reader Node
  | 0, _ => .error .outOfFuel
  | fuel + 1, ts =>
    if isAbsent [.value, .comma, .closeBracket] ts then .ok (.absent, ts.drop 1)
    else readNode handles .flow fuel ts

/-- The members of a mapping in braces. -/
def readFlowMembers (handles : Handles) (first : Bool) :
    (fuel : Nat) → Reader (List (Node × Node))
  | 0, _ => .error .outOfFuel
  | _, .closeBrace :: ts => .ok ([], ts)
  | fuel + 1, ts => do
    let ts ← afterComma first ts
    match ts with
    | .closeBrace :: ts => return ([], ts)
    | .key :: ts => do
      let (k, ts) ← readOptional handles .flow [.value, .comma, .closeBrace] fuel ts
      let (v, ts) ← readValue handles .flow [.comma, .closeBrace] fuel ts
      let (ms, ts) ← readFlowMembers handles false fuel ts
      return ((k, v) :: ms, ts)
    | ts => do
      let (k, ts) ← readNode handles .flow fuel ts
      let (ms, ts) ← readFlowMembers handles false fuel ts
      return ((k, .absent) :: ms, ts)

end

end Grammar

/-! ## Documents -/

namespace Document

/-- The handles that need no directive. -/
def defaultHandles : List (Text × Text) :=
  [(['!'], ['!']), (['!', '!'], "tag:yaml.org,2002:".toList)]

/-- What the directives in front of a document define. -/
structure Preamble where
  versionSeen : Bool
  handles : Handles

/-- Reads the directives in front of a document. -/
def readDirectives (p : Preamble) : List (Token Nat) →
    Except Cause (Preamble × List (Token Nat))
  | .directive (.version major minor) :: ts =>
    if p.versionSeen then .error .repeatedDirective
    else if major = 1 ∧ (minor = 1 ∨ minor = 2) then
      readDirectives { p with versionSeen := true } ts
    else .error .unsupportedVersion
  | .directive (.handle name start) :: ts =>
    if p.handles.contains name then .error .repeatedDirective
    else readDirectives { p with handles := p.handles.insert name start } ts
  | ts => .ok (p, ts)

/-- The handles that the tags of a document may use. -/
def withDefaults (handles : Handles) : Handles :=
  (OrderedMap.ofList defaultHandles).merge handles

/-- The fuel that any list of tokens needs at most. -/
def fuelFor (ts : List (Token Nat)) : Nat := 4 * ts.length + 4

/-- The node of a document, which begins with a marker or is the first one. -/
def readRoot (ts : List (Token Nat)) : Except Cause (Node × List (Token Nat)) := do
  let (p, rest) ← readDirectives ⟨false, ∅⟩ ts
  let handles := withDefaults p.handles
  match rest with
  | .documentStart :: rest =>
    match rest with
    | [] | .directive _ :: _ | .documentStart :: _ | .documentEnd :: _ => return (.absent, rest)
    | _ => Grammar.readNode handles .block (fuelFor rest) rest
  | _ =>
    if rest.length = ts.length then Grammar.readNode handles .block (fuelFor rest) rest
    else throw .missingMarker

/-- The root of the only document, if there is a document. -/
def ofTokens (ts : List (Token Nat)) : Except Cause (Option Node) :=
  match ts with
  | [] => .ok none
  | ts =>
    match readRoot ts with
    | .error e => .error e
    | .ok (root, rest) =>
      if rest.dropWhile (· = .documentEnd) = [] then .ok (some root)
      else .error .severalDocuments

/-- The root of the document in a text. A text of white space and comments has none. -/
def ofText (s : Text) : Except Cause (Option Node) := do
  ofTokens (← numberAnchors ∅ (← tokens s))

end Document

end NoteTemplate.Yaml
