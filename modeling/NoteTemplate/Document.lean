import NoteTemplate.Content
import NoteTemplate.Text.Blank

/-!
# Documents

A template is read as a document: blocks in the order of the source. The body of an optional
directive is an optional block, and a gap around such directives is a plain block, unless it
is blank.

* `Document.parse`: the blocks of a template.
* `Document.report`: what is reported while a template is parsed.
-/

namespace NoteTemplate

/-- A stretch of a document. -/
inductive Block
  /-- always part of the note -/
  | plain (content : Content)
  /-- part of the note if it is included and has something to show -/
  | optional (label : Text) (content : Content)
deriving DecidableEq, Repr

namespace Block

def content : Block → Content
  | plain c => c
  | optional _ c => c

/-- The label of an optional block. -/
def label? : Block → Option Text
  | plain _ => none
  | optional l _ => some l

/-- The block of a gap between optional directives. -/
def ofGap (gap : Text) : List Block :=
  if Text.isBlank gap then [] else [plain (Content.ofText gap)]

/-- The block of an optional directive. -/
def ofDirective (d : Directive) : Block := optional d.label (Content.ofText d.body)

end Block

/-- The parsed form of a whole template. -/
structure Document where
  blocks : List Block
deriving DecidableEq, Repr

namespace Document

/-- The blocks that the pieces of a source make. -/
def ofPieces (p : Directive.Pieces) : Document :=
  ⟨p.directives.flatMap (fun g => Block.ofGap g.1 ++ [Block.ofDirective g.2]) ++
    Block.ofGap p.rest⟩

/-- Parses a template. -/
def parse (source : Text) : Document := ofPieces (Directive.split .optional source)

/-! ## Report -/

/-- What is reported about a gap. -/
def gapReport (gap : Text) : List Log.Record :=
  if Text.isBlank gap then [] else Content.report gap

/-- What is reported about an optional directive. -/
def directiveReport (d : Directive) : List Log.Record :=
  Log.debug .blocks ("Found optional block '" ++ String.ofList d.label ++ "'.") ::
    Content.report d.body

/-- The directives with the gaps before them, a warning if the last gap has an opening tag,
the last gap, and the number of blocks. -/
def report (source : Text) : List Log.Record :=
  let p := Directive.split .optional source
  p.directives.flatMap (fun g => gapReport g.1 ++ directiveReport g.2) ++
    (if Text.contains p.rest DirectiveKind.optional.opener then
      [Log.warn .blocks "Unterminated optional directive left as literal text."] else []) ++
    gapReport p.rest ++
    [Log.debug .blocks ("Parsed template into " ++ toString (parse source).blocks.length ++
      " block(s).")]

end Document

end NoteTemplate
