import NoteTemplate.Catalog.Basic
import NoteTemplate.Rendering

/-!
# Notes

A note is what a template becomes when it is filled with values.
-/

namespace NoteTemplate

/-- A filled template. -/
structure Note where
  subjectPrefix : Option Text
  body : Text
deriving DecidableEq, Repr

/-- Fills a template. -/
def TemplateEntry.fill (entry : TemplateEntry) (v : Values) : Note :=
  ⟨entry.subjectPrefix, (Document.parse entry.source).assemble v⟩

/-- What is reported while a template is filled. -/
def TemplateEntry.fillReport (entry : TemplateEntry) (v : Values) : List Log.Record :=
  let document := Document.parse entry.source
  Document.report entry.source ++
    [Log.debug .note ("Rendering '" ++ String.ofList entry.name ++ "' (" ++
      toString document.blocks.length ++ " block(s)).")] ++
    document.assembleReport v

end NoteTemplate
