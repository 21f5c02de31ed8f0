/-!
# What can be wrong with a YAML document
-/

namespace NoteTemplate.Yaml

/-- Why a text is no YAML document. -/
inductive Cause
  | forbiddenCharacter
  | unexpectedCharacter
  | misplacedTab
  | unexpectedColon
  | unclosedQuote
  | markerInQuotes
  | unknownEscape
  | invalidEscape
  | zeroIndentation
  | textAtLineEnd
  | invalidAnchor
  | invalidTag
  | undefinedHandle
  | invalidDirective
  | unsupportedVersion
  | repeatedDirective
  | missingColon
  | misplacedEntry
  | misplacedKey
  | misplacedValue
  | missingContent
  | missingEntry
  | missingKey
  | missingComma
  | missingMarker
  | undefinedAlias
  | severalDocuments
  /-- levels beyond the number of tokens, which no document has -/
  | outOfFuel
deriving DecidableEq, Repr

def Cause.message : Cause → String
  | forbiddenCharacter => "control characters are not allowed"
  | unexpectedCharacter => "found a character that cannot start any token"
  | misplacedTab => "found a tab where indentation is expected"
  | unexpectedColon => "found an unexpected colon"
  | unclosedQuote => "found the end of the text inside a quoted scalar"
  | markerInQuotes => "found a document marker inside a quoted scalar"
  | unknownEscape => "found an unknown escape"
  | invalidEscape => "found an escape that is no character"
  | zeroIndentation => "found an indentation of zero"
  | textAtLineEnd => "expected a comment or a line break"
  | invalidAnchor => "found an anchor or alias without a proper name"
  | invalidTag => "found an invalid tag"
  | undefinedHandle => "found a tag handle that is not defined"
  | invalidDirective => "found an invalid directive"
  | unsupportedVersion => "found a document of an unsupported version"
  | repeatedDirective => "found a directive twice"
  | missingColon => "expected a colon after a key"
  | misplacedEntry => "sequence entries are not allowed here"
  | misplacedKey => "mapping keys are not allowed here"
  | misplacedValue => "mapping values are not allowed here"
  | missingContent => "expected a value"
  | missingEntry => "expected a sequence entry"
  | missingKey => "expected a mapping key"
  | missingComma => "expected a comma or the end of a collection"
  | missingMarker => "expected the start of a document"
  | undefinedAlias => "found an alias that is not defined"
  | severalDocuments => "found more than one document"
  | outOfFuel => "found too many levels"

end NoteTemplate.Yaml
