/-!
# Problems in YAML texts

Why a text is not a YAML stream, or not one of the streams that are understood.
-/

namespace IslandPlots.Yaml

/-- What is wrong with a text that should be YAML. -/
inductive Problem where
  /-- A control character. -/
  | forbiddenCharacter (c : Char)
  /-- A character with which no token begins. -/
  | unexpectedCharacter
  /-- A text that must be a key is not followed by a colon. -/
  | missingColon
  /-- An entry, a key or a value stands where none can begin. -/
  | misplacedIndicator
  | badDirective
  | badAnchor
  | badTag
  | badBlockHeader
  /-- A tab stands where the indentation of a line is read. -/
  | tabInIndentation
  /-- A quoted text has no end. -/
  | unclosedQuote
  | badEscape
  /-- A colon inside a flow collection is followed by an indicator. -/
  | unexpectedColon
  /-- The content of a document begins without a mark. -/
  | missingDocumentStart
  | duplicateDirective
  | unsupportedVersion
  | undefinedTagHandle
  /-- A value is missing. -/
  | missingContent
  /-- An entry of a collection, or the end of the collection, is missing. -/
  | missingEntry
  /-- An alias without an anchor before it. -/
  | unknownAlias
  /-- More than one document. -/
  | severalDocuments
  /-- Collections are nested too deeply. -/
  | tooDeep
deriving DecidableEq

/-- The wording of a problem. -/
def Problem.message : Problem → String
  | .forbiddenCharacter _ => "control characters are not allowed"
  | .unexpectedCharacter => "found character that cannot start any token"
  | .missingColon => "could not find expected ':'"
  | .misplacedIndicator => "found an indicator that is not allowed in this context"
  | .badDirective => "found a directive that cannot be read"
  | .badAnchor => "did not find expected alphabetic or numeric character"
  | .badTag => "found a tag that cannot be read"
  | .badBlockHeader => "did not find expected comment or line break"
  | .tabInIndentation => "found a tab character that violates indentation"
  | .unclosedQuote => "found unexpected end of a quoted text"
  | .badEscape => "found unknown escape character"
  | .unexpectedColon => "found unexpected ':'"
  | .missingDocumentStart => "did not find expected document start"
  | .duplicateDirective => "found duplicate directive"
  | .unsupportedVersion => "found incompatible YAML document"
  | .undefinedTagHandle => "found undefined tag handle"
  | .missingContent => "did not find expected node content"
  | .missingEntry => "did not find expected entry or end of a collection"
  | .unknownAlias => "unknown anchor"
  | .severalDocuments => "more than one document"
  | .tooDeep => "collections are nested too deeply"

end IslandPlots.Yaml
