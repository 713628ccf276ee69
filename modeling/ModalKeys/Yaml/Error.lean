/-!
# Why a text is no YAML

The causes are grouped by what they stop: characters that may not occur, tokens that cannot be read,
and tokens that form no document.
-/

namespace ModalKeys.Yaml

inductive Error where
  | controlCharacter
  /-- A key of a block mapping has no colon on its line. -/
  | colonExpected
  | entryNotAllowed
  | keyNotAllowed
  | valueNotAllowed
  | noToken
  | directiveName
  | directiveEnd
  | versionNumber
  | tagHandle
  | tagUri
  | tagEnd
  | anchorName
  | blockHeader
  | tabIndentation
  | markerInQuotes
  | quoteNotClosed
  | unknownEscape
  | escapeCode
  | colonInFlow
  /-- The text did not end where the tokens do. -/
  | outOfSteps
  | unknownVersion
  | repeatedDirective
  | documentStartExpected
  | contentExpected
  | entryExpected
  | keyExpected
  | commaExpected
  | undeclaredHandle
  | unknownAnchor
  | severalDocuments
deriving DecidableEq, Repr

end ModalKeys.Yaml
