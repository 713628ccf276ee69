/-!
# Tokens of a YAML text
-/

namespace ModalKeys.Yaml

/--
The tokens between which a text is cut. `sequenceStart`, `mappingStart` and `blockEnd` stand for
indentation; `plain` tells a scalar written without quotes or header from the others.
-/
inductive Token where
  | version (major minor : Nat)
  | handleDeclaration (handle : String)
  | documentStart
  | documentEnd
  | sequenceStart
  | mappingStart
  | blockEnd
  | flowSequenceStart
  | flowSequenceEnd
  | flowMappingStart
  | flowMappingEnd
  | flowEntry
  | blockEntry
  | key
  | value
  | alias (name : String)
  | anchor (name : String)
  | tag (handle : String)
  | scalar (text : String) (plain : Bool)
deriving DecidableEq, Repr

end ModalKeys.Yaml
