import IslandPlots.Text.Utf8

/-!
# YAML tokens

The tokens into which a YAML text is divided.  The structure of a block, which the text
shows by its indentation, is explicit in the tokens.
-/

namespace IslandPlots.Yaml

/-- How a scalar is written. -/
inductive Style where
  | plain
  | singleQuoted
  | doubleQuoted
  | literal
  | folded
deriving DecidableEq

/-- A token of a YAML text. -/
inductive Token where
  | versionDirective (major minor : Nat)
  | tagDirective (handle : List Char) (replacement : Text.Bytes)
  | documentStart
  | documentEnd
  | blockSequenceStart
  | blockMappingStart
  | blockEnd
  | flowSequenceStart
  | flowSequenceEnd
  | flowMappingStart
  | flowMappingEnd
  | blockEntry
  | flowEntry
  | key
  | value
  | alias (name : List Char)
  | anchor (name : List Char)
  | tag (handle : List Char) (suffix : Text.Bytes)
  | scalar (text : List Char) (style : Style)
deriving DecidableEq

end IslandPlots.Yaml
