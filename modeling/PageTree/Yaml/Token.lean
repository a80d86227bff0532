/-!
The tokens of a YAML text. Collections that are written by indentation have tokens for their start
and end, although no mark stands for them in the text.
-/

namespace PageTree.Yaml

inductive Token where
  | version (major minor : Nat)
  /-- A declaration of what a tag handle stands for. -/
  | tagHandle (handle meaning : List Char)
  | documentStart
  | documentEnd
  | blockSequenceStart
  | blockMappingStart
  | blockEnd
  | flowSequenceStart
  | flowSequenceEnd
  | flowMappingStart
  | flowMappingEnd
  | blockEntry
  | flowEntry
  | key
  | value
  | alias (name : String)
  | anchor (name : String)
  | tag (handle suffix : List Char)
  | scalar (plain : Bool) (text : String)
  deriving DecidableEq

end PageTree.Yaml
