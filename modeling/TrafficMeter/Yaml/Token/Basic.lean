/-!
# YAML tokens

The tokens between the characters of a text and its values (`Token`). Indentation is made explicit: a block
collection has a token for its start and one for its end, and a key has a token in front of it.
-/

namespace TrafficMeter.Yaml

/-- How a scalar is written. -/
inductive Style where
  /-- Without quotes. -/
  | plain
  /-- In single or double quotes. -/
  | quoted
  /-- As a block that keeps its lines. -/
  | literal
  /-- As a block whose lines are folded. -/
  | folded
deriving DecidableEq, Repr

/-- A tag as it is written: a handle that stands for the beginning, and the rest. -/
structure TagName where
  /-- The handle, empty for a tag that is written in full. -/
  handle : String
  /-- What follows the handle. -/
  suffix : String
deriving DecidableEq, Repr

/-- A token of a YAML text. -/
inductive Token where
  /-- The version that a text is written for. -/
  | version (major minor : Nat)
  /-- What a tag handle stands for. -/
  | tagHandle (handle meaning : String)
  /-- The mark at the start of a document. -/
  | documentStart
  /-- The mark at the end of a document. -/
  | documentEnd
  /-- The start of a sequence by indentation. -/
  | blockSequenceStart
  /-- The start of a mapping by indentation. -/
  | blockMappingStart
  /-- The end of a collection by indentation. -/
  | blockEnd
  /-- An opening bracket. -/
  | flowSequenceStart
  /-- A closing bracket. -/
  | flowSequenceEnd
  /-- An opening brace. -/
  | flowMappingStart
  /-- A closing brace. -/
  | flowMappingEnd
  /-- The dash of an entry. -/
  | blockEntry
  /-- A comma. -/
  | flowEntry
  /-- The beginning of a key. -/
  | key
  /-- The colon between a key and its value. -/
  | value
  /-- A reference to the value of an anchor. -/
  | alias (name : String)
  /-- A name for the value that follows. -/
  | anchor (name : String)
  /-- A tag for the value that follows. -/
  | tag (name : TagName)
  /-- A scalar. -/
  | scalar (style : Style) (text : String)
deriving DecidableEq, Repr

end TrafficMeter.Yaml
