import PyStyle.Yaml.Cursor

/-!
# YAML tokens

- `ScalarStyle` — how a scalar is written;
- `TokenContent` — what a token is;
- `Token` — a token and its place.
-/

namespace PyStyle.Yaml

/-- How a scalar is written. -/
inductive ScalarStyle where
  | plain
  | quoted
  | literal
  | folded
deriving DecidableEq, Repr, Inhabited

/-- What a token is. -/
inductive TokenContent where
  | streamEnd
  | documentStart
  | documentEnd
  /-- The version of the format that a document asks for. -/
  | version (major minor : Nat)
  /-- A short form for tags. -/
  | tagHandle (handle expansion : String)
  | blockSequenceStart
  | blockMappingStart
  | blockEnd
  | flowSequenceStart
  | flowSequenceEnd
  | flowMappingStart
  | flowMappingEnd
  | blockEntry
  | flowEntry
  | key
  | value
  | reference (anchor : String)
  | anchor (name : String)
  | tag (handle suffix : String)
  | scalar (text : String) (style : ScalarStyle)
deriving DecidableEq, Repr, Inhabited

/-- A token and the place where it begins. -/
structure Token where
  content : TokenContent
  position : Position
deriving DecidableEq, Repr, Inhabited

end PyStyle.Yaml
