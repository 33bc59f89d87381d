import MessagePress.Text.Utf8
import MessagePress.Yaml.Cursor

/-! The tokens of a document's text. -/

namespace MessagePress.Yaml

/-- How a scalar was written. -/
inductive ScalarStyle
  | plain
  | singleQuoted
  | doubleQuoted
  | literal
  | folded
  deriving DecidableEq, Repr

/-- Tags are kept as bytes, because escapes in them need not form a text. -/
abbrev TagBytes := List UInt8

/-- What the tags of the usual kinds of nodes begin with. -/
def coreNamespace : String := "tag:yaml.org,2002:"

inductive TokenKind
  | streamEnd
  | versionDirective (major minor : Nat)
  | tagDirective (handle uri : TagBytes)
  | documentStart
  | documentEnd
  | blockSequenceStart
  | blockMappingStart
  | blockEnd
  | flowSequenceStart
  | flowSequenceEnd
  | flowMappingStart
  | flowMappingEnd
  | blockEntry
  | flowEntry
  | key
  | value
  | alias (name : List Char)
  | anchor (name : List Char)
  | tag (handle suffix : TagBytes)
  | scalar (text : List Char) (style : ScalarStyle)
  deriving DecidableEq, Repr

structure Token where
  kind : TokenKind
  start : Mark
  stop : Mark
  deriving DecidableEq, Repr

end MessagePress.Yaml
