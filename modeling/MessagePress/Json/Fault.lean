import MessagePress.Number.Text
import MessagePress.Text.Quoted

/-! Why a document could not be read, and where. A position is the number of bytes passed;
messages give it as a line and a column, both in bytes. -/

namespace MessagePress.Json

/-- A kind of value met where another kind was expected. -/
inductive Unexpected
  | null
  | bool (value : Bool)
  | integer (value : Int)
  | real (value : Binary64)
  | text (value : String)
  | array
  | object
  deriving DecidableEq, Repr

def Unexpected.message : Unexpected → String
  | .null => "null"
  | .bool value => s!"boolean `{value}`"
  | .integer value => s!"integer `{value}`"
  | .real value => "floating point `" ++ String.ofList value.documentText ++ "`"
  | .text value => "string " ++ Text.quoted value
  | .array => "sequence"
  | .object => "map"

inductive Cause
  | endInArray
  | endInObject
  | endInString
  | endInValue
  | expectedColon
  | expectedArrayEnd
  | expectedObjectEnd
  | expectedIdent
  | expectedValue
  | invalidEscape
  | invalidNumber
  | numberOutOfRange
  | invalidCodePoint
  | controlCharacter
  | keyNotString
  | loneSurrogate
  | trailingComma
  | trailingCharacters
  | unexpectedEndOfHexEscape
  | recursionLimit
  | invalidType (found : Unexpected) (expected : String)
  | duplicateField (name : String)
  deriving DecidableEq, Repr

def Cause.message : Cause → String
  | .endInArray => "EOF while parsing a list"
  | .endInObject => "EOF while parsing an object"
  | .endInString => "EOF while parsing a string"
  | .endInValue => "EOF while parsing a value"
  | .expectedColon => "expected `:`"
  | .expectedArrayEnd => "expected `,` or `]`"
  | .expectedObjectEnd => "expected `,` or `\x7d`"
  | .expectedIdent => "expected ident"
  | .expectedValue => "expected value"
  | .invalidEscape => "invalid escape"
  | .invalidNumber => "invalid number"
  | .numberOutOfRange => "number out of range"
  | .invalidCodePoint => "invalid unicode code point"
  | .controlCharacter => "control character (\\u0000-\\u001F) found while parsing a string"
  | .keyNotString => "key must be a string"
  | .loneSurrogate => "lone leading surrogate in hex escape"
  | .trailingComma => "trailing comma"
  | .trailingCharacters => "trailing characters"
  | .unexpectedEndOfHexEscape => "unexpected end of hex escape"
  | .recursionLimit => "recursion limit exceeded"
  | .invalidType found expected => "invalid type: " ++ found.message ++ ", expected " ++ expected
  | .duplicateField name => "duplicate field `" ++ name ++ "`"

/-- A cause and the number of bytes passed when it was noticed. -/
structure Fault where
  cause : Cause
  index : Nat
  deriving DecidableEq, Repr

/-- The line, from one, and the column in it of a byte position. -/
def lineAndColumn (bytes : List UInt8) (index : Nat) : Nat × Nat :=
  let passed := bytes.take index
  (passed.count 0x0a + 1, (passed.reverse.takeWhile (· != 0x0a)).length)

/-- A cause and the place where it was noticed. -/
structure Report where
  cause : Cause
  line : Nat
  column : Nat
  deriving DecidableEq, Repr

/-- A fault as it shows in the bytes it was met in. -/
def Fault.report (bytes : List UInt8) (fault : Fault) : Report :=
  let (line, column) := lineAndColumn bytes fault.index
  ⟨fault.cause, line, column⟩

def Report.message (report : Report) : String :=
  report.cause.message ++ s!" at line {report.line} column {report.column}"

end MessagePress.Json
