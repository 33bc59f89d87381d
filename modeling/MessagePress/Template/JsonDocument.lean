import MessagePress.Json.Skip
import MessagePress.Template.Document

/-! Templates as JSON documents: an object with the two sections as members, or an array of
the two sections. Other members are passed over. -/

namespace MessagePress.Template

open Json Json.Reader

/-- What a value is called where it was not expected. -/
def unexpected : Json → Unexpected
  | .null => .null
  | .bool value => .bool value
  | .number (.integer value) => .integer value
  | .number (.real value) => .real value
  | .text value => .text value
  | .array _ => .array
  | .object _ => .object

/-- Fails at a value that is not what was expected: behind a scalar, or where an array or an
object begins. -/
def failUnexpected (expected : String) : Json.Reader α := do
  let value ← readWith (pure (.array [])) (pure (.object []))
  fail (.invalidType (unexpected value) expected)

/-- Reads a section; the document around it counts as one level of nesting. -/
def readSection : Json.Reader Members := do
  match ← peekToken with
  | none => failAtNext .endInValue
  | some byte =>
    if byte = byteOf '{' then readObject (readValue (depthLimit - 2))
    else failUnexpected "a map"

/-- Fails because of a member that was met before. -/
def failDuplicate (name : String) : Json.Reader α := do
  if (← peekToken) = some (byteOf '}') then skip
  fail (.duplicateField name)

/-- Reads what follows the name of a member. -/
def readMember (sections : Sections) (name : String) : Json.Reader Sections := do
  match name with
  | "substitution" =>
    if sections.substitution.isSome then failDuplicate name
    else
      readColon
      return { sections with substitution := some (← readSection) }
  | "template" =>
    if sections.body.isSome then failDuplicate name
    else
      readColon
      return { sections with body := some (← readSection) }
  | _ =>
    readColon
    skipValue
    return sections

/-- Reads at most `steps` members and the closing brace. -/
def readSections : Nat → Bool → Sections → Json.Reader Sections
  | 0, _, sections => pure sections
  | steps + 1, first, sections => do
    if ← anotherMember first then
      let name ← readKey
      readSections steps false (← readMember sections name)
    else
      skip
      return sections

/-- Reads an item of the array form, unless the array ends before it. -/
def readItemIfAny (first : Bool) : Json.Reader (Option Members) := do
  if ← anotherItem first then return some (← readSection) else return none

/-- Passes the closing bracket behind the two sections. -/
def readArrayEnd : Json.Reader Unit := do
  match ← peekToken with
  | none => failAtNext .endInArray
  | some byte =>
    if byte = byteOf ']' then skip
    else if byte = byteOf ',' then
      skip
      if (← peekToken) = some (byteOf ']') then failAtNext .trailingComma
      else failAtNext .trailingCharacters
    else failAtNext .trailingCharacters

def readTemplate : Json.Reader Template := do
  match ← peekToken with
  | none => failAtNext .endInValue
  | some byte =>
    if byte = byteOf '{' then
      skip
      return (← readSections ((← remaining) + 1) true .none).template
    else if byte = byteOf '[' then
      skip
      let substitution ← readItemIfAny true
      let body ← readItemIfAny substitution.isNone
      readArrayEnd
      return Sections.template ⟨substitution, body⟩
    else failUnexpected expectation

def ofJson (bytes : List UInt8) : Except Json.Report Template :=
  (readDocument readTemplate bytes).mapError (·.report bytes)

end MessagePress.Template
