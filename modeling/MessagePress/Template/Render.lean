import MessagePress.Json.Printer
import MessagePress.Template.Placeholder

/-! Filling the placeholders of a message body. The body is turned into its compact text
first. Braces come in pairs only inside its strings, so an inserted value is escaped to
stay within the string that it is inserted into. -/

namespace MessagePress.Template

/-- Why a body cannot be rendered. That its text cannot be made is not among the reasons: its keys
are strings and its numbers are finite, so every body has one. -/
inductive RenderFault
  | invalid (fault : SegmentFault)
  | missingKey (name : String)
  deriving DecidableEq, Repr

def RenderFault.message : RenderFault → String
  | .invalid fault => s!"Invalid placeholder at offset {fault.offset}: " ++ fault.fault.message
  | .missingKey name => "Placeholder references unknown substitution key: " ++ name

/-- What a value inserts: a text itself, another value its compact text. -/
def insertedText : Json → List Char
  | .text value => value.toList
  | value => value.render

def fillSegment (values : Json.Members) : Segment → Except RenderFault (List Char)
  | .text content => .ok content
  | .placeholder name =>
    match values.get? (String.ofList name) with
    | some value => .ok (Json.escape (insertedText value))
    | none => .error (.missingKey (String.ofList name))

/-- Fills the segments from left to right. -/
def fill (values : Json.Members) : List Segment → Except RenderFault (List Char)
  | [] => .ok []
  | segment :: rest => do
    let filled ← fillSegment values segment
    return filled ++ (← fill values rest)

/-- The message of a body and the values of its placeholders. -/
def render (body values : Json.Members) : Except RenderFault String := do
  let segments ← (segments (Json.object body).render).mapError .invalid
  return String.ofList (← fill values segments)

end MessagePress.Template
