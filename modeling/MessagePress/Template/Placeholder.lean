import MessagePress.Template.Call

/-! Placeholders in a text. Every pair of opening braces starts an action that has to be a
dot and a name, with ASCII blanks around them, up to the next closing pair. -/

namespace MessagePress.Template

/-- A piece of a text with placeholders. -/
inductive Segment
  | text (content : List Char)
  | placeholder (name : List Char)
  deriving DecidableEq, Repr

/-- What is wrong with an action. -/
inductive ActionFault
  | unclosed
  | notPlaceholder (body : String)
  | invalidName (name : String)
  deriving DecidableEq, Repr

def ActionFault.message : ActionFault → String
  | .unclosed => "unclosed action"
  | .notPlaceholder body => "expected '.name' placeholder, found " ++ Text.quoted body
  | .invalidName name => "invalid placeholder name " ++ Text.quoted name

/-- A fault with the byte position of the braces that open the action. -/
structure SegmentFault where
  offset : Nat
  fault : ActionFault
  deriving DecidableEq, Repr

/-- ASCII letters and digits, underscore and hyphen. -/
def isNameChar (c : Char) : Bool := c.isAlphanum || c == '_' || c == '-'

/-- The name in the body of an action. -/
def placeholderName (body : List Char) : Except ActionFault (List Char) :=
  match Text.trim Text.isAsciiBlank body with
  | '.' :: name =>
    if !name.isEmpty && name.all isNameChar then .ok name
    else .error (.invalidName (String.ofList name))
  | body => .error (.notPlaceholder (String.ofList body))

def textSegment (content : List Char) : List Segment :=
  if content.isEmpty then [] else [.text content]

/-- Cuts a text that starts at byte `offset`, with at most `actions` actions in it. -/
def segmentsFrom : Nat → Nat → List Char → Except SegmentFault (List Segment)
  | 0, _, text => .ok (textSegment text)
  | actions + 1, offset, text =>
    match splitPair? '{' text with
    | none => .ok (textSegment text)
    | some (before, rest) =>
      let start := offset + byteLength before
      match splitPair? '}' rest with
      | none => .error ⟨start, .unclosed⟩
      | some (body, after) =>
        match placeholderName body with
        | .error fault => .error ⟨start, fault⟩
        | .ok name =>
          match segmentsFrom actions (start + 2 + byteLength body + 2) after with
          | .error fault => .error fault
          | .ok segments => .ok (textSegment before ++ .placeholder name :: segments)

/-- The segments of a text. -/
def segments (text : List Char) : Except SegmentFault (List Segment) :=
  segmentsFrom text.length 0 text

/-- The names a text refers to, in order of appearance. -/
def placeholders (segments : List Segment) : List String :=
  segments.filterMap fun
    | .text _ => none
    | .placeholder name => some (String.ofList name)

end MessagePress.Template
