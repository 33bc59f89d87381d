import MessagePress.Json.Basic
import MessagePress.Random.Identifier
import MessagePress.Template.Call

/-! Evaluating substitutions. A text with a call is replaced as a whole by the result of
the call; every other value stays. Keys are visited in order, one random source behind
them all. -/

namespace MessagePress.Template

open MessagePress.Random (Source)

/-- The result of a call at an instant of the clock. -/
def evaluateCall (clock : Time.Instant) : Call → Random.Draw (List Char)
  | .guid => Random.guid
  | .uuid => Random.uuid4
  | .now format => fun source => (.ok (format.text clock), source)
  | .digits count => Random.digits count

def evaluateValue (clock : Time.Instant) (value : Json) : Random.Draw Json := fun source =>
  match value with
  | .text content =>
    match findCall content with
    | some span =>
      let (result, left) := evaluateCall clock span.call source
      (result.map fun text => .text (String.ofList text), left)
    | none => (.ok value, source)
  | value => (.ok value, source)

/-- A draw that failed, and the key whose value needed it. -/
structure EvaluationFault where
  key : String
  cause : Random.Fault
  deriving DecidableEq, Repr

def EvaluationFault.message (fault : EvaluationFault) : String :=
  "Failed to draw random bytes for substitution '" ++ fault.key ++ "': " ++ fault.cause.message

/-- The readings of the clock while members are evaluated, each when its key is visited. -/
abbrev Clock := String → Time.Instant

/-- Evaluates the members in order and stops at the first fault. -/
def evaluate (clock : Clock) : Json.Members → Source →
    Except EvaluationFault Json.Members × Source
  | [], source => (.ok [], source)
  | (key, value) :: rest, source =>
    match evaluateValue (clock key) value source with
    | (.error cause, left) => (.error ⟨key, cause⟩, left)
    | (.ok value, left) =>
      let (values, left) := evaluate clock rest left
      (values.map fun values => (key, value) :: values, left)

/-- What the log says while a value is evaluated. -/
def valueLog : Json → List Log.Line
  | .text content => (callFaults content).map (malformedCallLine content)
  | _ => []

/-- What the log says while all members are evaluated. -/
def evaluationLog (substitution : Json.Members) : List Log.Line :=
  substitution.flatMap fun member => valueLog member.2

end MessagePress.Template
