import MessagePress.Text.Blank
import MessagePress.Text.Integer

/-! Lengths of time as a number and a unit. A number alone counts seconds. -/

namespace MessagePress.Config

structure Duration where
  seconds : Nat
  nanoseconds : Nat
  deriving DecidableEq, Repr

namespace Duration

def isZero (duration : Duration) : Bool := duration.seconds == 0 && duration.nanoseconds == 0

def ofSeconds (seconds : Nat) : Duration := ⟨seconds, 0⟩

def ofMillis (millis : Nat) : Duration := ⟨millis / 1000, millis % 1000 * 1000000⟩

/-- Whole milliseconds. -/
def millis (duration : Duration) : Nat :=
  duration.seconds * 1000 + duration.nanoseconds / 1000000

def maxCount : Nat := Nat.pow 2 64 - 1

inductive Unit
  | milliseconds
  | hours
  | minutes
  | seconds
  | none
  deriving DecidableEq, Repr

def Unit.noun : Unit → String
  | .milliseconds => "milliseconds"
  | .hours => "hours"
  | .minutes => "minutes"
  | .seconds => "seconds"
  | .none => "duration"

/-- How many seconds a unit lasts, except for milliseconds. -/
def Unit.seconds? : Unit → Option Nat
  | .milliseconds => Option.none
  | .hours => some 3600
  | .minutes => some 60
  | .seconds | .none => some 1

inductive Fault
  | empty
  | invalid (unit : Unit) (number : String) (fault : Text.IntegerFault)
  | outOfRange (text : String)
  deriving DecidableEq, Repr

def Fault.message : Fault → String
  | .empty => "Empty duration string"
  | .invalid unit number fault =>
    s!"Invalid {unit.noun} value: " ++ number ++ ": " ++ fault.message
  | .outOfRange text => "Duration out of range: " ++ text

/-- What stands before a unit at the end of a text, and that unit. -/
def splitUnit (text : List Char) : List Char × Unit :=
  match text.reverse with
  | 's' :: 'm' :: number => (number.reverse, .milliseconds)
  | 'h' :: number => (number.reverse, .hours)
  | 'm' :: number => (number.reverse, .minutes)
  | 's' :: number => (number.reverse, .seconds)
  | _ => (text, .none)

/-- Reads a duration; blanks may surround the number and the whole. -/
def ofText (text : String) : Except Fault Duration :=
  let text := Text.trim Text.isBlank text.toList
  if text.isEmpty then .error .empty
  else
    let (number, unit) := splitUnit text
    match Text.readNat 10 maxCount (Text.trim Text.isBlank number) with
    | .error fault => .error (.invalid unit (String.ofList number) fault)
    | .ok count =>
      match unit.seconds? with
      | Option.none => .ok (ofMillis count)
      | some seconds =>
        if count * seconds ≤ maxCount then .ok (ofSeconds (count * seconds))
        else .error (.outOfRange (String.ofList text))

end Duration

end MessagePress.Config
