import MessagePress.Log.Line
import MessagePress.Text.Blank
import MessagePress.Text.Integer
import MessagePress.Text.Quoted
import MessagePress.Time.Format
import MessagePress.Random.Digits

/-! Function calls inside a substitution value. A call is written between double braces,
as an at sign and a name with an optional argument behind a bar; ASCII blanks may stand
inside the braces. Every pair of opening braces is tried, overlapping ones too. Of several
calls the one whose function comes first in order wins, and the leftmost of those. -/

namespace MessagePress.Template

inductive Call
  | guid
  | uuid
  | now (format : Time.Format)
  | digits (count : Int)
  deriving DecidableEq, Repr

/-- The order in which functions win over each other. -/
def Call.rank : Call → Nat
  | .guid => 0
  | .uuid => 1
  | .now _ => 2
  | .digits _ => 3

/-- Why a text is not a call. Positions count bytes. -/
inductive CallFault
  | noCall
  | unterminated (start : Nat)
  | emptyName
  | unknownFunction (name : String)
  | unexpectedArgument (name : String)
  | invalidDigits (text : String)
  | unexpectedChar (found : Char)
  deriving DecidableEq, Repr

def CallFault.message : CallFault → String
  | .noCall => "no function token found"
  | .unterminated start => s!"unterminated function token starting at offset {start}"
  | .emptyName => "function token has an empty name"
  | .unknownFunction name => "unknown function '@" ++ name ++ "'"
  | .unexpectedArgument name => "function '@" ++ name ++ "' does not take an argument"
  | .invalidDigits text => "invalid digit count '" ++ text ++ "' for '@rnd'"
  | .unexpectedChar found =>
    "unexpected character " ++ Text.quotedChar found ++ " in function token"

/-- A call with the bytes it takes up in its text. -/
structure CallSpan where
  call : Call
  start : Nat
  stop : Nat
  deriving DecidableEq, Repr

def byteLength : List Char → Nat
  | [] => 0
  | c :: rest => c.utf8Size + byteLength rest

/-- What stands before the first pair of equal characters, and what stands behind it. -/
def splitPair? (c : Char) : List Char → Option (List Char × List Char)
  | [] => none
  | first :: rest =>
    if first = c ∧ rest.head? = some c then some ([], rest.drop 1)
    else (splitPair? c rest).map fun (before, after) => (first :: before, after)

/-- What stands before the first bar and, if there is one, what stands behind it. -/
def splitBar (body : List Char) : List Char × Option (List Char) :=
  (body.takeWhile (· != '|'),
    if body.contains '|' then some ((body.dropWhile (· != '|')).drop 1) else none)

/-- Counts of digits are signed; one beyond the range of a word stands for the least or the
greatest count that makes a difference. -/
def digitCount (text : List Char) : Except CallFault Int :=
  match Text.readInt? 10 (Nat.pow 2 63) (Nat.pow 2 63 - 1) text with
  | some count => .ok count
  | none =>
    let (negative, digits) := match text with
      | '-' :: digits => (true, digits)
      | '+' :: digits => (false, digits)
      | digits => (false, digits)
    if digits.isEmpty || !digits.all Char.isDigit then
      .error (.invalidDigits (String.ofList text))
    else .ok (if negative then 0 else Random.maxDigits)

/-- The call of a name and an argument that is not empty. -/
def callOf (name : List Char) (argument : Option (List Char)) : Except CallFault Call :=
  match String.ofList name, argument with
  | "guid", none => .ok .guid
  | "uuid", none => .ok .uuid
  | "guid", some _ => .error (.unexpectedArgument "guid")
  | "uuid", some _ => .error (.unexpectedArgument "uuid")
  | "now", none => .ok (.now .rfc3339)
  | "now", some format => .ok (.now (Time.Format.ofText (String.ofList format)))
  | "rnd", none => .ok (.digits Random.defaultDigits)
  | "rnd", some count => (digitCount count).map .digits
  | name, _ => .error (.unknownFunction name)

/-- Reads what stands between the at sign and the closing braces. -/
def readBody (body : List Char) : Except CallFault Call :=
  let (name, argument) := splitBar body
  let name := if argument.isSome then Text.trimEnd Text.isAsciiBlank name else name
  let argument := (argument.map (Text.trim Text.isAsciiBlank)).filter fun text => !text.isEmpty
  if name.isEmpty then .error .emptyName
  else
    match name.find? fun c => !c.isAlphanum with
    | some found => .error (.unexpectedChar found)
    | none => callOf name argument

/-- Reads a call behind opening braces at byte `start`. There is none to read, and no
fault, where no at sign follows the braces. -/
def readCall (start : Nat) (rest : List Char) : Except CallFault (Option CallSpan) :=
  match Text.trimStart Text.isAsciiBlank rest with
  | '@' :: _ =>
    match splitPair? '}' rest with
    | none => .error (.unterminated start)
    | some (inside, _) =>
      let body := (Text.trim Text.isAsciiBlank inside).drop 1
      (readBody body).map fun call => some ⟨call, start, start + 2 + byteLength inside + 2⟩
  | _ => .ok none

/-- The outcomes at all pairs of opening braces, in order of position. -/
def readCallsFrom (start : Nat) : List Char → List (Except CallFault (Option CallSpan))
  | [] => []
  | c :: rest =>
    let later := readCallsFrom (start + c.utf8Size) rest
    if c = '{' ∧ rest.head? = some '{' then readCall start (rest.drop 1) :: later else later

def readCalls (text : String) : List (Except CallFault (Option CallSpan)) :=
  readCallsFrom 0 text.toList

/-- The winner of the calls seen so far and a later one. -/
def winner (best : Option CallSpan) (outcome : Except CallFault (Option CallSpan)) :
    Option CallSpan :=
  match outcome with
  | .ok (some span) =>
    match best with
    | some current => if span.call.rank < current.call.rank then some span else some current
    | none => some span
  | _ => best

/-- The call a text stands for, if it has one. -/
def findCall (text : String) : Option CallSpan := (readCalls text).foldl winner none

/-- The faults met in a text, whether or not it also has a call. -/
def callFaults (text : String) : List CallFault :=
  (readCalls text).filterMap fun
    | .error fault => some fault
    | .ok _ => none

/-- Fails at the first malformed call of a text that starts at byte `start`. -/
def checkCallsFrom (start : Nat) : List Char → Except CallFault Unit
  | [] => .ok ()
  | c :: rest =>
    if c = '{' ∧ rest.head? = some '{' then
      match readCall start (rest.drop 1) with
      | .error fault => .error fault
      | .ok _ => checkCallsFrom (start + c.utf8Size) rest
    else checkCallsFrom (start + c.utf8Size) rest

/-- The call a text stands for, or why it has none: without one the text is gone through again for
the first fault. -/
def parseCall (text : String) : Except CallFault CallSpan :=
  match findCall text with
  | some span => .ok span
  | none =>
    match checkCallsFrom 0 text.toList with
    | .error fault => .error fault
    | .ok () => .error .noCall

/-- The part of a text between two byte positions. -/
def slice (text : String) (start stop : Nat) : String :=
  let rec skip : Nat → List Char → List Char
    | 0, rest => rest
    | _, [] => []
    | count, c :: rest => skip (count - c.utf8Size) rest
  let rec keep : Nat → List Char → List Char
    | 0, _ => []
    | _, [] => []
    | count, c :: rest => c :: keep (count - c.utf8Size) rest
  String.ofList (keep (stop - start) (skip start text.toList))

/-- What the log says of a malformed call. -/
def malformedCallLine (text : String) (fault : CallFault) : Log.Line :=
  ⟨.debug, "Ignoring malformed function call in " ++ Text.quoted text ++ ": " ++ fault.message⟩

end MessagePress.Template
