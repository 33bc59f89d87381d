import MessagePress.Number.Binary64

/-! Values of JSON documents. The members of an object are kept in increasing order of
their names, so a value has one form and its text one order. -/

namespace MessagePress

/-- Integers from `-2 ^ 63` to `2 ^ 64 - 1` stay exact; other numbers are binary. -/
inductive Json.Number
  | integer (value : Int)
  | real (value : Binary64)
  deriving DecidableEq, Repr

inductive Json
  | null
  | bool (value : Bool)
  | number (value : Json.Number)
  | text (value : String)
  | array (items : List Json)
  | object (members : List (String × Json))
  deriving Repr

namespace Json

/-- Named values in increasing order of the names. -/
abbrev Members := List (String × Json)

/-- Sets a member. An equal name keeps its place and takes the new value. Code points and
bytes order texts alike. -/
def Members.insert (name : String) (value : Json) : Members → Members
  | [] => [(name, value)]
  | (other, old) :: rest =>
    if name < other then (name, value) :: (other, old) :: rest
    else if name = other then (name, value) :: rest
    else (other, old) :: insert name value rest

def Members.get? (members : Members) (name : String) : Option Json := members.lookup name

/-- Members in the order of a document; of equal names the last one counts. -/
def Members.ofList (pairs : List (String × Json)) : Members :=
  pairs.foldl (fun members (name, value) => members.insert name value) []

end Json

end MessagePress
