import MessagePress.Json.Basic
import MessagePress.Number.Text

/-! The compact text of a value: no blanks, and in strings only quotes, backslashes and
control characters escaped. -/

namespace MessagePress.Json

/-- One character inside a string. -/
def escapeChar (c : Char) : List Char :=
  if c = '"' then ['\\', '"']
  else if c = '\\' then ['\\', '\\']
  else if c = '\n' then ['\\', 'n']
  else if c = '\r' then ['\\', 'r']
  else if c = '\t' then ['\\', 't']
  else if c = '\x08' then ['\\', 'b']
  else if c = '\x0c' then ['\\', 'f']
  else if c.toNat < 0x20 then
    ['\\', 'u', '0', '0', Nat.digitChar (c.toNat / 16), Nat.digitChar (c.toNat % 16)]
  else [c]

/-- The inside of a string. -/
def escape (text : List Char) : List Char := text.flatMap escapeChar

def quote (text : String) : List Char := '"' :: escape text.toList ++ ['"']

def integerText (value : Int) : List Char :=
  if value < 0 then '-' :: Nat.toDigits 10 value.natAbs else Nat.toDigits 10 value.natAbs

def Number.text : Number → List Char
  | .integer value => integerText value
  | .real value => value.documentText

/-- Parts with a comma between each two. -/
def commaSeparated : List (List Char) → List Char
  | [] => []
  | [part] => part
  | part :: rest => part ++ ',' :: commaSeparated rest

mutual

def render : Json → List Char
  | .null => ['n', 'u', 'l', 'l']
  | .bool true => ['t', 'r', 'u', 'e']
  | .bool false => ['f', 'a', 'l', 's', 'e']
  | .number value => value.text
  | .text value => quote value
  | .array items => '[' :: commaSeparated (renderItems items) ++ [']']
  | .object members => '{' :: commaSeparated (renderMembers members) ++ ['}']

def renderItems : List Json → List (List Char)
  | [] => []
  | item :: rest => render item :: renderItems rest

def renderMembers : List (String × Json) → List (List Char)
  | [] => []
  | (name, value) :: rest => (quote name ++ ':' :: render value) :: renderMembers rest

end

def compact (value : Json) : String := String.ofList value.render

def Members.compact (members : Members) : String := Json.compact (.object members)

end MessagePress.Json
