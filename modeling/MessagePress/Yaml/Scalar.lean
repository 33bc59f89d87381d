import MessagePress.Number.Binary64
import MessagePress.Text.Integer
import MessagePress.Yaml.Token

/-! What the text of a scalar stands for. A plain text is a null, a truth value, an integer
or a real number if it is written like one, and a text otherwise; a tag can ask for one of
these kinds. -/

namespace MessagePress.Yaml

/-- Real numbers, with the two infinities and what is no number. -/
inductive Real
  | finite (value : Binary64)
  | infinite (negative : Bool)
  | nan
  deriving DecidableEq, Repr

/-- Integers up to 64 bits and up to 128 bits are told apart. -/
inductive ScalarValue
  | null
  | bool (value : Bool)
  | integer (value : Int)
  | wideInteger (value : Int)
  | real (value : Real)
  | text
  deriving DecidableEq, Repr

/-- The kinds that a tag can ask for. -/
inductive ScalarKind
  | null
  | bool
  | integer
  | real
  deriving DecidableEq, Repr

def ScalarKind.noun : ScalarKind → String
  | .null => "null"
  | .bool => "a boolean"
  | .integer => "an integer"
  | .real => "a float"

def isNull (text : List Char) : Bool :=
  text == ['~'] || ["null".toList, "Null".toList, "NULL".toList].contains text

def bool? (text : List Char) : Option Bool :=
  if ["true".toList, "True".toList, "TRUE".toList].contains text then some true
  else if ["false".toList, "False".toList, "FALSE".toList].contains text then some false
  else none

def dropPlus (text : List Char) : List Char :=
  match text with
  | '+' :: rest => rest
  | text => text

def isSigned (text : List Char) : Bool :=
  text.head? == some '+' || text.head? == some '-'

/-- More than one digit with a zero in front is a text, not a number. -/
def hasLeadingZero (text : List Char) : Bool :=
  let digits := if isSigned text then text.drop 1 else text
  1 < digits.length && digits.head? == some '0' && digits.all Char.isDigit

/-- The radix of a mark in front of digits. -/
def radix? : Char → Option Nat
  | 'x' => some 16
  | 'o' => some 8
  | 'b' => some 2
  | _ => none

/-- A number without a sign in a marked radix. -/
def markedNat? (limit : Nat) : List Char → Option Nat
  | '0' :: mark :: digits => do
    let radix ← radix? mark
    if isSigned digits then none else (Text.readNat radix limit digits).toOption
  | _ => none

/-- An integer from zero to a limit, in any radix. -/
def unsigned? (limit : Nat) (text : List Char) : Option Nat :=
  let number := dropPlus text
  match markedNat? limit number with
  | some value => some value
  | none =>
    if isSigned number || hasLeadingZero text then none
    else (Text.readNat 10 limit number).toOption

/-- An integer from zero down to a limit, in any radix. -/
def negative? (limit : Nat) : List Char → Option Int
  | '-' :: digits =>
    match markedNat? limit digits with
    | some value => some (-(value : Int))
    | none =>
      if isSigned digits || hasLeadingZero ('-' :: digits) then none
      else (Text.readNat 10 limit digits).toOption.map fun value => -(value : Int)
  | _ => none

def maxUnsigned (bits : Nat) : Nat := Nat.pow 2 bits - 1

def maxMagnitude (bits : Nat) : Nat := Nat.pow 2 (bits - 1)

/-- An integer of so many bits. -/
def integer? (bits : Nat) (text : List Char) : Option Int :=
  match unsigned? (maxUnsigned bits) text with
  | some value => some value
  | none => negative? (maxMagnitude bits) text

/-- An integer of so many bits with a sign among them. -/
def signed? (bits : Nat) (text : List Char) : Option Int :=
  match unsigned? (maxMagnitude bits - 1) text with
  | some value => some value
  | none => negative? (maxMagnitude bits) text

/-- The value of decimal digits. -/
def decimalValue (digits : List Char) : Nat :=
  digits.foldl (fun value c => value * 10 + (c.toNat - '0'.toNat)) 0

/-- The power of ten behind the digits of a number; an exponent needs digits of its own. -/
def exponent? : List Char → Option Int
  | [] => some 0
  | c :: rest =>
    if c = 'e' ∨ c = 'E' then
      let digits := if isSigned rest then rest.drop 1 else rest
      if digits.isEmpty || !digits.all Char.isDigit then none
      else if rest.head? = some '-' then some (-(decimalValue digits : Int))
      else some (decimalValue digits)
    else none

/-- A decimal number, with a point or an exponent or neither, if it is within range. -/
def decimal? (text : List Char) : Option Binary64 := do
  let negative := text.head? == some '-'
  let body := if isSigned text then text.drop 1 else text
  let (whole, rest) := body.span Char.isDigit
  let (fraction, rest) :=
    if rest.head? = some '.' then (rest.drop 1).span Char.isDigit else ([], rest)
  if whole.isEmpty && fraction.isEmpty then none
  else
    let exponent ← exponent? rest
    Binary64.ofDecimal? negative (decimalValue (whole ++ fraction)) (exponent - fraction.length)

def real? (text : List Char) : Option Real :=
  let number := dropPlus text
  if text.head? == some '+' && isSigned number then none
  else if [".inf".toList, ".Inf".toList, ".INF".toList].contains number then
    some (.infinite false)
  else if ["-.inf".toList, "-.Inf".toList, "-.INF".toList].contains text then
    some (.infinite true)
  else if [".nan".toList, ".NaN".toList, ".NAN".toList].contains text then some .nan
  else (decimal? number).map .finite

def integerValue? (text : List Char) : Option ScalarValue :=
  match integer? 64 text with
  | some value => some (.integer value)
  | none => (integer? 128 text).map .wideInteger

/-- What a plain text without a tag stands for. -/
def plainValue (text : List Char) : ScalarValue :=
  if text.isEmpty || isNull text then .null
  else
    match bool? text, integerValue? text with
    | some value, _ => .bool value
    | none, some value => value
    | none, none =>
      if hasLeadingZero text then .text
      else
        match real? text with
        | some value => .real value
        | none => .text

def coreTag (name : String) : TagBytes := Text.Utf8.encode (coreNamespace ++ name).toList

def nullTag : TagBytes := coreTag "null"

def boolTag : TagBytes := coreTag "bool"

def integerTag : TagBytes := coreTag "int"

def realTag : TagBytes := coreTag "float"

/-- What a scalar stands for, or the kind that its tag asks for in vain. -/
def scalarValue (tag : Option TagBytes) (text : List Char) (style : ScalarStyle) :
    Except ScalarKind ScalarValue :=
  match tag with
  | none => .ok (if style = .plain then plainValue text else .text)
  | some tag =>
    if tag = boolTag then ((bool? text).map ScalarValue.bool).elim (.error .bool) .ok
    else if tag = integerTag then (integerValue? text).elim (.error .integer) .ok
    else if tag = realTag then ((real? text).map ScalarValue.real).elim (.error .real) .ok
    else if tag = nullTag then if isNull text then .ok .null else .error .null
    else if tag.head? = some 0x21 ∧ style = .plain then .ok (plainValue text)
    else .ok .text

/-- The name of a tag that is not one of the usual kinds: what stands behind its mark. -/
def tagName? (tag : Option TagBytes) : Option String := do
  let tag ← tag
  match tag with
  | 0x21 :: [] => some "!"
  | 0x21 :: name => String.fromUTF8? ⟨name.toArray⟩
  | _ => none

end MessagePress.Yaml
