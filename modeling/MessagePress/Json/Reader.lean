import MessagePress.Json.Basic
import MessagePress.Json.Fault
import MessagePress.Text.Integer
import MessagePress.Text.Utf8

/-! Reading values from bytes. Nesting is limited; numbers beyond the exact integers are
taken as a significand of at most 64 bits times a power of ten, each step of which rounds. -/

namespace MessagePress.Json

/-- What is left of a document, and how many bytes were passed. -/
structure Cursor where
  rest : List UInt8
  index : Nat

abbrev Reader (α : Type) := StateT Cursor (Except Fault) α

namespace Reader

/-- Fails at the bytes passed so far. -/
def fail (cause : Cause) : Reader α := fun cursor => .error ⟨cause, cursor.index⟩

/-- Fails at the byte that comes next. -/
def failAtNext (cause : Cause) : Reader α := fun cursor =>
  .error ⟨cause, if cursor.rest.isEmpty then cursor.index else cursor.index + 1⟩

def peek : Reader (Option UInt8) := fun cursor => .ok (cursor.rest.head?, cursor)

/-- Passes one byte. -/
def skip : Reader Unit := fun cursor => .ok ((), ⟨cursor.rest.drop 1, cursor.index + 1⟩)

def next : Reader (Option UInt8) := fun cursor =>
  match cursor.rest with
  | [] => .ok (none, cursor)
  | byte :: rest => .ok (some byte, ⟨rest, cursor.index + 1⟩)

/-- Passes bytes while they are of a class, and gives them. -/
def takeWhile (p : UInt8 → Bool) : Reader (List UInt8) := fun cursor =>
  let taken := cursor.rest.takeWhile p
  .ok (taken, ⟨cursor.rest.dropWhile p, cursor.index + taken.length⟩)

/-- How many bytes are left; no loop over them takes more steps. -/
def remaining : Reader Nat := fun cursor => .ok (cursor.rest.length, cursor)

end Reader

open Reader

def byteOf (c : Char) : UInt8 := UInt8.ofNat c.toNat

def isBlankByte (byte : UInt8) : Bool :=
  byte == 0x20 || byte == 0x0a || byte == 0x09 || byte == 0x0d

def isDigitByte (byte : UInt8) : Bool := 0x30 ≤ byte && byte ≤ 0x39

/-- Passes blanks and shows what follows them. -/
def peekToken : Reader (Option UInt8) := do
  let _ ← takeWhile isBlankByte
  peek

/-- Passes the rest of a literal name. -/
def readIdent : List Char → Reader Unit
  | [] => pure ()
  | expected :: rest => do
    match ← next with
    | none => fail .endInValue
    | some found => if found = byteOf expected then readIdent rest else fail .expectedIdent

def hexValue? (byte : UInt8) : Option Nat := Text.digitValue? 16 (Char.ofNat byte.toNat)

/-- The code of four hexadecimal digits. -/
def hexCode? : List UInt8 → Option Nat
  | [a, b, c, d] => do
    return (((← hexValue? a) * 16 + (← hexValue? b)) * 16 + (← hexValue? c)) * 16 + (← hexValue? d)
  | _ => none

/-- Reads four hexadecimal digits. -/
def readHexCode : Reader Nat := fun cursor =>
  let digits := cursor.rest.take 4
  let cursor : Cursor := ⟨cursor.rest.drop 4, cursor.index + digits.length⟩
  if digits.length < 4 then fail .endInString cursor
  else
    match hexCode? digits with
    | some code => .ok (code, cursor)
    | none => fail .invalidEscape cursor

/-- Passes a byte that the low half of a surrogate pair needs. -/
def expectEscapeByte (expected : Char) : Reader Unit := do
  match ← peek with
  | none => fail .endInString
  | some found =>
    skip
    if found = byteOf expected then pure () else fail .unexpectedEndOfHexEscape

/-- Reads the code of an escape behind its `u`; surrogates have to come in pairs. -/
def readUnicodeEscape : Reader Char := do
  let code ← readHexCode
  if 0xdc00 ≤ code ∧ code ≤ 0xdfff then fail .loneSurrogate
  else if code < 0xd800 ∨ 0xdbff < code then return Char.ofNat code
  else
    expectEscapeByte '\\'
    expectEscapeByte 'u'
    let low ← readHexCode
    if low < 0xdc00 ∨ 0xdfff < low then fail .loneSurrogate
    else return Char.ofNat (0x10000 + (code - 0xd800) * 1024 + (low - 0xdc00))

/-- The character of an escape of one letter. -/
def simpleEscape? (byte : UInt8) : Option Char :=
  if byte = byteOf '"' then some '"'
  else if byte = byteOf '\\' then some '\\'
  else if byte = byteOf '/' then some '/'
  else if byte = byteOf 'b' then some '\x08'
  else if byte = byteOf 'f' then some '\x0c'
  else if byte = byteOf 'n' then some '\n'
  else if byte = byteOf 'r' then some '\r'
  else if byte = byteOf 't' then some '\t'
  else none

/-- Reads an escape behind its backslash. -/
def readEscape : Reader Char := do
  match ← next with
  | none => fail .endInString
  | some byte =>
    match simpleEscape? byte with
    | some c => return c
    | none => if byte = byteOf 'u' then readUnicodeEscape else fail .invalidEscape

/-- Bytes that stand for themselves inside a string. -/
def isPlainByte (byte : UInt8) : Bool := 0x20 ≤ byte && byte != byteOf '"' && byte != byteOf '\\'

/-- Reads the bytes of a string behind its opening quote, in at most so many pieces. -/
def readStringBytes : Nat → Reader (List UInt8)
  | 0 => fail .endInString
  | pieces + 1 => do
    let plain ← takeWhile isPlainByte
    match ← next with
    | none => fail .endInString
    | some byte =>
      if byte = byteOf '"' then return plain
      else if byte = byteOf '\\' then
        let c ← readEscape
        return plain ++ String.utf8EncodeChar c ++ (← readStringBytes pieces)
      else fail .controlCharacter

/-- Reads a string behind its opening quote. Bytes that are no text are noticed once the
string has ended; the fault stands behind the first of them. -/
def readString : Reader String := do
  let start ← get
  let bytes ← readStringBytes ((← remaining) + 1)
  match Text.Utf8.decode? bytes with
  | some chars => return String.ofList chars
  | none =>
    let passed := start.rest.take ((← get).index - start.index)
    throw ⟨.invalidCodePoint, start.index + Text.Utf8.validLength passed + 1⟩

/-- The greatest significand that digits are gathered into. -/
def maxSignificand : Nat := Nat.pow 2 64 - 1

/-- The greatest power of ten that is multiplied or divided by in one step. -/
def maxPower : Nat := 308

def powerOfTen (power : Nat) : Binary64 :=
  (Binary64.ofDecimal? false 1 power).getD (Binary64.zero false)

/-- A significand times a power of ten, where `steps` bounds how often the greatest power
has to be divided out; the result is zero before the third time. -/
def scaleByTen? : Nat → Binary64 → Int → Option Binary64
  | 0, value, _ => some value
  | steps + 1, value, power =>
    if power.natAbs ≤ maxPower then
      if 0 ≤ power then value.mul? (powerOfTen power.natAbs)
      else value.div? (powerOfTen power.natAbs)
    else if value.isZero then some value
    else if 0 ≤ power then none
    else do
      let value ← value.div? (powerOfTen maxPower)
      scaleByTen? steps value (power + maxPower)

/-- The number of a sign, a significand and a power of ten; `none` above all numbers. -/
def realOfParts? (negative : Bool) (significand : Nat) (power : Int) : Option Binary64 := do
  let value ← Binary64.ofQuotient? false significand 1
  let value ← scaleByTen? 4 value power
  return if negative then value.negate else value

def readReal (negative : Bool) (significand : Nat) (power : Int) : Reader Number :=
  match realOfParts? negative significand power with
  | some value => return .real value
  | none => fail .numberOutOfRange

def digitOf (byte : UInt8) : Nat := byte.toNat - 0x30

/-- Adds digits to a significand while it stays within its greatest value. -/
def gatherDigits (significand : Nat) : List UInt8 → Nat × List UInt8
  | [] => (significand, [])
  | digit :: rest =>
    if significand * 10 + digitOf digit ≤ maxSignificand then
      gatherDigits (significand * 10 + digitOf digit) rest
    else (significand, digit :: rest)

/-- Reads the exponent behind its letter. An exponent beyond 32 bits makes the number zero
or puts it out of range. -/
def readExponent (negative : Bool) (significand : Nat) (power : Int) : Reader Number := do
  let sign ← peek
  if sign = some (byteOf '+') ∨ sign = some (byteOf '-') then skip
  match ← next with
  | none => fail .endInValue
  | some first =>
    if !isDigitByte first then fail .invalidNumber
    else
      let start ← get
      let digits ← takeWhile isDigitByte
      let (exponent, tooMuch) := gatherExponent (digitOf first) digits
      if tooMuch.isEmpty then
        readReal negative significand
          (if sign = some (byteOf '-') then power - exponent else power + exponent)
      else if significand ≠ 0 ∧ sign ≠ some (byteOf '-') then
        throw ⟨.numberOutOfRange, start.index + (digits.length - tooMuch.length) + 1⟩
      else return .real (Binary64.zero negative)
where
  gatherExponent (exponent : Nat) : List UInt8 → Nat × List UInt8
    | [] => (exponent, [])
    | digit :: rest =>
      if exponent * 10 + digitOf digit < Nat.pow 2 31 then
        gatherExponent (exponent * 10 + digitOf digit) rest
      else (exponent, digit :: rest)

/-- Reads an exponent if its letter follows. -/
def readExponentIfAny (negative : Bool) (significand : Nat) (power : Int) : Reader Number := do
  match ← peek with
  | some byte =>
    if byte = byteOf 'e' ∨ byte = byteOf 'E' then
      skip
      readExponent negative significand power
    else readReal negative significand power
  | none => readReal negative significand power

/-- Reads the fraction behind its point. Digits that do not fit the significand are dropped. -/
def readFraction (negative : Bool) (significand : Nat) (power : Int) : Reader Number := do
  let digits ← takeWhile isDigitByte
  if digits.isEmpty then
    match ← peek with
    | some _ => failAtNext .invalidNumber
    | none => failAtNext .endInValue
  else
    let (significand, dropped) := gatherDigits significand digits
    readExponentIfAny negative significand (power - (digits.length - dropped.length : Nat))

/-- The integer of a sign and a significand; what no signed word holds is a real number. -/
def integerNumber (negative : Bool) (significand : Nat) : Option Number :=
  if negative then
    if significand = 0 ∨ Nat.pow 2 63 < significand then
      (Binary64.ofQuotient? true significand 1).map .real
    else some (.integer (-significand))
  else some (.integer significand)

/-- Reads a number behind its sign. -/
def readNumber (negative : Bool) : Reader Number := do
  match ← next with
  | none => fail .endInValue
  | some first =>
    if !isDigitByte first then fail .invalidNumber
    else
      let digits ← if first = byteOf '0' then pure [] else takeWhile isDigitByte
      let following ← peek
      if first = byteOf '0' ∧ following.any isDigitByte then failAtNext .invalidNumber
      else
        let (significand, dropped) := gatherDigits (digitOf first) digits
        if following = some (byteOf '.') then
          skip
          readFraction negative significand dropped.length
        else if following = some (byteOf 'e') ∨ following = some (byteOf 'E') then
          skip
          readExponent negative significand dropped.length
        else if dropped.isEmpty then
          match integerNumber negative significand with
          | some value => return value
          | none => fail .numberOutOfRange
        else readReal negative significand dropped.length

/-- Whether another item follows in an array; `first` before the first one. -/
def anotherItem (first : Bool) : Reader Bool := do
  match ← peekToken with
  | none => failAtNext .endInArray
  | some byte =>
    if byte = byteOf ']' then return false
    else if first then return true
    else if byte = byteOf ',' then
      skip
      match ← peekToken with
      | none => failAtNext .endInValue
      | some byte => if byte = byteOf ']' then failAtNext .trailingComma else return true
    else failAtNext .expectedArrayEnd

/-- Whether another member follows in an object; `first` before the first one. -/
def anotherMember (first : Bool) : Reader Bool := do
  match ← peekToken with
  | none => failAtNext .endInObject
  | some byte =>
    if byte = byteOf '}' then return false
    else if first then if byte = byteOf '"' then return true else failAtNext .keyNotString
    else if byte = byteOf ',' then
      skip
      match ← peekToken with
      | none => failAtNext .endInValue
      | some byte =>
        if byte = byteOf '"' then return true
        else if byte = byteOf '}' then failAtNext .trailingComma
        else failAtNext .keyNotString
    else failAtNext .expectedObjectEnd

/-- Reads the name of a member. -/
def readKey : Reader String := do
  skip
  readString

/-- Passes the colon behind a name. -/
def readColon : Reader Unit := do
  match ← peekToken with
  | none => failAtNext .endInObject
  | some byte => if byte = byteOf ':' then skip else failAtNext .expectedColon

/-- Reads at most `steps` items and the closing bracket. -/
def readItems (item : Reader Json) : Nat → Bool → Reader (List Json)
  | 0, _ => pure []
  | steps + 1, first => do
    if ← anotherItem first then
      let value ← item
      return value :: (← readItems item steps false)
    else
      skip
      return []

/-- Reads at most `steps` members and the closing brace. -/
def readMembers (item : Reader Json) : Nat → Bool → Reader (List (String × Json))
  | 0, _ => pure []
  | steps + 1, first => do
    if ← anotherMember first then
      let name ← readKey
      readColon
      let value ← item
      return (name, value) :: (← readMembers item steps false)
    else
      skip
      return []

/-- How deep values may be nested. -/
def depthLimit : Nat := 127

/-- Reads a value, given how arrays and objects are read from their opening bracket. -/
def readWith (array object : Reader Json) : Reader Json := do
  match ← peekToken with
  | none => failAtNext .endInValue
  | some byte =>
    if byte = byteOf 'n' then
      skip
      readIdent ['u', 'l', 'l']
      return .null
    else if byte = byteOf 't' then
      skip
      readIdent ['r', 'u', 'e']
      return .bool true
    else if byte = byteOf 'f' then
      skip
      readIdent ['a', 'l', 's', 'e']
      return .bool false
    else if byte = byteOf '-' then
      skip
      return .number (← readNumber true)
    else if isDigitByte byte then return .number (← readNumber false)
    else if byte = byteOf '"' then
      skip
      return .text (← readString)
    else if byte = byteOf '[' then array
    else if byte = byteOf '{' then object
    else failAtNext .expectedValue

/-- Reads the items of an array from its opening bracket. -/
def readArray (item : Reader Json) : Reader (List Json) := do
  skip
  readItems item ((← remaining) + 1) true

/-- Reads the members of an object from its opening brace. -/
def readObject (item : Reader Json) : Reader Members := do
  skip
  return Members.ofList (← readMembers item ((← remaining) + 1) true)

/-- Reads a value with at most `depth` arrays and objects around its innermost part. -/
def readValue : Nat → Reader Json
  | 0 => readWith (failAtNext .recursionLimit) (failAtNext .recursionLimit)
  | depth + 1 =>
    readWith (Json.array <$> readArray (readValue depth))
      (Json.object <$> readObject (readValue depth))

/-- Nothing but blanks may follow a document. -/
def readEnd : Reader Unit := do
  match ← peekToken with
  | none => pure ()
  | some _ => failAtNext .trailingCharacters

/-- Reads a whole document. -/
def readDocument (document : Reader α) (bytes : List UInt8) : Except Fault α := do
  let (value, _) ← (do let value ← document; readEnd; return value : Reader α) ⟨bytes, 0⟩
  return value

def ofBytes (bytes : List UInt8) : Except Fault Json := readDocument (readValue depthLimit) bytes

end MessagePress.Json
