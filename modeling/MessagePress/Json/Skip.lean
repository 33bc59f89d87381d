import MessagePress.Json.Reader

/-! Passing over values nobody asks for. Their form is checked as it is passed, but neither
how deep they are nested, nor the range of their numbers, nor what the bytes and the escapes
of their strings stand for. -/

namespace MessagePress.Json

open Reader

/-- Passes the next byte if it is of a class, and fails behind it if it is not. -/
def skipByte (p : UInt8 → Bool) (cause : Cause) : Reader UInt8 := do
  match ← next with
  | none => fail cause
  | some byte => if p byte then return byte else fail cause

/-- Passes an escape behind its backslash. -/
def skipEscape : Reader Unit := do
  match ← next with
  | none => fail .endInString
  | some byte =>
    if (simpleEscape? byte).isSome then pure ()
    else if byte = byteOf 'u' then
      let _ ← readHexCode
    else fail .invalidEscape

/-- Passes a string behind its opening quote, in at most so many pieces. -/
def skipPieces : Nat → Reader Unit
  | 0 => fail .endInString
  | pieces + 1 => do
    let _ ← takeWhile isPlainByte
    match ← peek with
    | none => fail .endInString
    | some byte =>
      if byte = byteOf '"' then skip
      else if byte = byteOf '\\' then
        skip
        skipEscape
        skipPieces pieces
      else fail .controlCharacter

/-- Passes a string behind its opening quote. -/
def skipString : Reader Unit := do
  skipPieces ((← remaining) + 1)

/-- Passes an exponent if its letter follows. -/
def skipExponentIfAny : Reader Unit := do
  match ← peek with
  | some byte =>
    if byte = byteOf 'e' ∨ byte = byteOf 'E' then
      skip
      let sign ← peek
      if sign = some (byteOf '+') ∨ sign = some (byteOf '-') then skip
      let _ ← skipByte isDigitByte .invalidNumber
      let _ ← takeWhile isDigitByte
  | none => pure ()

/-- Passes a number behind its sign. -/
def skipNumber : Reader Unit := do
  let first ← skipByte isDigitByte .invalidNumber
  if first = byteOf '0' then
    if (← peek).any isDigitByte then failAtNext .invalidNumber
  else
    let _ ← takeWhile isDigitByte
  if (← peek) = some (byteOf '.') then
    skip
    let fraction ← takeWhile isDigitByte
    if fraction.isEmpty then failAtNext .invalidNumber
  skipExponentIfAny

/-- Passes at most `steps` items and the closing bracket. -/
def skipItems (item : Reader Unit) : Nat → Bool → Reader Unit
  | 0, _ => pure ()
  | steps + 1, first => do
    match ← peekToken with
    | none => failAtNext .endInArray
    | some byte =>
      if byte = byteOf ']' then skip
      else
        if !first then
          if byte = byteOf ',' then skip else failAtNext .expectedArrayEnd
        item
        skipItems item steps false

/-- Passes a name and the colon behind it. -/
def skipName : Reader Unit := do
  match ← peekToken with
  | none => failAtNext .endInObject
  | some byte =>
    if byte = byteOf '"' then
      skip
      skipString
      readColon
    else failAtNext .keyNotString

/-- Passes at most `steps` members and the closing brace. -/
def skipMembers (item : Reader Unit) : Nat → Bool → Reader Unit
  | 0, _ => pure ()
  | steps + 1, first => do
    match ← peekToken with
    | none => failAtNext .endInObject
    | some byte =>
      if byte = byteOf '}' then skip
      else
        if !first then
          if byte = byteOf ',' then skip else failAtNext .expectedObjectEnd
        skipName
        item
        skipMembers item steps false

/-- Passes a value, given how the values inside it are passed. -/
def skipWith (item : Reader Unit) : Reader Unit := do
  match ← peekToken with
  | none => failAtNext .endInValue
  | some byte =>
    if byte = byteOf 'n' then
      skip
      readIdent ['u', 'l', 'l']
    else if byte = byteOf 't' then
      skip
      readIdent ['r', 'u', 'e']
    else if byte = byteOf 'f' then
      skip
      readIdent ['a', 'l', 's', 'e']
    else if byte = byteOf '-' then
      skip
      skipNumber
    else if isDigitByte byte then skipNumber
    else if byte = byteOf '"' then
      skip
      skipString
    else if byte = byteOf '[' then
      skip
      skipItems item ((← remaining) + 1) true
    else if byte = byteOf '{' then
      skip
      skipMembers item ((← remaining) + 1) true
    else failAtNext .expectedValue

/-- Passes a value with at most `depth` levels inside it. -/
def skipLevels : Nat → Reader Unit
  | 0 => skipWith (fail .endInValue)
  | depth + 1 => skipWith (skipLevels depth)

/-- Passes a value; it cannot have more levels than bytes. -/
def skipValue : Reader Unit := do
  skipLevels (← remaining)

end MessagePress.Json
