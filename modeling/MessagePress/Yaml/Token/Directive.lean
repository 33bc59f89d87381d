import MessagePress.Text.Integer
import MessagePress.Yaml.Token

/-! Reading directives, anchors, aliases and tags. -/

namespace MessagePress.Yaml.Scan

open Text.Utf8 (encode)

/-- The context of faults in a tag, by whether it stands in a directive. -/
def uriContext (directive : Bool) : Context := if directive then .tagDirectiveUri else .tagUri

/-- Reads the handle of a tag: an exclamation mark, a word, and a second mark if one follows. -/
def readTagHandle (directive : Bool) (start : Mark) : Scan (List Char) := do
  need 1
  if (← peek) ≠ '!' then
    malformed .missingExclamation
      (some (if directive then .tagDirectiveHandle else .tag, start))
  else
    skip 1
    let word ← takeWhile isWordChar
    if (← peek) = '!' then
      skip 1
      return '!' :: word ++ ['!']
    else if directive && !word.isEmpty then
      malformed .missingExclamation (some (.tagDirectiveHandleEnd, start))
    else return '!' :: word

/-- The length of an encoded character by its first byte. -/
def octetsFrom? (first : Nat) : Option Nat := (sequenceHead? first).map (·.1)

/-- Reads one byte written as a percent sign and two digits. -/
def readOctet (directive : Bool) (start : Mark) : Scan Nat := do
  need 3
  match ← peek, Text.digitValue? 16 (← peekAt 1), Text.digitValue? 16 (← peekAt 2) with
  | '%', some high, some low => return high * 16 + low
  | _, _, _ => malformed .missingUriOctet (some (uriContext directive, start))

/-- Reads the further bytes of an escaped character. -/
def readTrailingOctets (directive : Bool) (start : Mark) : Nat → Scan (List UInt8)
  | 0 => pure []
  | count + 1 => do
    let octet ← readOctet directive start
    if octet / 64 ≠ 2 then malformed .uriTrailingOctet (some (uriContext directive, start))
    else
      skip 3
      return UInt8.ofNat octet :: (← readTrailingOctets directive start count)

/-- Reads an escaped character, one escape for each of its bytes. -/
def readUriEscapes (directive : Bool) (start : Mark) : Scan (List UInt8) := do
  let first ← readOctet directive start
  match octetsFrom? first with
  | none => malformed .uriLeadingOctet (some (uriContext directive, start))
  | some width =>
    skip 3
    return UInt8.ofNat first :: (← readTrailingOctets directive start (width - 1))

/-- The characters of a tag; three more are allowed where it stands in angles or a directive. -/
def isUriChar (verbatim : Bool) (c : Char) : Bool :=
  isWordChar c || [';', '/', '?', ':', '@', '&', '=', '+', '$', '.', '%', '!', '~', '*', '\x27',
    '(', ')'].contains c || (verbatim && [',', '[', ']'].contains c)

/-- Reads the characters of a tag in at most so many steps. -/
def readUriChars (verbatim directive : Bool) (start : Mark) : Nat → Scan (List UInt8)
  | 0 => pure []
  | steps + 1 => do
    let c ← peek
    if !isUriChar verbatim c then return []
    else if c = '%' then
      let escaped ← readUriEscapes directive start
      need 1
      return escaped ++ (← readUriChars verbatim directive start steps)
    else
      skip 1
      need 1
      return encode [c] ++ (← readUriChars verbatim directive start steps)

/-- Reads a tag behind what is known of it already, the handle's mark apart. -/
def readUri (verbatim directive : Bool) (head : List Char) (start : Mark) :
    Scan (List UInt8) := do
  need 1
  let read ← readUriChars verbatim directive start ((← remaining) + 1)
  if read.isEmpty && head.isEmpty then
    malformed .missingTagUri (some (uriContext directive, start))
  else return encode (head.drop 1) ++ read

/-- Reads a tag: one in angles, a suffix behind a named handle, or a suffix alone. The tag of a
single mark stands for itself. -/
def readTag (flow : Bool) : Scan Token := do
  let start ← here
  need 2
  let (handle, suffix) ←
    if (← peekAt 1) = '<' then
      skip 2
      let suffix ← readUri true false [] start
      if (← peek) ≠ '>' then malformed .missingTagEnd (some (.tag, start))
      else
        skip 1
        pure ([], suffix)
    else
      let handle ← readTagHandle false start
      if 1 < handle.length ∧ handle.getLast? = some '!' then
        pure (handle, ← readUri false false [] start)
      else
        let suffix ← readUri false false handle start
        if suffix.isEmpty then pure ([], encode ['!']) else pure (['!'], suffix)
  need 1
  let c ← peek
  if (flow && c == ',') || isBlankOrEnd c then
    return ⟨.tag (encode handle) suffix, start, ← here⟩
  else malformed .missingWhitespaceOrBreak (some (.tag, start))

/-- Characters that may follow a name without a blank between. -/
def endsName (c : Char) : Bool :=
  isBlankOrEnd c || ['?', ':', ',', ']', '}', '%', '@', '\x60'].contains c

/-- Reads an anchor or an alias. -/
def readName (context : Context) (kind : List Char → TokenKind) : Scan Token := do
  let start ← here
  skip 1
  let name ← takeWhile isWordChar
  if name.isEmpty || !endsName (← peek) then
    malformed .missingNameCharacter (some (context, start))
  else return ⟨kind name, start, ← here⟩

/-- The longest version number that is read. -/
def maxVersionDigits : Nat := 9

def readVersionNumber (start : Mark) : Scan Nat := do
  need 1
  let cursor ← get
  let digits := cursor.rest.takeWhile Char.isDigit
  if maxVersionDigits < digits.length then
    skip maxVersionDigits
    malformed .longVersionNumber (some (.yamlDirective, start))
  else
    skip digits.length
    need 1
    if digits.isEmpty then malformed .missingVersionNumber (some (.yamlDirective, start))
    else return digits.foldl (fun value c => value * 10 + (c.toNat - '0'.toNat)) 0

def readVersionDirective (start : Mark) : Scan TokenKind := do
  skipWhile isBlank
  let major ← readVersionNumber start
  if (← peek) ≠ '.' then malformed .versionSeparator (some (.yamlDirective, start))
  else
    skip 1
    let minor ← readVersionNumber start
    return .versionDirective major minor

def readTagDirective (start : Mark) : Scan TokenKind := do
  skipWhile isBlank
  let handle ← readTagHandle true start
  need 1
  if !isBlank (← peek) then malformed .missingWhitespace (some (.tagDirective, start))
  else
    skipWhile isBlank
    let uri ← readUri true true [] start
    need 1
    if !isBlankOrEnd (← peek) then
      malformed .missingWhitespaceOrBreak (some (.tagDirective, start))
    else return .tagDirective (encode handle) uri

def readDirectiveName (start : Mark) : Scan (List Char) := do
  let name ← takeWhile isWordChar
  if name.isEmpty then malformed .emptyDirectiveName (some (.directive, start))
  else if !isBlankOrEnd (← peek) then
    malformed .directiveNameCharacter (some (.directive, start))
  else return name

/-- Reads a directive and the rest of its line. -/
def readDirective : Scan Token := do
  let start ← here
  skip 1
  let name ← readDirectiveName start
  let kind ←
    if name = ['Y', 'A', 'M', 'L'] then readVersionDirective start
    else if name = ['T', 'A', 'G'] then readTagDirective start
    else malformed .unknownDirective (some (.directive, start))
  let stop ← here
  skipWhile isBlank
  skipComment
  if !isBreakOrEnd (← peek) then
    malformed .trailingDirectiveText (some (.directive, start))
  else
    if isBreak (← peek) then
      need 2
      skipBreak
    return ⟨kind, start, stop⟩

end MessagePress.Yaml.Scan
