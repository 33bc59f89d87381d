import MessagePress.Text.Integer
import MessagePress.Yaml.Token

/-! Reading scalars. A line break inside a plain or quoted scalar is folded to a space, and
further breaks behind it are kept. Block scalars keep their breaks or fold them between
lines that are not indented further. -/

namespace MessagePress.Yaml.Scan

/-- Blanks and breaks gathered between two pieces of a scalar: the blanks before a first
break, that break, and the breaks behind it. -/
structure Gap where
  blanks : List Char := []
  first : List Char := []
  more : List Char := []
  broken : Bool := false

/-- What a gap stands for in the text. -/
def Gap.text (gap : Gap) : List Char :=
  if gap.broken then
    if gap.first.head? = some '\n' then if gap.more.isEmpty then [' '] else gap.more
    else gap.first ++ gap.more
  else gap.blanks

/-- Adds a line break to a gap. -/
def Gap.addBreak (gap : Gap) (lineBreak : List Char) : Gap :=
  if gap.broken then { gap with more := gap.more ++ lineBreak }
  else { gap with blanks := [], first := lineBreak, broken := true }

/-- Gathers blanks and breaks. `checkTab` sees each blank before it is passed. -/
def readGap (checkTab : Gap → Scan Unit) : Nat → Gap → Scan Gap
  | 0, gap => pure gap
  | steps + 1, gap => do
    let c ← peek
    if isBlank c then
      checkTab gap
      skip 1
      need 1
      readGap checkTab steps (if gap.broken then gap else { gap with blanks := gap.blanks ++ [c] })
    else if isBreak c then
      need 2
      let lineBreak ← readBreak
      need 1
      readGap checkTab steps (gap.addBreak lineBreak)
    else return gap

/-- The character that an escape of one letter stands for. -/
def simpleEscape? : Char → Option Char
  | '0' => some '\x00'
  | 'a' => some '\x07'
  | 'b' => some '\x08'
  | 't' | '\t' => some '\t'
  | 'n' => some '\n'
  | 'v' => some '\x0b'
  | 'f' => some '\x0c'
  | 'r' => some '\r'
  | 'e' => some '\x1b'
  | ' ' => some ' '
  | '"' => some '"'
  | '/' => some '/'
  | '\\' => some '\\'
  | 'N' => some '\u0085'
  | '_' => some '\u00a0'
  | 'L' => some '\u2028'
  | 'P' => some '\u2029'
  | _ => none

/-- The number of digits behind an escape that gives a code. -/
def codeEscapeLength? : Char → Option Nat
  | 'x' => some 2
  | 'u' => some 4
  | 'U' => some 8
  | _ => none

/-- The value of the next digits, none of which is passed. -/
def hexAhead (start : Mark) : (digits place value : Nat) → Scan Nat
  | 0, _, value => pure value
  | digits + 1, place, value => do
    match Text.digitValue? 16 (← peekAt place) with
    | some digit => hexAhead start digits (place + 1) (value * 16 + digit)
    | none => malformed .missingHexDigits (some (.quotedEscape, start))

/-- Reads an escape from its backslash. -/
def readEscape (start : Mark) : Scan Char := do
  let letter ← peekAt 1
  match simpleEscape? letter, codeEscapeLength? letter with
  | some c, _ =>
    skip 2
    return c
  | none, some digits =>
    skip 2
    need digits
    let code ← hexAhead start digits 0 0
    if (0xd800 ≤ code ∧ code ≤ 0xdfff) ∨ 0x10ffff < code then
      malformed .invalidEscapeCode (some (.quotedEscape, start))
    else
      skip digits
      return Char.ofNat code
  | none, none => malformed .unknownEscape (some (.quotedEscape, start))

/-- Reads characters up to a blank, a break or the closing quote, in at most so many steps.
The flag tells that the piece ended in an escaped line break. -/
def readQuotedPiece (single : Bool) (start : Mark) : Nat → Scan (List Char × Bool)
  | 0 => pure ([], false)
  | steps + 1 => do
    let c ← peek
    if isBlankOrEnd c then return ([], false)
    else if single && c == '\x27' && (← peekAt 1) == '\x27' then
      skip 2
      need 2
      let (rest, escaped) ← readQuotedPiece single start steps
      return ('\x27' :: rest, escaped)
    else if c = (if single then '\x27' else '"') then return ([], false)
    else if !single && c == '\\' && isBreak (← peekAt 1) then
      need 3
      skip 1
      skipBreak
      return ([], true)
    else if !single && c == '\\' then
      let c ← readEscape start
      need 2
      let (rest, escaped) ← readQuotedPiece single start steps
      return (c :: rest, escaped)
    else
      skip 1
      need 2
      let (rest, escaped) ← readQuotedPiece single start steps
      return (c :: rest, escaped)

/-- Reads pieces and the gaps between them up to the closing quote. -/
def readQuotedPieces (single : Bool) (start : Mark) : Nat → Scan (List Char)
  | 0 => pure []
  | steps + 1 => do
    need 4
    if (← atDocumentIndicator '-') || (← atDocumentIndicator '.') then
      malformed .documentIndicator (some (.quotedScalar, start))
    else if isEnd (← peek) then malformed .endOfStream (some (.quotedScalar, start))
    else
      need 2
      let (piece, escaped) ← readQuotedPiece single start ((← remaining) + 1)
      need 1
      if (← peek) = (if single then '\x27' else '"') then return piece
      else
        let gap ← readGap (fun _ => pure ()) ((← remaining) + 1) { broken := escaped }
        return piece ++ gap.text ++ (← readQuotedPieces single start steps)

/-- Reads a quoted scalar from its opening quote. -/
def readQuoted (single : Bool) : Scan Token := do
  let start ← here
  skip 1
  let text ← readQuotedPieces single start ((← remaining) + 1)
  skip 1
  return ⟨.scalar text (if single then .singleQuoted else .doubleQuoted), start, ← here⟩

def isFlowIndicator (c : Char) : Bool :=
  c == ',' || c == '[' || c == ']' || c == '{' || c == '}'

/-- Reads the characters of a plain scalar up to a blank, a break or an indicator. -/
def readPlainPiece (flow : Bool) (start : Mark) : Nat → Scan (List Char)
  | 0 => pure []
  | steps + 1 => do
    let c ← peek
    let following ← peekAt 1
    if isBlankOrEnd c then return []
    else if flow && c == ':' && (isFlowIndicator following || following == '?') then
      malformed .unexpectedColon (some (.plainScalar, start))
    else if (c == ':' && isBlankOrEnd following) || (flow && isFlowIndicator c) then return []
    else
      skip 1
      need 2
      return c :: (← readPlainPiece flow start steps)

/-- What reading a plain scalar gives: its text, its end, and whether a line break follows. -/
structure PlainText where
  text : List Char
  stop : Mark
  broken : Bool

/-- Reads pieces and the gaps between them. `indent` is the least column of later lines. -/
def readPlainPieces (flow : Bool) (indent : Nat) (start : Mark) :
    Nat → Gap → PlainText → Scan PlainText
  | 0, _, plain => pure plain
  | steps + 1, gap, plain => do
    need 4
    if (← atDocumentIndicator '-') || (← atDocumentIndicator '.') then return plain
    else if (← peek) = '#' then return plain
    else
      let piece ← readPlainPiece flow start ((← remaining) + 1)
      let stop ← here
      let plain : PlainText :=
        if piece.isEmpty then plain else ⟨plain.text ++ gap.text ++ piece, stop, false⟩
      let gap : Gap := if piece.isEmpty then gap else {}
      let c ← peek
      if !(isBlank c || isBreak c) then return plain
      else
        need 1
        let checkTab (gap : Gap) : Scan Unit := do
          let mark ← here
          if gap.broken && mark.column < indent && (← peek) == '\t' then
            malformed .tabViolatesIndentation (some (.plainScalar, start))
        let gap ← readGap checkTab ((← remaining) + 1) gap
        let plain := { plain with broken := gap.broken }
        if !flow && (← here).column < indent then return plain
        else readPlainPieces flow indent start steps gap plain

/-- Reads a plain scalar; the flag tells that it ends in a line break. -/
def readPlain (flow : Bool) (indent : Nat) : Scan (Token × Bool) := do
  let start ← here
  let plain ← readPlainPieces flow indent start ((← remaining) + 1) {} ⟨[], start, false⟩
  return (⟨.scalar plain.text .plain, start, plain.stop⟩, plain.broken)

/-- What happens to the line breaks at the end of a block scalar. -/
inductive Chomping
  | strip
  | clip
  | keep
  deriving DecidableEq, Repr

def chomping? : Char → Option Chomping
  | '+' => some .keep
  | '-' => some .strip
  | _ => none

def readIndentDigit (start : Mark) : Scan Nat := do
  let c ← peek
  if c = '0' then malformed .zeroIndentation (some (.blockScalar, start))
  else
    skip 1
    return c.toNat - '0'.toNat

/-- Reads the indicators behind the bar or the angle: how to chomp, and the indentation if it
is given, in either order. -/
def readBlockHeader (start : Mark) : Scan (Chomping × Option Nat) := do
  need 1
  let c ← peek
  match chomping? c with
  | some chomping =>
    skip 1
    need 1
    if (← peek).isDigit then return (chomping, some (← readIndentDigit start))
    else return (chomping, none)
  | none =>
    if c.isDigit then
      let indent ← readIndentDigit start
      need 1
      match chomping? (← peek) with
      | some chomping =>
        skip 1
        return (chomping, some indent)
      | none => return (.clip, some indent)
    else return (.clip, none)

/-- Reads line breaks and the indentation behind each, up to a line that is not blank. An
indentation of zero is not known yet; then the deepest column met is given as well. -/
def readBlockBreaks (start : Mark) (indent : Nat) :
    Nat → (deepest : Nat) → (breaks : List Char) → (stop : Mark) → Scan (Nat × List Char × Mark)
  | 0, deepest, breaks, stop => pure (deepest, breaks, stop)
  | steps + 1, deepest, breaks, stop => do
    need 1
    let column := (← here).column
    let cursor ← get
    let spaces := (cursor.rest.takeWhile (· == ' ')).length
    let count := if indent = 0 then spaces else min spaces (indent - column)
    skip count
    need 1
    let column := (← here).column
    let deepest := max deepest column
    let c ← peek
    if (indent = 0 || column < indent) && c == '\t' then
      malformed .tabIndentation (some (.blockScalar, start))
    else if !isBreak c then return (deepest, breaks, stop)
    else
      need 2
      let lineBreak ← readBreak
      readBlockBreaks start indent steps deepest (breaks ++ lineBreak) (← here)

/-- Reads the lines of a block scalar. `lineBreak` ended the line before, `breaks` follow it,
and `blank` tells that that line began with a blank. -/
def readBlockLines (literal : Bool) (start : Mark) (indent : Nat) :
    Nat → (text lineBreak breaks : List Char) → (blank : Bool) → (stop : Mark) →
      Scan (List Char × List Char × List Char × Mark)
  | 0, text, lineBreak, breaks, _, stop => pure (text, lineBreak, breaks, stop)
  | steps + 1, text, lineBreak, breaks, blank, stop => do
    need 1
    if (← here).column ≠ indent ∨ isEnd (← peek) then return (text, lineBreak, breaks, stop)
    else
      let nowBlank := isBlank (← peek)
      let joined :=
        if !literal && lineBreak.head? == some '\n' && !blank && !nowBlank then
          if breaks.isEmpty then [' '] else []
        else lineBreak
      let line ← takeWhile fun c => !isBreakOrEnd c
      need 2
      let lineEnd ← readBreak
      let (_, more, stop) ← readBlockBreaks start indent ((← remaining) + 1) 0 [] (← here)
      readBlockLines literal start indent steps (text ++ joined ++ breaks ++ line) lineEnd more
        nowBlank stop

/-- Reads a block scalar from its indicator, inside a block of the given indentation. -/
def readBlock (literal : Bool) (parent : Int) : Scan Token := do
  let start ← here
  skip 1
  let (chomping, given) ← readBlockHeader start
  skipWhile isBlank
  skipComment
  if !isBreakOrEnd (← peek) then
    malformed .missingCommentOrBreak (some (.blockScalar, start))
  else
    if isBreak (← peek) then
      need 2
      skipBreak
    let indent := match given with
      | none => 0
      | some columns => if 0 ≤ parent then parent.toNat + columns else columns
    let (deepest, breaks, stop) ← readBlockBreaks start indent ((← remaining) + 1) 0 [] (← here)
    let indent := if indent = 0 then max (max deepest (parent + 1).toNat) 1 else indent
    let (text, lineBreak, breaks, stop) ←
      readBlockLines literal start indent ((← remaining) + 1) [] [] breaks false stop
    let lastBreak := if chomping = .strip then [] else lineBreak
    let kept := if chomping = .keep then breaks else []
    let style := if literal then ScalarStyle.literal else .folded
    return ⟨.scalar (text ++ lastBreak ++ kept) style, start, stop⟩

end MessagePress.Yaml.Scan
