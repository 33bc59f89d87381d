import MessagePress.Yaml.Token.Directive
import MessagePress.Yaml.Token.Scalar

/-! The tokens of a source in order. Indentation is turned into tokens that open and close
blocks. Where a token may turn out to be a key only when a colon follows it, its place is
remembered, and the tokens that open the mapping and the key are put in there later. -/

namespace MessagePress.Yaml

/-- A token, by its number, that may be a key without a mark of its own. A required one stands
where only a key can stand. -/
structure PossibleKey where
  number : Nat
  required : Bool
  mark : Mark

/-- The tokens so far, newest first, with their count, and the open blocks. There is one
possible key for each open bracket and one for the block around them, innermost first. -/
structure Layout where
  tokens : List Token := []
  count : Nat := 0
  indent : Int := -1
  indents : List Int := []
  keyAllowed : Bool := true
  keys : List (Option PossibleKey) := [none]

abbrev Lex (α : Type) := StateT Layout Scan α

/-- Puts a token in behind so many of the newest ones. -/
def Layout.insert (newer : Nat) (token : Token) (layout : Layout) : Layout :=
  { layout with
    tokens := layout.tokens.take newer ++ token :: layout.tokens.drop newer
    count := layout.count + 1 }

namespace Lex

open Scan

def inFlow : Lex Bool := do
  return 1 < (← get).keys.length

def emit (kind : TokenKind) (start stop : Mark) : Lex Unit :=
  modify (Layout.insert 0 ⟨kind, start, stop⟩)

/-- Puts a token of no extent in before the one of that number. -/
def insertAt (number : Nat) (kind : TokenKind) (mark : Mark) : Lex Unit :=
  modify fun layout => layout.insert (layout.count - number) ⟨kind, mark, mark⟩

def setKeyAllowed (allowed : Bool) : Lex Unit :=
  modify fun layout => { layout with keyAllowed := allowed }

/-- Opens a block at a column that is deeper than the present one; its first token goes in
before a given one, or to the end. -/
def openBlock (column : Nat) (number : Option Nat) (kind : TokenKind) (mark : Mark) :
    Lex Unit := do
  let layout ← get
  if !(← inFlow) && layout.indent < column then
    set { layout with indent := column, indents := layout.indent :: layout.indents }
    match number with
    | some number => insertAt number kind mark
    | none => emit kind mark mark

/-- Closes blocks while they are deeper than a column. -/
def closeDeeper (column : Int) (mark : Mark) : List Int → Layout → Layout
  | [], layout => layout
  | outer :: rest, layout =>
    if column < layout.indent then
      closeDeeper column mark rest { layout.insert 0 ⟨.blockEnd, mark, mark⟩ with
        indent := outer
        indents := rest }
    else layout

def closeBlocks (column : Int) : Lex Unit := do
  if !(← inFlow) then
    let mark ← here
    modify fun layout => closeDeeper column mark layout.indents layout

/-- A key is on one line and no longer than this. -/
def maxKeyLength : Nat := 1024

def isStale (mark : Mark) (key : PossibleKey) : Bool :=
  key.mark.line < mark.line || key.mark.index + maxKeyLength < mark.index

/-- Gives up possible keys that have become too long. -/
def dropStaleKeys : Lex Unit := do
  let mark ← here
  let layout ← get
  match (layout.keys.reverse.filterMap id).find? fun key => isStale mark key && key.required with
  | some key => malformed .missingColon (some (.simpleKey, key.mark))
  | none =>
    let fresh (key : Option PossibleKey) := key.filter fun key => !isStale mark key
    set { layout with keys := layout.keys.map fresh }

/-- Gives up the innermost possible key. -/
def dropKey : Lex Unit := do
  let layout ← get
  match layout.keys with
  | some key :: rest =>
    if key.required then malformed .missingColon (some (.simpleKey, key.mark))
    else set { layout with keys := none :: rest }
  | _ => pure ()

/-- Remembers that the next token may be a key. -/
def saveKey : Lex Unit := do
  let layout ← get
  if layout.keyAllowed then
    let mark ← here
    let required := !(← inFlow) && layout.indent == (mark.column : Int)
    dropKey
    modify fun layout =>
      { layout with keys := some ⟨layout.count, required, mark⟩ :: layout.keys.drop 1 }

/-- Passes blanks, comments and line breaks. Tabs are blanks only where no key can start. -/
def skipToToken : Nat → Lex Unit
  | 0 => pure ()
  | steps + 1 => do
    need 1
    if (← here).index = 0 ∧ (← peek) = '\ufeff' then skip 1
    let tabs := (← inFlow) || !(← get).keyAllowed
    skipWhile fun c => c == ' ' || (tabs && c == '\t')
    skipComment
    if isBreak (← peek) then
      need 2
      skipBreak
      if !(← inFlow) then setKeyAllowed true
      skipToToken steps

/-- A token of so many characters that are its indicator. -/
def emitIndicator (length : Nat) (kind : TokenKind) : Lex Unit := do
  let start ← here
  skip length
  emit kind start (← here)

def emitToken (token : Token) : Lex Unit := emit token.kind token.start token.stop

def streamEnd : Lex Unit := do
  modifyThe Cursor fun cursor =>
    let mark := cursor.mark
    { cursor with mark := if mark.column = 0 then mark else ⟨mark.index, mark.line + 1, 0⟩ }
  closeBlocks (-1)
  dropKey
  setKeyAllowed false
  emitIndicator 0 .streamEnd

def directive : Lex Unit := do
  closeBlocks (-1)
  dropKey
  setKeyAllowed false
  emitToken (← readDirective)

def documentIndicator (kind : TokenKind) : Lex Unit := do
  closeBlocks (-1)
  dropKey
  setKeyAllowed false
  emitIndicator 3 kind

def flowStart (kind : TokenKind) : Lex Unit := do
  saveKey
  modify fun layout => { layout with keys := none :: layout.keys, keyAllowed := true }
  emitIndicator 1 kind

def flowEnd (kind : TokenKind) : Lex Unit := do
  dropKey
  if ← inFlow then modify fun layout => { layout with keys := layout.keys.drop 1 }
  setKeyAllowed false
  emitIndicator 1 kind

def flowEntry : Lex Unit := do
  dropKey
  setKeyAllowed true
  emitIndicator 1 .flowEntry

def blockEntry : Lex Unit := do
  if !(← inFlow) then
    if !(← get).keyAllowed then malformed .blockEntryNotAllowed none
    let mark ← here
    openBlock mark.column none .blockSequenceStart mark
  dropKey
  setKeyAllowed true
  emitIndicator 1 .blockEntry

def key : Lex Unit := do
  let flow ← inFlow
  if !flow then
    if !(← get).keyAllowed then malformed .mappingKeyNotAllowed none
    let mark ← here
    openBlock mark.column none .blockMappingStart mark
  dropKey
  setKeyAllowed (!flow)
  emitIndicator 1 .key

def value : Lex Unit := do
  let flow ← inFlow
  match (← get).keys with
  | some key :: rest =>
    insertAt key.number .key key.mark
    openBlock key.mark.column (some key.number) .blockMappingStart key.mark
    modify fun layout => { layout with keys := none :: rest, keyAllowed := false }
  | _ =>
    if !flow then
      if !(← get).keyAllowed then malformed .mappingValueNotAllowed none
      let mark ← here
      openBlock mark.column none .blockMappingStart mark
    setKeyAllowed (!flow)
  emitIndicator 1 .value

/-- A token that may be a key. -/
def keyToken (read : Scan Token) : Lex Unit := do
  saveKey
  setKeyAllowed false
  emitToken (← read)

def blockScalar (literal : Bool) : Lex Unit := do
  dropKey
  setKeyAllowed true
  emitToken (← readBlock literal (← get).indent)

def plainScalar : Lex Unit := do
  saveKey
  setKeyAllowed false
  let (token, broken) ← readPlain (← inFlow) ((← get).indent + 1).toNat
  emitToken token
  if broken then setKeyAllowed true

/-- Characters that a plain scalar does not start with. -/
def isIndicator (c : Char) : Bool :=
  ['-', '?', ':', ',', '[', ']', '{', '}', '#', '&', '*', '!', '|', '>', '\x27', '"', '%', '@',
    '\x60'].contains c

/-- Whether a plain scalar starts with a character and the one behind it. -/
def startsPlain (flow : Bool) (c following : Char) : Bool :=
  !(isBlankOrEnd c || isIndicator c) || (c == '-' && !isBlank following) ||
    (!flow && (c == '?' || c == ':') && !isBlankOrEnd following)

/-- Reads the next token and those that its place calls for. The result tells whether the
source has ended. -/
def nextToken : Lex Bool := do
  skipToToken ((← remaining) + 1)
  dropStaleKeys
  closeBlocks (← here).column
  need 4
  let c ← peek
  let following ← peekAt 1
  let flow ← inFlow
  let lineStart := (← here).column == 0
  if isEnd c then
    streamEnd
    dropStaleKeys
    return true
  else
    if lineStart && c == '%' then directive
    else if ← atDocumentIndicator '-' then documentIndicator .documentStart
    else if ← atDocumentIndicator '.' then documentIndicator .documentEnd
    else if c = '[' then flowStart .flowSequenceStart
    else if c = '{' then flowStart .flowMappingStart
    else if c = ']' then flowEnd .flowSequenceEnd
    else if c = '}' then flowEnd .flowMappingEnd
    else if c = ',' then flowEntry
    else if c == '-' && isBlankOrEnd following then blockEntry
    else if c == '?' && (flow || isBlankOrEnd following) then key
    else if c == ':' && (flow || isBlankOrEnd following) then value
    else if c = '*' then keyToken (readName .alias .alias)
    else if c = '&' then keyToken (readName .anchor .anchor)
    else if c = '!' then keyToken (readTag flow)
    else if c == '|' && !flow then blockScalar true
    else if c == '>' && !flow then blockScalar false
    else if c = '\x27' then keyToken (readQuoted true)
    else if c = '"' then keyToken (readQuoted false)
    else if startsPlain flow c following then plainScalar
    else malformed .cannotStartToken (some (.nextToken, ← here))
    dropStaleKeys
    return false

end Lex

/-- The tokens that can be told for certain, and why there are no more if the source does not
end with the last of them. -/
structure TokenStream where
  tokens : List Token
  fault : Option SyntaxFault

/-- Tokens before the first one that may yet turn out to be a key. -/
def Layout.settled (layout : Layout) : List Token :=
  let numbers := (layout.keys.filterMap id).map (·.number)
  let tokens := layout.tokens.reverse
  match numbers.min? with
  | some number => tokens.take number
  | none => tokens

/-- Reads at most `steps` tokens. -/
def readTokens : Nat → Layout → Cursor → TokenStream
  | 0, layout, _ => ⟨layout.tokens.reverse, none⟩
  | steps + 1, layout, cursor =>
    match Lex.nextToken.run layout cursor with
    | .error fault => ⟨layout.settled, some fault⟩
    | .ok ((true, layout), _) => ⟨layout.tokens.reverse, none⟩
    | .ok ((false, layout), cursor) => readTokens steps layout cursor

def TokenStream.ofSource (source : Source) : TokenStream :=
  readTokens (source.chars.length + 2) {} source.start

end MessagePress.Yaml
