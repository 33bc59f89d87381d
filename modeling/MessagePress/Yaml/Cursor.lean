import MessagePress.Yaml.Source

/-! A reading position in a source. Looking ahead past the readable characters fails; past
the end of the source stands a null character, which no document holds. -/

namespace MessagePress.Yaml

/-- What is left of a source of so many characters, and the place in it. -/
structure Cursor where
  rest : List Char
  size : Nat
  broken : Option SyntaxFault
  mark : Mark

def Source.start (source : Source) : Cursor :=
  ⟨source.chars, source.chars.length, source.broken, Mark.start⟩

/-- A step that moves a position forward. -/
abbrev Scan (α : Type) := StateT Cursor (Except SyntaxFault) α

def isBlank (c : Char) : Bool := c == ' ' || c == '\t'

/-- Line feed, carriage return, next line, and the separators of lines and paragraphs. -/
def isBreak (c : Char) : Bool :=
  c == '\n' || c == '\r' || c == '\u0085' || c == '\u2028' || c == '\u2029'

def isEnd (c : Char) : Bool := c == '\x00'

def isBreakOrEnd (c : Char) : Bool := isBreak c || isEnd c

def isBlankOrEnd (c : Char) : Bool := isBlank c || isBreakOrEnd c

/-- ASCII letters and digits, underscore and hyphen. -/
def isWordChar (c : Char) : Bool := c.isAlphanum || c == '_' || c == '-'

namespace Scan

/-- So many characters have to be readable, unless the source ends before. -/
def need (count : Nat) : Scan Unit := fun cursor =>
  match cursor.broken with
  | some fault => if cursor.rest.length < count then .error fault else .ok ((), cursor)
  | none => .ok ((), cursor)

/-- The character some places ahead. -/
def peekAt (place : Nat) : Scan Char := fun cursor =>
  .ok ((cursor.rest.drop place).headD '\x00', cursor)

def peek : Scan Char := peekAt 0

def here : Scan Mark := fun cursor => .ok (cursor.mark, cursor)

def malformed (problem : Problem) (context : Option (Context × Mark)) : Scan α := do
  throw (.malformed problem (← here) context)

/-- Passes characters of one line. -/
def skip (count : Nat) : Scan Unit := fun cursor =>
  let mark := cursor.mark
  .ok ((), { cursor with
    rest := cursor.rest.drop count
    mark := { mark with index := mark.index + count, column := mark.column + count } })

/-- Passes a line break, if there is one, and gives it as a text keeps it: the usual breaks
all become line feeds. -/
def readBreak : Scan (List Char) := fun cursor =>
  let mark := cursor.mark
  let passed (count : Nat) : Cursor := { cursor with
    rest := cursor.rest.drop count
    mark := ⟨mark.index + count, mark.line + 1, 0⟩ }
  match cursor.rest with
  | '\r' :: '\n' :: _ => .ok (['\n'], passed 2)
  | c :: _ =>
    if c = '\n' ∨ c = '\r' ∨ c = '\u0085' then .ok (['\n'], passed 1)
    else if isBreak c then .ok ([c], passed 1)
    else .ok ([], cursor)
  | [] => .ok ([], cursor)

def skipBreak : Scan Unit := do
  let _ ← readBreak

/-- Passes characters of one line while they are of a class, and gives them. -/
def takeWhile (p : Char → Bool) : Scan (List Char) := do
  need 1
  let cursor ← get
  let taken := cursor.rest.takeWhile p
  skip taken.length
  need 1
  return taken

def skipWhile (p : Char → Bool) : Scan Unit := do
  let _ ← takeWhile p

/-- Passes a comment, if there is one. -/
def skipComment : Scan Unit := do
  if (← peek) = '#' then skipWhile fun c => !isBreakOrEnd c

/-- How many characters are left, told by the place; no loop over them takes more steps. -/
def remaining : Scan Nat := fun cursor => .ok (cursor.size - cursor.mark.index, cursor)

/-- Whether a line starts here with three of a character and nothing joined to them. -/
def atDocumentIndicator (c : Char) : Scan Bool := do
  let mark ← here
  return mark.column = 0 && (← peek) == c && (← peekAt 1) == c && (← peekAt 2) == c &&
    isBlankOrEnd (← peekAt 3)

end Scan

end MessagePress.Yaml
