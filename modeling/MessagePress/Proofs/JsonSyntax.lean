import MessagePress.Json.Skip

/-! The written form of documents: strings with their escapes, other scalars as they are spelled,
and the marks between values. Blanks may stand between any two of these. -/

namespace MessagePress.Proofs.JsonSyntax
open Json (simpleEscape? byteOf)

/-- A part of a string: a character that stands for itself, an escape of one letter, or one of
four digits. -/
inductive Piece
  | plain (c : Char)
  | letter (c : Char)
  | code (a b c d : Char)

/-- The number of four hexadecimal digits. -/
def hexCode? (a b c d : Char) : Option Nat := do
  return (((← Text.digitValue? 16 a) * 16 + (← Text.digitValue? 16 b)) * 16 +
    (← Text.digitValue? 16 c)) * 16 + (← Text.digitValue? 16 d)

def isSurrogate (code : Nat) : Bool := 0xd800 ≤ code && code ≤ 0xdfff

def isPlain (c : Char) : Bool := 0x20 ≤ c.toNat && c != '"' && c != '\\'

namespace Piece

def text : Piece → List Char
  | plain c => [c]
  | letter c => ['\\', c]
  | code a b c d => ['\\', 'u', a, b, c, d]

def Formed : Piece → Prop
  | plain c => isPlain c = true
  | letter c => c.toNat < 0x80 ∧ (simpleEscape? (byteOf c)).isSome
  | code a b c d => (hexCode? a b c d).isSome

/-- The character that a part stands for by itself. -/
def char? : Piece → Option Char
  | plain c => some c
  | letter c => simpleEscape? (byteOf c)
  | code a b c d => ((hexCode? a b c d).filter fun code => !isSurrogate code).map Char.ofNat

end Piece

variable {pieces others : List Piece} {piece : Piece}

def written (pieces : List Piece) : List Char := pieces.flatMap Piece.text

/-- A string without pairs of codes. -/
def Single (pieces : List Piece) : Prop := ∀ piece ∈ pieces, piece.char?.isSome

/-- What a string stands for, as far as its parts do by themselves. -/
def content (pieces : List Piece) : List Char := pieces.filterMap Piece.char?

theorem single_cons : Single (piece :: pieces) ↔ piece.char?.isSome ∧ Single pieces :=
  List.forall_mem_cons

theorem single_append : Single (pieces ++ others) ↔ Single pieces ∧ Single others := by
  simp only [Single, List.mem_append, or_imp, forall_and]

theorem content_append : content (pieces ++ others) = content pieces ++ content others :=
  List.filterMap_append

theorem written_append : written (pieces ++ others) = written pieces ++ written others :=
  List.flatMap_append

theorem content_plain (text : List Char) : content (text.map .plain) = text := by
  rw [content, List.filterMap_map]
  exact List.filterMap_some

theorem written_plain (text : List Char) : written (text.map .plain) = text := by
  rw [written, List.flatMap_map]
  exact List.flatMap_singleton' text

def isNumeralChar (c : Char) : Bool :=
  c.isDigit || c == '+' || c == '-' || c == '.' || c == 'e' || c == 'E'

/-- What a number is spelled with: a digit or a minus and a digit, and what may follow them. -/
structure Numeral (text : List Char) : Prop where
  begins : ∃ sign digit rest, text = sign ++ digit :: rest ∧ (sign = [] ∨ sign = ['-']) ∧
    digit.isDigit = true
  spelled : ∀ c ∈ text, isNumeralChar c = true

def names : List (List Char) := ["null".toList, "true".toList, "false".toList]

inductive Lexeme
  | openArray
  | closeArray
  | openObject
  | closeObject
  | comma
  | colon
  | word (text : List Char)
  | string (pieces : List Piece)

namespace Lexeme

def text : Lexeme → List Char
  | openArray => ['[']
  | closeArray => [']']
  | openObject => ['\x7b']
  | closeObject => ['\x7d']
  | comma => [',']
  | colon => [':']
  | word text => text
  | string pieces => '"' :: (written pieces ++ ['"'])

def Formed : Lexeme → Prop
  | word text => text ∈ names ∨ Numeral text
  | string pieces => ∀ piece ∈ pieces, piece.Formed
  | _ => True

theorem text_ne_nil {lexeme : Lexeme} (formed : lexeme.Formed) : lexeme.text ≠ [] := by
  cases lexeme with
  | word text =>
    rcases formed with named | ⟨⟨sign, digit, rest, rfl, -⟩, -⟩
    · rintro rfl
      exact absurd named (by decide)
    · exact List.append_ne_nil_of_right_ne_nil sign (List.cons_ne_nil digit rest)
  | _ => exact nofun

end Lexeme

def isBlank (c : Char) : Bool := c == ' ' || c == '\n' || c == '\t' || c == '\r'

/-- Lexemes in front of a rest, with blanks before, between and behind them. -/
inductive Written : List Lexeme → List Char → List Char → Prop
  | nil {blanks rest : List Char} (blank : ∀ c ∈ blanks, isBlank c = true) :
      Written [] (blanks ++ rest) rest
  | cons {blanks middle rest : List Char} {lexeme : Lexeme} {lexemes : List Lexeme}
      (blank : ∀ c ∈ blanks, isBlank c = true) (formed : lexeme.Formed)
      (behind : Written lexemes middle rest) :
      Written (lexeme :: lexemes) (blanks ++ (lexeme.text ++ middle)) rest

namespace Written

variable {lexemes later : List Lexeme} {lexeme : Lexeme} {blanks text middle rest : List Char}

theorem here : Written [] text text := @nil [] text (by simp)

theorem indent (blank : ∀ c ∈ blanks, isBlank c = true) (behind : Written lexemes text rest) :
    Written lexemes (blanks ++ text) rest := by
  cases behind with
  | @nil inner rest blank' =>
    rw [← List.append_assoc]
    exact nil (List.forall_mem_append.mpr ⟨blank, blank'⟩)
  | @cons inner middle rest lexeme lexemes blank' formed behind =>
    rw [← List.append_assoc]
    exact cons (List.forall_mem_append.mpr ⟨blank, blank'⟩) formed behind

theorem append (front : Written lexemes text middle) (behind : Written later middle rest) :
    Written (lexemes ++ later) text rest := by
  induction front with
  | nil blank => exact behind.indent blank
  | cons blank formed _ ih => exact cons blank formed (ih behind)

theorem one (lexeme : Lexeme) (formed : lexeme.Formed) : Written [lexeme] (lexeme.text ++ rest) rest :=
  @cons [] rest rest lexeme [] (by simp) formed here

theorem length_le (front : Written lexemes text rest) : rest.length ≤ text.length := by
  induction front with
  | nil => simp
  | cons _ _ _ ih =>
    rw [List.length_append, List.length_append]
    omega

theorem length_lt (front : Written lexemes text rest) (some : lexemes ≠ []) :
    rest.length < text.length := by
  cases front with
  | nil => exact absurd rfl some
  | cons _ formed behind =>
    have length := List.length_pos_iff.mpr (Lexeme.text_ne_nil formed)
    have most := behind.length_le
    rw [List.length_append, List.length_append]
    omega

end Written

inductive Tree
  | word (text : List Char)
  | string (pieces : List Piece)
  | array (items : List Tree)
  | object (members : List (List Piece × Tree))

mutual

def lexemes : Tree → List Lexeme
  | .word text => [.word text]
  | .string pieces => [.string pieces]
  | .array items => .openArray :: (itemLexemes true items ++ [.closeArray])
  | .object members => .openObject :: (memberLexemes true members ++ [.closeObject])

/-- Items with a comma in front of each, but for the first one of an array. -/
def itemLexemes : (first : Bool) → List Tree → List Lexeme
  | _, [] => []
  | first, item :: rest => (if first then [] else [.comma]) ++ lexemes item ++ itemLexemes false rest

def memberLexemes : (first : Bool) → List (List Piece × Tree) → List Lexeme
  | _, [] => []
  | first, (name, value) :: rest =>
    (if first then [] else [.comma]) ++ .string name :: .colon :: lexemes value ++
      memberLexemes false rest

end

end MessagePress.Proofs.JsonSyntax
