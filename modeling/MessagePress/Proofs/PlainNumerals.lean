import MessagePress.Proofs.JsonSyntax
import MessagePress.Proofs.NumberReading
import MessagePress.Proofs.SignedDecimals
import MessagePress.Yaml.Decode

/-! Plain texts that are numbers. A text of digits behind a sign is an integer while it is short
enough; with a point or an exponent among its characters it is a decimal. -/

namespace MessagePress.Proofs.PlainNumerals
open Yaml JsonSyntax SignedDecimals
open Yaml.Decode (jsonScalar)

/-- A text behind a minus, if there is one. -/
def signed (negative : Bool) (body : List Char) : List Char := if negative then '-' :: body else body

/-- What a text without its sign begins with and is made of, where it is a number. -/
structure Unsigned (body : List Char) : Prop where
  begins : body.head?.any Char.isDigit = true
  spelled : ∀ c ∈ body, isNumeralChar c = true

variable {body digits : List Char} {negative : Bool} {limit bits : ℕ}

theorem digit_apart {c d : Char} (digit : c.isDigit = true) (other : d.isDigit = false) : c ≠ d := by
  rintro rfl
  rw [digit] at other
  cases other

namespace Unsigned

theorem ofDigits (some : digits ≠ []) (decimal : ∀ c ∈ digits, c.isDigit = true) : Unsigned digits := by
  refine ⟨?_, fun c member => by simp [isNumeralChar, decimal c member]⟩
  cases digits with
  | nil => exact absurd rfl some
  | cons c digits => exact decimal c List.mem_cons_self

theorem head_ne (body_is : Unsigned body) {c : Char} (other : c.isDigit = false) : body.head? ≠ some c := by
  intro head
  have begins := body_is.begins
  rw [head] at begins
  exact digit_apart begins other rfl

theorem isSigned_eq (body_is : Unsigned body) : isSigned body = false := by
  have plus := body_is.head_ne (show '+'.isDigit = false by decide)
  have minus := body_is.head_ne (show '-'.isDigit = false by decide)
  simp [isSigned, plus, minus]

theorem dropPlus_eq (body_is : Unsigned body) : dropPlus body = body := by
  unfold dropPlus
  split
  · exact absurd rfl (body_is.head_ne (show '+'.isDigit = false by decide))
  · rfl

end Unsigned

theorem dropPlus_signed (body_is : Unsigned body) : dropPlus (signed negative body) = signed negative body := by
  cases negative with
  | true => rfl
  | false => exact body_is.dropPlus_eq

theorem markedNat?_unsigned (body_is : Unsigned body) : markedNat? limit body = none := by
  unfold markedNat?
  split
  next mark digits =>
    have numeral := body_is.spelled mark (by simp)
    have unmarked : radix? mark = none := by
      unfold radix?
      split
      all_goals first | rfl | cases numeral
    rw [unmarked]
    rfl
  · rfl

/-- A text whose sign is followed by no digit. -/
def undigited (text : List Char) : Bool :=
  !((if text.head? = some '-' then text.drop 1 else text).head?.any Char.isDigit)

theorem not_listed (body_is : Unsigned body) {texts : List (List Char)} (others : texts.all undigited = true) :
    texts.contains (signed negative body) = false := by
  rw [Bool.eq_false_iff]
  intro found
  have other := List.all_eq_true.mp others _ (List.contains_iff_mem.mp found)
  have begins := body_is.begins
  have minus := body_is.head_ne (show '-'.isDigit = false by decide)
  cases negative <;> simp_all [undigited, signed]

theorem readNat_unsigned (body_is : Unsigned body) : Text.readNat 10 limit body = Text.readDigits 10 limit 0 body := by
  have plus := body_is.head_ne (show '+'.isDigit = false by decide)
  have begins := body_is.begins
  unfold Text.readNat
  split
  · cases begins
  · exact absurd rfl plus
  · exact absurd rfl plus
  · rfl

theorem readNat_digits (some : digits ≠ []) (decimal : ∀ c ∈ digits, c.isDigit = true) :
    (Text.readNat 10 limit digits).toOption =
      if decimalValue digits ≤ limit then .some (decimalValue digits) else none := by
  rw [readNat_unsigned (.ofDigits some decimal)]
  have read (result : ℕ) := @readDigits_eq_ok limit 0 result digits (Nat.zero_le _)
  split
  next fits => rw [(read _).mpr ⟨decimal, rfl, fits⟩]; rfl
  next beyond =>
    cases given : Text.readDigits 10 limit 0 digits with
    | error fault => rfl
    | ok result =>
      obtain ⟨-, rfl, fits⟩ := (read _).mp given
      exact absurd fits beyond

theorem readNat_other (body_is : Unsigned body) (other : ¬ ∀ c ∈ body, c.isDigit = true) :
    (Text.readNat 10 limit body).toOption = none := by
  rw [readNat_unsigned body_is]
  cases given : Text.readDigits 10 limit 0 body with
  | error fault => rfl
  | ok result => exact absurd ((readDigits_eq_ok (Nat.zero_le _)).mp given).1 other

def most (bits : ℕ) (negative : Bool) : ℕ := if negative then maxMagnitude bits else maxUnsigned bits

def signedValue (negative : Bool) (value : ℕ) : ℤ := if negative then -(value : ℤ) else value

theorem integer?_signed (body_is : Unsigned body) : integer? bits (signed negative body) =
    if hasLeadingZero (signed negative body) then none
    else (Text.readNat 10 (most bits negative) body).toOption.map (signedValue negative) := by
  cases negative with
  | true =>
    have unsigned : unsigned? (maxUnsigned bits) ('-' :: body) = none := rfl
    simp only [integer?, signed, if_true, unsigned, negative?, markedNat?_unsigned body_is, body_is.isSigned_eq,
      Bool.false_or, most]
    cases Text.readNat 10 (maxMagnitude bits) body <;> rfl
  | false =>
    have negated (limit : ℕ) : negative? limit body = none := by
      unfold negative?
      split
      · exact absurd rfl (body_is.head_ne (show '-'.isDigit = false by decide))
      · rfl
    simp only [integer?, signed, Bool.false_eq_true, if_false, unsigned?, body_is.dropPlus_eq,
      markedNat?_unsigned body_is, body_is.isSigned_eq, Bool.false_or, most, negated]
    cases hasLeadingZero body <;> cases Text.readNat 10 (maxUnsigned bits) body <;> rfl

theorem plainValue_signed (body_is : Unsigned body) : plainValue (signed negative body) =
    match integerValue? (signed negative body) with
    | some value => value
    | none =>
      if hasLeadingZero (signed negative body) then .text
      else
        match decimal? (signed negative body) with
        | some value => .real (.finite value)
        | none => .text := by
  have text : (signed negative body).isEmpty = false := by
    have begins := body_is.begins
    cases body with
    | nil => cases begins
    | cons c body => cases negative <;> rfl
  have null : isNull (signed negative body) = false := by
    have tilde := @not_listed _ negative body_is [['~']] rfl
    simp only [List.contains_cons, List.contains_nil, Bool.or_false] at tilde
    rw [isNull, tilde, not_listed body_is (by decide)]
    rfl
  have noBool : bool? (signed negative body) = none := by
    rw [bool?, not_listed body_is (by decide), not_listed body_is (by decide)]
    rfl
  have real : real? (signed negative body) = (decimal? (signed negative body)).map .finite := by
    have plus : ((signed negative body).head? == some '+') = false := by
      cases negative with
      | true => rfl
      | false => simpa [signed] using body_is.head_ne (show '+'.isDigit = false by decide)
    simp only [real?, dropPlus_signed body_is, plus, Bool.false_and]
    rw [not_listed body_is (by decide), not_listed body_is (by decide), not_listed body_is (by decide)]
    rfl
  rw [plainValue, text, null, noBool, real]
  cases integerValue? (signed negative body) with
  | some value => rfl
  | none => cases decimal? (signed negative body) <;> rfl

/-- An integer of at most 38 digits is given as one, if it is given at all. -/
theorem jsonScalar_integer (some : digits ≠ []) (decimal : ∀ c ∈ digits, c.isDigit = true)
    (plain : hasLeadingZero (signed negative digits) = false) (short : decimalValue digits ≤ maxMagnitude 128)
    {found : Json}
    (given : jsonScalar (signed negative digits) (plainValue (signed negative digits)) = .ok found) :
    decimalValue digits ≤ most 64 negative ∧
      found = .number (.integer (signedValue negative (decimalValue digits))) := by
  have body_is := Unsigned.ofDigits some decimal
  have read (bits : ℕ) : integer? bits (signed negative digits) =
      if decimalValue digits ≤ most bits negative then .some (signedValue negative (decimalValue digits)) else none := by
    rw [integer?_signed body_is, plain, if_neg Bool.false_ne_true, readNat_digits some decimal]
    split <;> rfl
  have wide : decimalValue digits ≤ most 128 negative := by
    refine short.trans ?_
    cases negative <;> decide
  rw [plainValue_signed body_is, integerValue?, read 64, read 128, if_pos wide] at given
  by_cases fits : decimalValue digits ≤ most 64 negative
  · rw [if_pos fits] at given
    exact ⟨fits, (Except.ok.inj given).symm⟩
  · rw [if_neg fits] at given
    cases given

theorem plainValue_decimal (body_is : Unsigned body) (other : ¬ ∀ c ∈ body, c.isDigit = true) {value : Binary64}
    (read : decimal? (signed negative body) = some value) :
    plainValue (signed negative body) = .real (.finite value) := by
  have none (bits : ℕ) : integer? bits (signed negative body) = none := by
    rw [integer?_signed body_is, readNat_other body_is other]
    split <;> rfl
  have plain : hasLeadingZero (signed negative body) = false := by
    have mixed : body.all Char.isDigit = false := by
      rw [Bool.eq_false_iff]
      exact fun decimal => other (List.all_eq_true.mp decimal)
    cases negative with
    | true => simp [hasLeadingZero, signed, isSigned, mixed]
    | false => simp [hasLeadingZero, signed, body_is.isSigned_eq, mixed]
  rw [plainValue_signed body_is, integerValue?, none, none, plain, read]
  rfl

/-- The digits in front of a point, those behind it, and what follows them. -/
def parts (body : List Char) : List Char × List Char × List Char :=
  let rest := body.dropWhile Char.isDigit
  if rest.head? = some '.' then
    (body.takeWhile Char.isDigit, (rest.drop 1).takeWhile Char.isDigit, (rest.drop 1).dropWhile Char.isDigit)
  else (body.takeWhile Char.isDigit, [], rest)

theorem decimal?_signed (body_is : Unsigned body) {whole fraction behind : List Char}
    (cut : parts body = (whole, fraction, behind)) : decimal? (signed negative body) =
      (exponent? behind).bind fun exponent =>
        Binary64.ofDecimal? negative (decimalValue (whole ++ fraction)) (exponent - fraction.length) := by
  have sign : ((signed negative body).head? == some '-') = negative ∧
      (if isSigned (signed negative body) then (signed negative body).drop 1 else signed negative body) = body := by
    have minus := body_is.head_ne (show '-'.isDigit = false by decide)
    cases negative with
    | true => exact ⟨rfl, rfl⟩
    | false => simp [signed, minus, body_is.isSigned_eq]
  have some : body.takeWhile Char.isDigit ≠ [] := by
    have begins := body_is.begins
    cases body with
    | nil => cases begins
    | cons c body =>
      have digit : c.isDigit = true := begins
      rw [List.takeWhile_cons_of_pos digit]
      exact List.cons_ne_nil _ _
  unfold decimal?
  rw [sign.1, sign.2]
  simp only [List.span_eq_takeWhile_dropWhile]
  by_cases point : (body.dropWhile Char.isDigit).head? = .some '.'
  all_goals
    simp only [parts, point, if_true, if_false, Prod.mk.injEq] at cut ⊢
    obtain ⟨rfl, rfl, rfl⟩ := cut
    simp only [List.isEmpty_eq_false_iff.mpr some, Bool.false_and, Bool.false_eq_true, if_false]
    rfl

end MessagePress.Proofs.PlainNumerals
