import Mathlib.Algebra.Order.Ring.Nat
import Mathlib.Tactic.SplitIfs
import MessagePress.Template.Call

/-! Digit counts of calls. Any integer that is written with decimal digits and an optional
sign is a count; one beyond the range of a signed word is taken for zero or for the greatest
useful count, so it acts as it would without a limit. -/

namespace MessagePress.Proofs.SignedDecimals
open Text Template

/-- The number that decimal digits continue a value to. -/
def decimalFrom (value : Nat) (digits : List Char) : Nat :=
  digits.foldl (fun value c => value * 10 + (c.toNat - '0'.toNat)) value

/-- A decimal integer with an optional sign, and what it denotes. -/
inductive SignedDecimal : List Char → Int → Prop
  | plain {digits} (some : digits ≠ []) (decimal : ∀ c ∈ digits, c.isDigit = true) :
      SignedDecimal digits (decimalFrom 0 digits)
  | plus {digits} (some : digits ≠ []) (decimal : ∀ c ∈ digits, c.isDigit = true) :
      SignedDecimal ('+' :: digits) (decimalFrom 0 digits)
  | minus {digits} (some : digits ≠ []) (decimal : ∀ c ∈ digits, c.isDigit = true) :
      SignedDecimal ('-' :: digits) (-(decimalFrom 0 digits : Int))

/-- The count that stands for an integer of any size. -/
def wordCount (value : Int) : Int :=
  if -2 ^ 63 ≤ value ∧ value < 2 ^ 63 then value else if value < 0 then 0 else 18

@[simp] theorem decimalFrom_cons (value : Nat) (c : Char) (digits : List Char) :
    decimalFrom value (c :: digits) = decimalFrom (value * 10 + (c.toNat - '0'.toNat)) digits := by
  simp only [decimalFrom, List.foldl_cons]

private theorem isDigit_iff {c : Char} : c.isDigit = true ↔ '0' ≤ c ∧ c ≤ '9' := by
  simp [Char.isDigit, Char.le_def]

private theorem char_le {c d : Char} : c ≤ d ↔ c.toNat ≤ d.toNat := Iff.rfl

theorem digitValue?_digit {c : Char} (digit : c.isDigit = true) :
    digitValue? 10 c = some (c.toNat - '0'.toNat) := by
  have range := isDigit_iff.mp digit
  have small : c.toNat - '0'.toNat < 10 := by
    have upper := char_le.mp range.2
    simp only [Char.reduceToNat] at upper ⊢
    omega
  simp only [digitValue?, range, and_self, if_true, small]

theorem digitValue?_other {c : Char} (other : ¬ c.isDigit = true) : digitValue? 10 c = none := by
  rw [isDigit_iff] at other
  simp only [digitValue?, other, if_false]
  rw [if_neg]
  split_ifs <;> omega

theorem decimalFrom_ge (value : Nat) (digits : List Char) : value ≤ decimalFrom value digits := by
  induction digits generalizing value with
  | nil => exact Nat.le_refl value
  | cons c digits ih =>
    have step := ih (value * 10 + (c.toNat - '0'.toNat))
    rw [decimalFrom_cons]
    omega

/-- Digits are read when they are digits and their number is within the limit: a number only
grows as it is read, so none is given up too early. -/
theorem readDigits_eq_ok {limit value result : Nat} {digits : List Char} (small : value ≤ limit) :
    readDigits 10 limit value digits = .ok result ↔
      (∀ c ∈ digits, c.isDigit = true) ∧ decimalFrom value digits = result ∧ result ≤ limit := by
  induction digits generalizing value with
  | nil =>
    simp only [readDigits, Except.ok.injEq, List.not_mem_nil, false_imp_iff, implies_true,
      true_and, decimalFrom, List.foldl_nil]
    exact ⟨fun same => ⟨same, same ▸ small⟩, And.left⟩
  | cons c digits ih =>
    by_cases digit : c.isDigit = true
    · simp only [readDigits, digitValue?_digit digit, List.forall_mem_cons, digit, true_and,
        decimalFrom_cons]
      split
      next fits => exact ih fits
      next exceeds =>
        simp only [reduceCtorEq, false_iff, not_and]
        rintro - rfl
        have grown := decimalFrom_ge (value * 10 + (c.toNat - '0'.toNat)) digits
        omega
    · simp [readDigits, digitValue?_other digit, digit]

theorem digits_span {digits rest : List Char} (decimal : ∀ c ∈ digits, c.isDigit = true)
    (stop : rest.head?.any Char.isDigit = false) :
    (digits ++ rest).takeWhile Char.isDigit = digits ∧ (digits ++ rest).dropWhile Char.isDigit = rest := by
  rw [List.takeWhile_append_of_pos decimal, List.dropWhile_append_of_pos decimal]
  cases rest with
  | nil => exact ⟨List.append_nil digits, rfl⟩
  | cons c rest =>
    have other : c.isDigit = false := stop
    simp [other]

/-- Whether a minus sign leads, and what follows the sign if there is one. -/
def signAndDigits : List Char → Bool × List Char
  | '-' :: digits => (true, digits)
  | '+' :: digits => (false, digits)
  | digits => (false, digits)

def Decimal (digits : List Char) : Prop := digits ≠ [] ∧ ∀ c ∈ digits, c.isDigit = true

theorem signAndDigits_plain {text : List Char} (negative : text.head? ≠ some '-')
    (positive : text.head? ≠ some '+') : signAndDigits text = (false, text) := by
  unfold signAndDigits
  split
  next => exact absurd rfl negative
  next => exact absurd rfl positive
  next => rfl

theorem text_sign (text : List Char) :
    (∃ digits, text = '-' :: digits) ∨ (∃ digits, text = '+' :: digits) ∨
      text.head? ≠ some '-' ∧ text.head? ≠ some '+' := by
  rcases text with _ | ⟨c, digits⟩
  · simp
  · by_cases negative : c = '-'
    · exact Or.inl ⟨digits, by rw [negative]⟩
    · by_cases positive : c = '+'
      · exact Or.inr (Or.inl ⟨digits, by rw [positive]⟩)
      · simp [negative, positive]

theorem decimal_head {digits : List Char} (decimal : ∀ c ∈ digits, c.isDigit = true) :
    digits.head? ≠ some '-' ∧ digits.head? ≠ some '+' := by
  cases digits with
  | nil => simp
  | cons c digits =>
    have first := decimal c (by simp)
    constructor <;> (rintro ⟨⟩; exact absurd first (by decide))

theorem signedDecimal_iff {text : List Char} {value : Int} :
    SignedDecimal text value ↔ Decimal (signAndDigits text).2 ∧
      value = if (signAndDigits text).1 then -(decimalFrom 0 (signAndDigits text).2 : Int)
        else decimalFrom 0 (signAndDigits text).2 := by
  constructor
  · intro signed
    cases signed with
    | plain some decimal =>
      obtain ⟨negative, positive⟩ := decimal_head decimal
      rw [signAndDigits_plain negative positive]
      exact ⟨⟨some, decimal⟩, rfl⟩
    | plus some decimal => exact ⟨⟨some, decimal⟩, rfl⟩
    | minus some decimal => exact ⟨⟨some, decimal⟩, rfl⟩
  · rintro ⟨⟨some, decimal⟩, rfl⟩
    rcases text_sign text with ⟨digits, rfl⟩ | ⟨digits, rfl⟩ | ⟨negative, positive⟩
    · exact .minus some decimal
    · exact .plus some decimal
    · rw [signAndDigits_plain negative positive] at *
      exact .plain some decimal

theorem readNat_eq_ok {limit result : Nat} {text : List Char}
    (positive : (signAndDigits text).1 = false) :
    readNat 10 limit text = .ok result ↔ Decimal (signAndDigits text).2 ∧
      decimalFrom 0 (signAndDigits text).2 = result ∧ result ≤ limit := by
  have read := @readDigits_eq_ok limit 0 result (signAndDigits text).2 (Nat.zero_le limit)
  rw [Decimal, and_assoc, ← read]
  rcases text_sign text with ⟨digits, rfl⟩ | ⟨digits, rfl⟩ | ⟨unsigned, unmarked⟩
  · cases positive
  · cases digits <;> simp [readNat, signAndDigits]
  · rw [signAndDigits_plain unsigned unmarked]
    unfold readNat
    split
    next => simp
    next => exact absurd rfl unmarked
    next => exact absurd rfl unmarked
    next some _ _ => simp [show text ≠ [] from some]

theorem readInt?_eq_some {text : List Char} {value : Int} :
    readInt? 10 (Nat.pow 2 63) (Nat.pow 2 63 - 1) text = some value ↔
      SignedDecimal text value ∧ -2 ^ 63 ≤ value ∧ value < 2 ^ 63 := by
  rw [show Nat.pow 2 63 = 2 ^ 63 from rfl]
  have toOption : ∀ {result : Except IntegerFault Nat} {f : Nat → Int},
      result.toOption.map f = some value ↔ ∃ read, result = .ok read ∧ f read = value := by
    intro result f
    cases result <;> simp [Except.toOption]
  rw [signedDecimal_iff]
  rcases text_sign text with ⟨digits, rfl⟩ | plain
  · cases digits with
    | nil => simp [readInt?, signAndDigits, Decimal]
    | cons c digits =>
      have read : readInt? 10 (2 ^ 63) (2 ^ 63 - 1) ('-' :: c :: digits) =
          (readDigits 10 (2 ^ 63) 0 (c :: digits)).toOption.map
            fun value : Nat => -(value : Int) := by
        simp only [readInt?, List.isEmpty_cons, Bool.false_eq_true, if_false]
        cases readDigits 10 (2 ^ 63) 0 (c :: digits) <;> rfl
      rw [read, toOption]
      constructor
      · rintro ⟨value, ok, rfl⟩
        obtain ⟨decimal, same, bound⟩ := (readDigits_eq_ok (Nat.zero_le _)).mp ok
        refine ⟨⟨⟨List.cons_ne_nil c digits, decimal⟩, congrArg (fun n : Nat => -(n : Int)) same.symm⟩, ?_⟩
        omega
      · rintro ⟨⟨⟨-, decimal⟩, rfl⟩, low, high⟩
        refine ⟨_, (readDigits_eq_ok (Nat.zero_le _)).mpr ⟨decimal, rfl, ?_⟩, rfl⟩
        simp only [signAndDigits, if_true] at low
        omega
  · have positive : (signAndDigits text).1 = false := by
      rcases plain with ⟨digits, rfl⟩ | ⟨negative, unmarked⟩
      · rfl
      · rw [signAndDigits_plain negative unmarked]
    have read : readInt? 10 (2 ^ 63) (2 ^ 63 - 1) text =
        (readNat 10 (2 ^ 63 - 1) text).toOption.map Int.ofNat := by
      rcases plain with ⟨digits, rfl⟩ | ⟨negative, unmarked⟩
      · rfl
      · unfold readInt?
        split
        next => exact absurd rfl negative
        next => rfl
    rw [read, toOption]
    simp only [positive, readNat_eq_ok positive]
    constructor
    · rintro ⟨value, ⟨decimal, same, bound⟩, rfl⟩
      refine ⟨⟨decimal, congrArg Int.ofNat same.symm⟩, ?_⟩
      simp only [Int.ofNat_eq_natCast]
      omega
    · rintro ⟨⟨decimal, rfl⟩, low, high⟩
      refine ⟨_, ⟨decimal, rfl, ?_⟩, rfl⟩
      simp only [Bool.false_eq_true, if_false] at high
      omega

/-- A count beyond the range of a word is read off its digits and its sign. -/
theorem digitCount_beyond {text : List Char} {count : Int}
    (beyond : readInt? 10 (Nat.pow 2 63) (Nat.pow 2 63 - 1) text = none) :
    digitCount text = .ok count ↔
      Decimal (signAndDigits text).2 ∧ (if (signAndDigits text).1 then 0 else 18) = count := by
  have refused : (signAndDigits text).2.isEmpty || !(signAndDigits text).2.all Char.isDigit ↔
      ¬Decimal (signAndDigits text).2 := by
    simp [Decimal, Classical.or_iff_not_imp_left]
  have unread : digitCount text =
      if (signAndDigits text).2.isEmpty || !(signAndDigits text).2.all Char.isDigit then
        .error (.invalidDigits (String.ofList text))
      else .ok (if (signAndDigits text).1 then 0 else 18) := by
    simp only [digitCount, beyond]
    rcases text_sign text with ⟨digits, rfl⟩ | ⟨digits, rfl⟩ | ⟨negative, positive⟩
    · rfl
    · rfl
    · rw [signAndDigits_plain negative positive]
      split
      next => exact absurd rfl negative
      next => exact absurd rfl positive
      next => rfl
  rw [unread]
  split
  next fault => simp [refused.mp fault]
  next fine => simp [Classical.not_not.mp (mt refused.mpr fine)]

theorem digitCount_eq_ok {text : List Char} {count : Int} :
    digitCount text = .ok count ↔ ∃ value, SignedDecimal text value ∧ count = wordCount value := by
  cases word : readInt? 10 (Nat.pow 2 63) (Nat.pow 2 63 - 1) text with
  | some found =>
    obtain ⟨signed, range⟩ := readInt?_eq_some.mp word
    have count_found : digitCount text = .ok found := by
      simp only [digitCount, word]
    have kept : wordCount found = found := if_pos range
    rw [count_found, Except.ok.injEq]
    constructor
    · rintro rfl
      exact ⟨found, signed, kept.symm⟩
    · rintro ⟨value, other, rfl⟩
      have same : value = found :=
        (signedDecimal_iff.mp other).2.trans (signedDecimal_iff.mp signed).2.symm
      rw [same, kept]
  | none =>
    have beyond : ∀ value, SignedDecimal text value → ¬(-2 ^ 63 ≤ value ∧ value < 2 ^ 63) :=
      fun value signed range => nomatch word.symm.trans (readInt?_eq_some.mpr ⟨signed, range⟩)
    rw [digitCount_beyond word]
    constructor
    · rintro ⟨decimal, rfl⟩
      have signed := signedDecimal_iff.mpr ⟨decimal, rfl⟩
      refine ⟨_, signed, ?_⟩
      have range := beyond _ signed
      rw [wordCount, if_neg range]
      cases (signAndDigits text).1 <;> simp at range ⊢
      omega
    · rintro ⟨value, signed, rfl⟩
      have range := beyond value signed
      obtain ⟨decimal, same⟩ := signedDecimal_iff.mp signed
      refine ⟨decimal, ?_⟩
      rw [wordCount, if_neg range]
      cases negative : (signAndDigits text).1 <;> simp [negative] at same ⊢ <;> omega

end MessagePress.Proofs.SignedDecimals
