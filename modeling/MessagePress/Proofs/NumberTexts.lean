import MessagePress.Json.Printer

/-! The characters that numbers are written with. None of them is a brace or a quote, so a
number is never part of a placeholder or of a string. -/

namespace MessagePress.Proofs.NumberTexts
open Json

/-- Digits, signs, the point and the letter of the exponent. -/
def isNumberChar (c : Char) : Bool := c.isDigit || c == '-' || c == '+' || c == '.' || c == 'e'

theorem toDigits_digit {value : Nat} {c : Char} (member : c ∈ Nat.toDigits 10 value) :
    c.isDigit = true :=
  Nat.isDigit_of_mem_toDigits (by decide) (by decide) member

private theorem number_digit {c : Char} (digit : c.isDigit = true) : isNumberChar c = true := by
  simp [isNumberChar, digit]

private theorem number_zeros {count : Nat} {c : Char} (member : c ∈ Binary64.zeros count) :
    isNumberChar c = true := by
  obtain ⟨-, rfl⟩ := List.mem_replicate.mp member
  rfl

theorem integerText_char (value : Int) : ∀ c ∈ integerText value, isNumberChar c = true := by
  intro c member
  unfold integerText at member
  split at member
  · rcases List.mem_cons.mp member with rfl | member
    · rfl
    · exact number_digit (toDigits_digit member)
  · exact number_digit (toDigits_digit member)

theorem positionalText_char {digits : List Char} (exponent : Int)
    (decimal : ∀ c ∈ digits, c.isDigit = true) :
    ∀ c ∈ Binary64.positionalText digits exponent, isNumberChar c = true := by
  intro c member
  unfold Binary64.positionalText at member
  split at member
  · simp only [List.append_assoc, List.mem_append, List.mem_cons, List.not_mem_nil, or_false] at member
    rcases member with member | member | rfl | rfl
    · exact number_digit (decimal c member)
    · exact number_zeros member
    all_goals rfl
  · dsimp only at member
    split at member
    · simp only [List.append_assoc, List.mem_append, List.mem_singleton] at member
      rcases member with member | rfl | member
      · exact number_digit (decimal c (List.mem_of_mem_take member))
      · rfl
      · exact number_digit (decimal c (List.mem_of_mem_drop member))
    · simp only [List.append_assoc, List.mem_append, List.mem_cons, List.not_mem_nil,
        or_false] at member
      rcases member with (rfl | rfl) | member | member
      any_goals rfl
      · exact number_zeros member
      · exact number_digit (decimal c member)

theorem scientificText_char {digits : List Char} (power : Int)
    (decimal : ∀ c ∈ digits, c.isDigit = true) :
    ∀ c ∈ Binary64.scientificText digits power, isNumberChar c = true := by
  intro c member
  simp only [Binary64.scientificText, List.append_assoc, List.mem_append, List.mem_cons,
    List.not_mem_nil, or_false] at member
  rcases member with member | member | (rfl | rfl) | member
  · exact number_digit (decimal c (List.mem_of_mem_take member))
  · split at member
    · cases member
    · rcases List.mem_cons.mp member with rfl | member
      · rfl
      · exact number_digit (decimal c (List.mem_of_mem_drop member))
  · rfl
  · split <;> rfl
  · exact number_digit (toDigits_digit member)

theorem documentText_char (value : Binary64) :
    ∀ c ∈ value.documentText, isNumberChar c = true := by
  intro c member
  rcases List.mem_append.mp member with sign | member
  · unfold Binary64.signText at sign
    split at sign
    · cases List.mem_singleton.mp sign; rfl
    · cases sign
  · split at member
    · exact positionalText_char _ (fun _ => toDigits_digit) c member
    · exact scientificText_char _ (fun _ => toDigits_digit) c member

theorem number_char (value : Number) : ∀ c ∈ value.text, isNumberChar c = true := by
  cases value with
  | integer value => exact integerText_char value
  | real value => exact documentText_char value

end MessagePress.Proofs.NumberTexts
