import Mathlib.Tactic.SplitIfs
import MessagePress.Proofs.BracePairs
import MessagePress.Json.Printer

/-! The inside of a string literal. Escaping works character by character; an escape begins
with a backslash and holds no brace, so braces keep their places among each other. -/

namespace MessagePress.Proofs.StringEscapes
open Json BracePairs

/-- A character that stands for itself in a string. -/
def IsPlain (c : Char) : Prop := c ≠ '"' ∧ c ≠ '\\' ∧ 0x20 ≤ c.toNat

@[simp] theorem escape_nil : escape [] = [] := rfl

@[simp] theorem escape_cons (c : Char) (text : List Char) :
    escape (c :: text) = escapeChar c ++ escape text := rfl

@[simp] theorem escape_append (text rest : List Char) :
    escape (text ++ rest) = escape text ++ escape rest := List.flatMap_append

theorem escapeChar_plain {c : Char} (plain : IsPlain c) : escapeChar c = [c] := by
  obtain ⟨quote, backslash, printable⟩ := plain
  have control : ∀ {d : Char}, d.toNat < 0x20 → c ≠ d := by
    rintro d small rfl
    omega
  simp [escapeChar, quote, backslash, control (show ('\n').toNat < 0x20 by decide),
    control (show ('\r').toNat < 0x20 by decide), control (show ('\t').toNat < 0x20 by decide),
    control (show ('\x08').toNat < 0x20 by decide), control (show ('\x0c').toNat < 0x20 by decide),
    Nat.not_lt.mpr printable]

theorem escape_cons_plain {c : Char} (plain : IsPlain c) (text : List Char) :
    escape (c :: text) = c :: escape text := by
  rw [escape_cons, escapeChar_plain plain, List.singleton_append]

private theorem digitChar_ne_brace {digit : Nat} (small : digit < 16) :
    Nat.digitChar digit ≠ '{' := by
  have all : ∀ digit : Fin 16, Nat.digitChar digit ≠ '{' := by decide
  exact all ⟨digit, small⟩

theorem escapeChar_escaped {c : Char} (escaped : ¬ IsPlain c) :
    ∃ tail, escapeChar c = '\\' :: tail ∧ '{' ∉ tail := by
  unfold escapeChar
  split_ifs with quote backslash newline return' tab backspace feed control
  all_goals try exact ⟨_, rfl, by decide⟩
  · have high : Nat.digitChar (c.toNat / 16) ≠ '{' := digitChar_ne_brace (by omega)
    have low : Nat.digitChar (c.toNat % 16) ≠ '{' := digitChar_ne_brace (by omega)
    exact ⟨_, rfl, by simp [high.symm, low.symm]⟩
  · exact absurd ⟨quote, backslash, Nat.not_lt.mp control⟩ escaped

/-- What stands in an escaped text without a backslash stands so in the text itself. -/
theorem escape_front {text word rest : List Char} (bare : '\\' ∉ word)
    (same : escape text = word ++ rest) :
    ∃ behind, text = word ++ behind ∧ escape behind = rest ∧ ∀ c ∈ word, IsPlain c := by
  induction word generalizing text with
  | nil => exact ⟨text, rfl, same, by simp⟩
  | cons c word ih =>
    cases text with
    | nil => cases same
    | cons d text =>
      by_cases plain : IsPlain d
      · rw [escape_cons_plain plain] at same
        obtain ⟨rfl, next⟩ := List.cons.inj same
        obtain ⟨behind, rfl, tail, printable⟩ := ih (fun member => bare (by simp [member])) next
        exact ⟨behind, rfl, tail, List.forall_mem_cons.mpr ⟨plain, printable⟩⟩
      · obtain ⟨tail, escaped, -⟩ := escapeChar_escaped plain
        rw [escape_cons, escaped] at same
        obtain ⟨rfl, -⟩ := List.cons.inj same
        exact absurd (by simp) bare

theorem escape_brace {text front rest : List Char} (same : escape text = front ++ '{' :: rest) :
    ∃ before behind, text = before ++ '{' :: behind ∧ escape before = front ∧
      escape behind = rest := by
  induction text generalizing front with
  | nil => simp at same
  | cons c text ih =>
    by_cases plain : IsPlain c
    · rw [escape_cons_plain plain] at same
      cases front with
      | nil =>
        obtain ⟨rfl, next⟩ := List.cons.inj same
        exact ⟨[], text, rfl, rfl, next⟩
      | cons d front =>
        obtain ⟨rfl, next⟩ := List.cons.inj same
        obtain ⟨before, behind, rfl, rfl, rfl⟩ := ih next
        exact ⟨c :: before, behind, rfl, escape_cons_plain plain before, rfl⟩
    · obtain ⟨tail, escaped, absent⟩ := escapeChar_escaped plain
      have braceless : '{' ∉ escapeChar c := by simp [escaped, absent]
      rw [escape_cons] at same
      rcases List.append_eq_append_iff.mp same with ⟨inner, rfl, later⟩ | ⟨inner, whole, later⟩
      · obtain ⟨before, behind, rfl, rfl, rfl⟩ := ih later
        exact ⟨c :: before, behind, rfl, rfl, rfl⟩
      · cases inner with
        | nil =>
          have later' : escape text = [] ++ '{' :: rest := later.symm
          obtain ⟨before, behind, rfl, front', rfl⟩ := ih later'
          exact ⟨c :: before, behind, rfl, by simp [front', whole], rfl⟩
        | cons d inner =>
          obtain ⟨rfl, -⟩ := List.cons.inj later
          exact absurd (by simp [whole]) braceless

theorem pairFree_of_escape {text : List Char} (free : PairFree '{' (escape text)) :
    PairFree '{' text := by
  rintro ⟨before, after, rfl⟩
  exact free ⟨escape before, escape after, by simp [escapeChar]⟩

end MessagePress.Proofs.StringEscapes
