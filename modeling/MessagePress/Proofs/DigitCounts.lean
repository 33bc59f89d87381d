import MessagePress.Proofs.CallGrammar
import MessagePress.Proofs.Draws
import MessagePress.Proofs.KeyDraws

/-! Counts of digits of any size. A count is kept in a word as far as it fits, and one beyond the
word is cut short, but to one that draws the same digits; so a call draws what the integer would that
is written in it. -/

namespace MessagePress.Proofs.DigitCounts
open Text Template BracePairs Trimming SignedDecimals CallGrammar
open MessagePress.Random (Source digits)

variable {argument rest : List Char} {value : ℤ} {span : CallSpan}

/-- What stands between the braces of a call for digits. -/
def inside (argument : List Char) : List Char := '@' :: ("rnd".toList ++ '|' :: argument)

/-- A call for as many digits as an argument says. -/
def callFor (argument : List Char) : String :=
  String.ofList ('{' :: '{' :: (inside argument ++ ['}', '}']))

/-- The braces at the start of a call are those of a well-formed one. -/
def WellFormed (argument : List Char) : Prop := ∃ span, Written (callFor argument) span ∧ span.start = 0

theorem digits_wordCount (value : ℤ) : digits (wordCount value) = digits value := by
  unfold wordCount
  split
  next => rfl
  next beyond =>
    split
    next negative => rw [Draws.digits_none (le_refl 0), Draws.digits_none (by omega)]
    next great =>
      have most : min value 18 = 18 := by omega
      rw [Draws.digits_some (by omega), Draws.digits_some (by omega), most]
      rfl

theorem digits_min (some : 0 < value) : digits (min value 18) = digits value := by
  have again : min (min value 18) 18 = min value 18 := by omega
  rw [Draws.digits_some (by omega), Draws.digits_some some, again]

theorem written_front :
    Written (String.ofList ('{' :: '{' :: rest)) span ∧ span.start = 0 ↔ readCall 0 rest = .ok (some span) := by
  rw [readCall_eq_ok]
  simp only [Written, String.toList_ofList, ← byteLength_eq]
  constructor
  · rintro ⟨⟨before, inside, after, same, closed, spelled, starts, stops⟩, first⟩
    obtain rfl : before = [] := by
      cases before with
      | nil => rfl
      | cons c before =>
        have size := c.utf8Size_pos
        rw [first, byteLength] at starts
        omega
    cases same
    exact ⟨inside, after, rfl, closed, spelled, first, first ▸ stops⟩
  · rintro ⟨inside, after, rfl, closed, spelled, first, stops⟩
    exact ⟨⟨[], inside, after, rfl, closed, spelled, first, by rw [stops, first]⟩, first⟩

theorem openings_none {start : ℕ} (unopened : '{' ∉ rest) : openings start rest = [] := by
  refine List.eq_nil_iff_forall_not_mem.mpr ?_
  rintro ⟨place, behind⟩ member
  obtain ⟨before, rfl, -⟩ := mem_openings.mp member
  exact unopened (by simp)

/-- Braces alone at the front of a text decide what call it has. -/
theorem findCall_front (unopened : '{' ∉ rest) :
    findCall (String.ofList ('{' :: '{' :: rest)) = winner none (readCall 0 rest) := by
  have next : rest.head? ≠ some '{' := fun head => unopened (List.mem_of_mem_head? head)
  rw [findCall, readCalls, readCallsFrom_eq, String.toList_ofList, openings, if_pos ⟨rfl, rfl⟩, openings,
    if_neg (fun braces => next braces.2), openings_none unopened]
  rfl

theorem inside_closed (free : PairFree '}' argument) (last : argument.getLast? ≠ some '}') :
    PairFree '}' (inside argument ++ ['}']) := by
  have apart : inside argument ++ ['}'] = "@rnd".toList ++ '|' :: (argument ++ ['}']) := by
    simp [inside]
  rw [apart, pairFree_separated (by decide)]
  exact ⟨by unfold PairFree; decide, pairFree_concat_iff.mpr ⟨free, last⟩⟩

theorem readCall_inside (some : argument ≠ []) (bare : Bare isAsciiBlank argument)
    (closed : PairFree '}' (inside argument ++ ['}'])) :
    readCall 0 (inside argument ++ ['}', '}']) = (digitCount argument).map fun count =>
      .some ⟨.digits count, 0, 0 + 2 + byteLength (inside argument) + 2⟩ := by
  have parted : Parted (inside argument) "rnd".toList (.some argument) := by
    have piped := @Parted.piped [] "rnd".toList [] [] argument [] (by simp [Blanks]) (by simp [Blanks])
      (by simp [Blanks]) bare (by simp [Blanks]) (by decide) (by rintro c ⟨⟩; rfl)
    rwa [if_neg some, List.append_nil] at piped
  have named_count : named "rnd".toList (.some argument) = (digitCount argument).map Call.digits := rfl
  have started : trimStart isAsciiBlank (inside argument ++ ['}', '}']) =
      '@' :: ("rnd".toList ++ '|' :: argument ++ ['}', '}']) :=
    @trimStart_eq _ [] _ (by simp) (by simp [isAsciiBlank])
  simp only [readCall, started, splitPair?_eq_some.mpr ⟨rfl, closed⟩, readBody_parted parted, named_count]
  cases digitCount argument <;> rfl

theorem wellFormed_iff (some : argument ≠ []) (bare : Bare isAsciiBlank argument)
    (closed : PairFree '}' (inside argument ++ ['}'])) :
    WellFormed argument ↔ ∃ value, SignedDecimal argument value := by
  simp only [WellFormed, callFor, written_front, readCall_inside some bare closed]
  constructor
  · rintro ⟨span, read⟩
    cases counted : digitCount argument with
    | error fault =>
      rw [counted] at read
      cases read
    | ok count =>
      obtain ⟨value, signed, -⟩ := digitCount_eq_ok.mp counted
      exact ⟨value, signed⟩
  · rintro ⟨value, signed⟩
    rw [digitCount_eq_ok.mpr ⟨value, signed, rfl⟩]
    exact ⟨_, rfl⟩

theorem SignedDecimal.unopened (signed : SignedDecimal argument value) : '{' ∉ argument := by
  have apart {digits : List Char} (decimal : ∀ c ∈ digits, c.isDigit = true) : '{' ∉ digits :=
    fun member => absurd (decimal '{' member) (by decide)
  cases signed with
  | plain some decimal => exact apart decimal
  | plus some decimal | minus some decimal => simpa using apart decimal

theorem findCall_counted (some : argument ≠ []) (bare : Bare isAsciiBlank argument)
    (closed : PairFree '}' (inside argument ++ ['}'])) (signed : SignedDecimal argument value) :
    (findCall (callFor argument)).map CallSpan.call = .some (.digits (wordCount value)) := by
  have unopened : '{' ∉ inside argument ++ ['}', '}'] := by
    simpa [inside] using SignedDecimal.unopened signed
  rw [callFor, findCall_front unopened, readCall_inside some bare closed, digitCount_eq_ok.mpr ⟨value, signed, rfl⟩]
  rfl

/-- A count is evaluated as the integer that is written, however long it is. -/
theorem evaluateValue_counted {clock : Time.Instant} {source : Source} (some : argument ≠ [])
    (bare : Bare isAsciiBlank argument) (closed : PairFree '}' (inside argument ++ ['}']))
    (signed : SignedDecimal argument value) :
    evaluateValue clock (.text (callFor argument)) source =
      ((digits value source).1.map fun text => .text (String.ofList text), (digits value source).2) := by
  obtain ⟨span, found, same⟩ := Option.map_eq_some_iff.mp (findCall_counted some bare closed signed)
  simp only [evaluateValue, found, same, evaluateCall, digits_wordCount]

/-- An argument that is not blank at its ends and does not run into the closing braces makes a call for
digits exactly when it is a decimal integer with an optional sign. The call then draws what this
integer asks for, of whatever size it is: nothing but a zero up to zero, and otherwise so many digits,
eighteen at most. With any other argument the text stays as it is, unless it has a call further on. -/
theorem digit_counts_unbounded (some : argument ≠ []) (bare : Bare isAsciiBlank argument)
    (free : ¬['}', '}'] <:+: argument) (last : argument.getLast? ≠ .some '}') :
    (WellFormed argument ↔ ∃ value, SignedDecimal argument value) ∧
      (∀ value, SignedDecimal argument value → ∀ clock source,
        evaluateValue clock (.text (callFor argument)) source =
          if value ≤ 0 then (.ok (.text "0"), source)
          else ((digits (min value 18) source).1.map fun text => .text (String.ofList text),
            (digits (min value 18) source).2)) ∧
      ((¬∃ value, SignedDecimal argument value) →
        (∀ span, Written (callFor argument) span → span.start = 0) → ∀ clock source,
          evaluateValue clock (.text (callFor argument)) source = (.ok (.text (callFor argument)), source)) := by
  have closed := inside_closed free last
  have well_formed := wellFormed_iff some bare closed
  refine ⟨well_formed, fun value signed clock source => ?_, fun uncounted alone clock source => ?_⟩
  · rw [evaluateValue_counted some bare closed signed]
    split
    next none =>
      rw [Draws.digits_none none]
      rfl
    next positive => rw [digits_min (Int.not_le.mp positive)]
  · have literal : KeyDraws.Literal (.text (callFor argument)) := by
      rintro content span ⟨⟩ written
      exact uncounted (well_formed.mp ⟨span, written, alone span written⟩)
    rw [KeyDraws.evaluateValue_literal literal]

/-- A count of two to the sixty-fourth with zeros in front, and one that is no integer. -/
theorem digit_counts_unbounded_long :
    evaluateValue ⟨0, 0⟩ (.text (callFor "+0018446744073709551616".toList)) ⟨[0, 0, 0, 0, 0, 0, 0, 5, 1]⟩ =
        (.ok (.text "000000000000000005"), ⟨[1]⟩) ∧
      evaluateValue ⟨0, 0⟩ (.text (callFor "1_8".toList)) ⟨[0, 0, 0, 0, 0, 0, 0, 5, 1]⟩ =
        (.ok (.text (callFor "1_8".toList)), ⟨[0, 0, 0, 0, 0, 0, 0, 5, 1]⟩) := by
  constructor
  · have number : (decimalFrom 0 "0018446744073709551616".toList : ℤ) = 18446744073709551616 := by
      decide +kernel
    have signed : SignedDecimal "+0018446744073709551616".toList 18446744073709551616 := by
      rw [← number]
      exact .plus (by decide) (List.all_eq_true.mp rfl)
    have drawn : digits 18 ⟨[0, 0, 0, 0, 0, 0, 0, 5, 1]⟩ = (.ok "000000000000000005".toList, ⟨[1]⟩) := by
      decide +kernel
    obtain ⟨-, counted, -⟩ := @digit_counts_unbounded "+0018446744073709551616".toList (by decide)
      ⟨by rintro c ⟨⟩; rfl, by rintro c ⟨⟩; rfl⟩ (splitPair?_eq_none.mp (by decide)) (by decide)
    rw [counted _ signed, if_neg (by decide), show min (18446744073709551616 : ℤ) 18 = 18 by decide, drawn]
    rfl
  · have refused : digitCount "1_8".toList = .error (.invalidDigits "1_8") := by decide +kernel
    have uncounted : ¬∃ value, SignedDecimal "1_8".toList value := by
      rintro ⟨value, signed⟩
      rw [digitCount_eq_ok.mpr ⟨value, signed, rfl⟩] at refused
      cases refused
    have none : findCall (callFor "1_8".toList) = none := by decide +kernel
    exact (@digit_counts_unbounded "1_8".toList (by decide) ⟨by rintro c ⟨⟩; rfl, by rintro c ⟨⟩; rfl⟩
      (splitPair?_eq_none.mp (by decide)) (by decide)).2.2 uncounted
      (fun span written => absurd written (findCall_eq_none.mp none span)) _ _

end MessagePress.Proofs.DigitCounts
