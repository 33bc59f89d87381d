import MessagePress.Proofs.JsonSyntax
import MessagePress.Proofs.PartialRuns
import MessagePress.Proofs.ReaderSteps

/-! How far numbers reach. A number is read from its own bytes alone: whatever follows it, unless
it could belong to a number too, the same bytes give the same number. -/

namespace MessagePress.Proofs.NumeralSpans
open Json Json.Reader ReaderSteps PartialRuns JsonSyntax

def isNumeralByte (byte : UInt8) : Bool := isNumeralChar (Char.ofNat byte.toNat)

/-- What no number goes on with. -/
def Stops (head : Option UInt8) : Prop := ∀ byte, head = some byte → isNumeralByte byte = false

/-- What looks the same to a number in front of it. -/
def Similar (rest other : List UInt8) : Prop :=
  rest.head? = other.head? ∨ Stops rest.head? ∧ Stops other.head?

/-- A reader that takes a part of a number, from bytes whose first one is known, and gives the
same for it in front of anything similar. -/
def Local (known : Option UInt8 → Prop) (reader : Reader α) : Prop :=
  ∀ cursor, known cursor.rest.head? → Yields (reader cursor) fun reached =>
    ∃ taken, cursor.rest = taken ++ reached.2.rest ∧ (∀ byte ∈ taken, isNumeralByte byte = true) ∧
      ∀ rest, Similar reached.2.rest rest → Reads reader (taken ++ rest) rest reached.1

variable {known : Option UInt8 → Prop} {byte : UInt8}

theorem digit_numeral : ∀ byte, isDigitByte byte = true → isNumeralByte byte = true := by
  intro byte digit
  have each : ∀ n < 256, isDigitByte (UInt8.ofNat n) = true → isNumeralByte (UInt8.ofNat n) = true := by
    decide +kernel
  have same : UInt8.ofNat byte.toNat = byte := UInt8.ofNat_toNat
  exact same ▸ each byte.toNat byte.toNat_lt (same.symm ▸ digit)

theorem Stops.noDigit {head : Option UInt8} (stops : Stops head) : head.any isDigitByte = false := by
  cases head with
  | none => rfl
  | some byte =>
    cases digit : isDigitByte byte with
    | false => simpa using digit
    | true => exact absurd (digit_numeral byte digit) (Bool.eq_false_iff.mp (stops byte rfl))

theorem Stops.ne {head : Option UInt8} (stops : Stops head) (numeral : isNumeralByte byte = true) :
    head ≠ some byte := by
  rintro rfl
  rw [stops byte rfl] at numeral
  cases numeral

theorem Similar.append {rest other : List UInt8} (similar : Similar rest other) (taken : List UInt8) :
    Similar (taken ++ rest) (taken ++ other) := by
  cases taken with
  | nil => exact similar
  | cons byte taken => exact Or.inl rfl

namespace Local

theorem weaken {reader : Reader α} (wide : Local (fun _ => True) reader) : Local known reader :=
  fun cursor _ => wide cursor trivial

theorem pure (value : α) : Local known (Pure.pure value) := fun cursor _ =>
  yields_ok.mpr ⟨[], rfl, by simp, fun rest _ => Reads.pure value⟩

theorem failing {reader : Reader α} (fails : ∀ cursor, ∃ fault, reader cursor = .error fault) :
    Local known reader := by
  intro cursor _ value given
  obtain ⟨fault, failed⟩ := fails cursor
  rw [failed] at given
  cases given

theorem fail (cause : Cause) : Local known (Reader.fail cause : Reader α) := failing fun _ => ⟨_, rfl⟩

theorem failAtNext (cause : Cause) : Local known (Reader.failAtNext cause : Reader α) :=
  failing fun _ => ⟨_, rfl⟩

theorem bind {first : Reader α} {next : α → Reader β} (front : Local known first)
    (behind : ∀ value, Local (fun _ => True) (next value)) :
    Local known (first >>= next) := by
  intro cursor begins
  rw [bind_apply, yields_bind]
  refine (front cursor begins).imp fun middle ⟨taken, whole, numeral, reads⟩ => ?_
  refine (behind middle.1 middle.2 trivial).imp fun last ⟨taken', whole', numeral', reads'⟩ => ?_
  refine ⟨taken ++ taken', by rw [whole, whole', List.append_assoc], ?_, fun rest similar => ?_⟩
  · exact List.forall_mem_append.mpr ⟨numeral, numeral'⟩
  · rw [List.append_assoc]
    exact (reads _ (whole' ▸ similar.append taken')).bind (reads' rest similar)

theorem takeDigits : Local known (takeWhile isDigitByte) := by
  intro cursor _
  have digits : ∀ byte ∈ cursor.rest.takeWhile isDigitByte, isDigitByte byte = true :=
    List.all_eq_true.mp List.all_takeWhile
  refine yields_ok.mpr ⟨cursor.rest.takeWhile isDigitByte, List.takeWhile_append_dropWhile.symm,
    fun byte member => digit_numeral byte (digits byte member), fun rest similar => ?_⟩
  refine .takeWhile digits fun byte head => ?_
  have noDigit : (rest.head?.any isDigitByte) = false := by
    rcases similar with heads | ⟨-, stops⟩
    · rw [← heads]
      have stop := List.head?_dropWhile_not isDigitByte cursor.rest
      cases ahead : (cursor.rest.dropWhile isDigitByte).head? with
      | none => rfl
      | some byte => rw [ahead] at stop; simpa using stop
    · exact stops.noDigit
  simpa [head] using noDigit

/-- A byte may be looked at, if what a number does not go on with makes no difference. -/
theorem peek {next : Option UInt8 → Reader β} (behind : ∀ head, known head → Local (· = head) (next head))
    (indifferent : ∀ head other, Stops head → Stops other → next head = next other) :
    Local known (Reader.peek >>= next) := by
  intro cursor begins
  rw [bind_apply, yields_bind]
  refine yields_ok.mpr ((behind _ begins cursor rfl).imp fun last ⟨taken, whole, numeral, reads⟩ => ?_)
  refine ⟨taken, whole, numeral, fun rest similar => Reads.bind .peek ?_⟩
  have same : next (taken ++ rest).head? = next cursor.rest.head? := by
    rw [whole]
    cases taken with
    | nil =>
      rcases similar with heads | ⟨stops, stops'⟩
      · rw [List.nil_append, List.nil_append, heads]
      · exact indifferent _ _ stops' stops
    | cons byte taken => rfl
  rw [same]
  exact reads rest similar

theorem skip {later : Reader β} (numeral : isNumeralByte byte = true) (behind : Local (fun _ => True) later)
    (begins : ∀ head, known head → head = some byte) :
    Local known (Reader.skip >>= fun _ => later) := by
  intro cursor known
  have ahead := begins _ known
  obtain ⟨rest, index⟩ := cursor
  match rest, ahead with
  | first :: rest, rfl =>
    rw [bind_apply, yields_bind]
    refine yields_ok.mpr ((behind ⟨rest, index + 1⟩ trivial).imp ?_)
    rintro last ⟨taken, whole, numerals, reads⟩
    refine ⟨first :: taken, ?_, List.forall_mem_cons.mpr ⟨numeral, numerals⟩, fun rest similar => ?_⟩
    · exact congrArg (first :: ·) whole
    · exact .bind .skip (reads rest similar)

/-- The place of a reader may be kept for its faults. -/
theorem get {later : Cursor → Reader β} (behind : ∀ start, Local (fun _ => True) (later start))
    (indifferent : ∀ start other cursor result, later start cursor = .ok result →
      later other cursor = .ok result) : Local known (MonadState.get >>= later) := by
  intro cursor _
  rw [bind_apply, yields_bind]
  refine yields_ok.mpr ((behind cursor cursor trivial).imp ?_)
  rintro last ⟨taken, whole, numeral, reads⟩
  refine ⟨taken, whole, numeral, fun rest similar => Reads.get fun index => ?_⟩
  intro start
  obtain ⟨passed, given⟩ := reads rest similar start
  exact ⟨passed, indifferent _ _ _ _ given⟩

end Local

/-- A reader of this kind that takes a digit first. -/
def LocalDigits (reader : Reader α) : Prop :=
  ∀ cursor, Yields (reader cursor) fun reached =>
    ∃ digit taken, cursor.rest = digit :: (taken ++ reached.2.rest) ∧ isDigitByte digit = true ∧
      (∀ byte ∈ taken, isNumeralByte byte = true) ∧
      ∀ rest, Similar reached.2.rest rest → Reads reader (digit :: (taken ++ rest)) rest reached.1

theorem LocalDigits.any {reader : Reader α} (digits : LocalDigits reader) : Local known reader :=
  fun cursor _ => (digits cursor).imp fun _ ⟨digit, taken, whole, first, numerals, reads⟩ =>
    ⟨digit :: taken, whole, List.forall_mem_cons.mpr ⟨digit_numeral digit first, numerals⟩, reads⟩

theorem LocalDigits.bind {first : Reader α} {next : α → Reader β} (front : LocalDigits first)
    (behind : ∀ value, Local (fun _ => True) (next value)) : LocalDigits (first >>= next) := by
  intro cursor
  rw [bind_apply, yields_bind]
  refine (front cursor).imp fun middle ⟨digit, taken, whole, decimal, numeral, reads⟩ => ?_
  refine (behind middle.1 middle.2 trivial).imp fun last ⟨taken', whole', numeral', reads'⟩ => ?_
  refine ⟨digit, taken ++ taken', by rw [whole, whole', List.append_assoc], decimal,
    List.forall_mem_append.mpr ⟨numeral, numeral'⟩, fun rest similar => ?_⟩
  rw [List.append_assoc]
  exact (reads _ (whole' ▸ similar.append taken')).bind (reads' rest similar)

theorem localDigits_next {later : Option UInt8 → Reader α}
    (numeral : ∀ byte, isDigitByte byte = true → Local (fun _ => True) (later (some byte)))
    (other : ∀ head, head.any isDigitByte = false → ∀ cursor, ∃ fault, later head cursor = .error fault) :
    LocalDigits (Reader.next >>= later) := by
  intro cursor
  rw [bind_apply, yields_bind]
  obtain ⟨rest, index⟩ := cursor
  cases rest with
  | nil =>
    obtain ⟨fault, failed⟩ := other none rfl ⟨[], index⟩
    refine yields_ok.mpr ?_
    rw [failed]
    exact yields_error
  | cons byte rest =>
    refine yields_ok.mpr ?_
    cases digit : isDigitByte byte with
    | false =>
      obtain ⟨fault, failed⟩ := other (some byte) (by simpa using digit) ⟨rest, index + 1⟩
      rw [failed]
      exact yields_error
    | true =>
      refine (numeral byte digit ⟨rest, index + 1⟩ trivial).imp ?_
      rintro last ⟨taken, whole, numerals, reads⟩
      exact ⟨byte, taken, congrArg (byte :: ·) whole, digit, numerals,
        fun rest similar => .bind .next (reads rest similar)⟩

variable {negative : Bool} {significand : Nat} {power : Int}

theorem readReal_local : Local known (readReal negative significand power) := by
  unfold readReal
  split
  · exact .pure _
  · exact .fail _

theorem readExponent_local : Local known (readExponent negative significand power) := by
  unfold readExponent
  dsimp only
  refine .peek (fun head _ => ?_) fun head other stops stops' => ?_
  · split
    case' isTrue signed =>
      have numeral : ∀ byte, head = some byte → isNumeralByte byte = true := by
        rintro byte rfl
        rcases signed with same | same <;> cases same <;> decide
      obtain ⟨byte, rfl⟩ : ∃ byte, head = some byte := by
        rcases signed with rfl | rfl <;> exact ⟨_, rfl⟩
      refine .skip (numeral byte rfl) ?_ fun _ same => same
    case' isFalse => refine .weaken ?_
    all_goals
      refine (localDigits_next (fun first digit => ?_) fun head other cursor => ?_).any
      · dsimp only
        rw [digit, Bool.not_true, if_neg Bool.false_ne_true]
        refine .get (fun start => .bind .takeDigits fun digits => ?_) fun start other cursor result given => ?_
        · split
          · exact readReal_local
          · split
            · exact .failing fun _ => ⟨_, rfl⟩
            · exact .pure _
        · have step : ∀ later : List UInt8 → Reader Number, (takeWhile isDigitByte >>= later) cursor =
              later (cursor.rest.takeWhile isDigitByte) ⟨_, _⟩ := fun _ => rfl
          rw [step] at given ⊢
          split at given
          next fits => rwa [if_pos fits]
          next large =>
            rw [if_neg large]
            split at given
            · cases given
            next zero => rwa [if_neg zero]
      · cases head with
        | none => exact ⟨_, rfl⟩
        | some byte =>
          have digit : isDigitByte byte = false := by simpa using other
          dsimp only
          rw [digit, Bool.not_false, if_pos rfl]
          exact ⟨_, rfl⟩
  · have plus : isNumeralByte (byteOf '+') = true := by decide
    have minus : isNumeralByte (byteOf '-') = true := by decide
    simp only [ne_eq, stops.ne plus, stops.ne minus, stops'.ne plus, stops'.ne minus]

theorem readExponentIfAny_local : Local known (readExponentIfAny negative significand power) := by
  unfold readExponentIfAny
  refine .peek (fun head _ => ?_) fun head other stops stops' => ?_
  · cases head with
    | none => exact readReal_local
    | some byte =>
      dsimp only
      split
      next letter =>
        refine .skip ?_ readExponent_local fun _ same => same
        rcases letter with rfl | rfl <;> decide
      next => exact readReal_local
  · have plain : ∀ {byte}, isNumeralByte byte = false → ¬(byte = byteOf 'e' ∨ byte = byteOf 'E') := by
      rintro byte other (rfl | rfl)
      all_goals cases other
    cases head with
    | none =>
      cases other with
      | none => rfl
      | some byte => exact (if_neg (plain (stops' byte rfl))).symm
    | some byte =>
      refine (if_neg (plain (stops byte rfl))).trans ?_
      cases other with
      | none => rfl
      | some byte => exact (if_neg (plain (stops' byte rfl))).symm

theorem readFraction_local : Local known (readFraction negative significand power) := by
  unfold readFraction
  refine .bind .takeDigits fun digits => ?_
  split
  · refine .failing fun cursor => ?_
    rw [bind_apply, show peek cursor = .ok (cursor.rest.head?, cursor) from rfl]
    cases cursor.rest.head? <;> exact ⟨_, rfl⟩
  · exact readExponentIfAny_local

theorem readNumber_local : LocalDigits (readNumber negative) := by
  unfold readNumber
  refine localDigits_next (fun first digit => ?_) fun head other cursor => ?_
  · dsimp only
    rw [digit, Bool.not_true, if_neg Bool.false_ne_true]
    split
    case' isTrue => refine .bind (.pure _) fun digits => ?_
    case' isFalse => refine .bind .takeDigits fun digits => ?_
    all_goals
      refine .peek (fun following _ => ?_) fun head other stops stops' => ?_
      · split
        · exact .failAtNext _
        split
        next point => exact .skip (by decide) readFraction_local fun _ same => same.trans point
        split
        next letter =>
          rcases letter with rfl | rfl
          · exact .skip (by decide) readExponent_local fun _ same => same
          · exact .skip (by decide) readExponent_local fun _ same => same
        split
        · split
          · exact .pure _
          · exact .fail _
        · exact readReal_local
      · have point : isNumeralByte (byteOf '.') = true := by decide
        have small : isNumeralByte (byteOf 'e') = true := by decide
        have large : isNumeralByte (byteOf 'E') = true := by decide
        simp only [stops.noDigit, stops'.noDigit, stops.ne point, stops'.ne point, stops.ne small,
          stops'.ne small, stops.ne large, stops'.ne large]
  · cases head with
    | none => exact ⟨_, rfl⟩
    | some byte =>
      have digit : isDigitByte byte = false := by simpa using other
      dsimp only
      rw [digit, Bool.not_false, if_pos rfl]
      exact ⟨_, rfl⟩

theorem skipDigit_local (cause : Cause) : LocalDigits (skipByte isDigitByte cause) := by
  unfold skipByte
  refine localDigits_next (fun first digit => ?_) fun head other cursor => ?_
  · dsimp only
    rw [if_pos digit]
    exact .pure _
  · cases head with
    | none => exact ⟨_, rfl⟩
    | some byte =>
      have digit : isDigitByte byte = false := by simpa using other
      dsimp only
      rw [digit, if_neg Bool.false_ne_true]
      exact ⟨_, rfl⟩

theorem skipExponentIfAny_local : Local known skipExponentIfAny := by
  unfold skipExponentIfAny
  dsimp only
  refine .peek (fun head _ => ?_) fun head other stops stops' => ?_
  · cases head with
    | none => exact .pure _
    | some byte =>
      dsimp only
      split
      next letter =>
        refine .skip (by rcases letter with rfl | rfl <;> decide) ?_ fun _ same => same
        have digits : Local (fun _ => True) (do
            let _ ← skipByte isDigitByte .invalidNumber
            let _ ← takeWhile isDigitByte) :=
          ((skipDigit_local _).bind fun _ => .bind .takeDigits fun _ => .pure _).any
        refine .peek (fun sign _ => ?_) fun head other stops stops' => ?_
        · split
          next signed =>
            rcases signed with rfl | rfl
            · exact .skip (by decide) digits fun _ same => same
            · exact .skip (by decide) digits fun _ same => same
          next => exact digits.weaken
        · have plus : isNumeralByte (byteOf '+') = true := by decide
          have minus : isNumeralByte (byteOf '-') = true := by decide
          simp only [stops.ne plus, stops.ne minus, stops'.ne plus, stops'.ne minus]
      next => exact .pure _
  · have apart : ∀ {head : Option UInt8}, Stops head → ∀ byte, head = some byte →
        ¬(byte = byteOf 'e' ∨ byte = byteOf 'E') := by
      rintro head stops byte rfl (rfl | rfl)
      · exact stops.ne (by decide) rfl
      · exact stops.ne (by decide) rfl
    cases head with
    | none =>
      cases other with
      | none => rfl
      | some byte => exact (if_neg (apart stops' byte rfl)).symm
    | some byte =>
      cases other with
      | none => exact if_neg (apart stops byte rfl)
      | some byte' => exact (if_neg (apart stops byte rfl)).trans (if_neg (apart stops' byte' rfl)).symm

theorem skipNumber_local : LocalDigits skipNumber := by
  unfold skipNumber
  dsimp only
  have fraction : ∀ {known}, Local known (do
      if (← peek) = some (byteOf '.') then
        skip
        let fraction ← takeWhile isDigitByte
        if fraction.isEmpty then failAtNext .invalidNumber
      skipExponentIfAny) := by
    intro known
    refine .peek (fun head _ => ?_) fun head other stops stops' => ?_
    · split
      next point =>
        refine .skip (by decide) (.bind .takeDigits fun digits => ?_) fun _ same => same.trans point
        split
        · exact .failing fun _ => ⟨_, rfl⟩
        · exact skipExponentIfAny_local
      next => exact skipExponentIfAny_local
    · have point : isNumeralByte (byteOf '.') = true := by decide
      simp only [stops.ne point, stops'.ne point]
  refine (skipDigit_local _).bind fun first => ?_
  split
  · refine .peek (fun following _ => ?_) fun head other stops stops' => ?_
    · split
      · exact .failing fun _ => ⟨_, rfl⟩
      · exact fraction
    · simp only [stops.noDigit, stops'.noDigit]
  · exact .bind .takeDigits fun _ => fraction

end MessagePress.Proofs.NumeralSpans
