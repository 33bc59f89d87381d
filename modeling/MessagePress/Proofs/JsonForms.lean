import MessagePress.Proofs.JsonStrings
import MessagePress.Proofs.NumberReading
import MessagePress.Proofs.NumeralSpans
import MessagePress.Proofs.ValueReading

/-! The written form of the values that a reader accepts. What a value was read from is a tree of
lexemes, and the tree tells the value: the numbers by what they are by themselves, the strings as
far as their parts stand for characters. -/

namespace MessagePress.Proofs.JsonForms
open Json Json.Reader ReaderSteps PartialRuns JsonSyntax JsonStrings NumeralSpans NumberReading
  ValueReading
open Text.Utf8 (encode)

variable {chars rest : List Char} {cursor : Cursor}

/-- What a string was read as. -/
def Names (pieces : List Piece) (name : String) : Prop :=
  Single pieces → name = String.ofList (content pieces)

mutual

/-- What a tree was read as. -/
def Means : Tree → Json → Prop
  | .word spelled, value => Json.ofBytes (encode spelled) = .ok value
  | .string pieces, value => ∃ name, value = .text name ∧ Names pieces name
  | .array items, value => ∃ values, value = .array values ∧ ItemsMean items values
  | .object members, value =>
    ∃ pairs, value = .object (Members.ofList pairs) ∧ MembersMean members pairs

def ItemsMean : List Tree → List Json → Prop
  | [], values => values = []
  | item :: items, values =>
    ∃ value others, values = value :: others ∧ Means item value ∧ ItemsMean items others

def MembersMean : List (List Piece × Tree) → List (String × Json) → Prop
  | [], pairs => pairs = []
  | (pieces, tree) :: members, pairs =>
    ∃ name value others, pairs = (name, value) :: others ∧ Names pieces name ∧ Means tree value ∧
      MembersMean members others

end

/-- A reader that has taken lexemes from a text, and what it left. -/
def Took (lexemes : List Lexeme) (chars : List Char) (cursor : Cursor) : Prop :=
  ∃ rest, cursor.rest = encode rest ∧ Written lexemes chars rest

/-- A reader has taken a tree, whose value it gives if no part of a number follows. -/
def TookValue (chars : List Char) (reached : Json × Cursor) : Prop :=
  ∃ tree, Took (lexemes tree) chars reached.2 ∧ (Stops reached.2.rest.head? → Means tree reached.1)

/-- A reader has taken a tree that nobody asked for. -/
def TookTree (chars : List Char) (cursor : Cursor) : Prop := ∃ tree, Took (lexemes tree) chars cursor

theorem yields_peekToken {condition : Option UInt8 × Cursor → Prop} (place : cursor.rest = encode chars)
    (ended : ∀ behind, behind.rest = encode [] → Written [] chars [] → condition (none, behind))
    (goesOn : ∀ c rest behind, behind.rest = encode (c :: rest) → isBlank c = false →
      Written [] chars (c :: rest) → condition (some (lead c), behind)) :
    Yields (peekToken cursor) condition := by
  have blanks : ∀ c ∈ chars.takeWhile isBlank, isBlank c = true := List.all_eq_true.mp List.all_takeWhile
  have whole : Written [] chars (chars.dropWhile isBlank) := by
    have blank : Written [] (chars.takeWhile isBlank ++ chars.dropWhile isBlank) _ := .nil blanks
    rwa [List.takeWhile_append_dropWhile] at blank
  unfold peekToken
  rw [bind_apply, yields_bind]
  refine yields_ok.mpr ?_
  rw [place, (encode_blanks chars).2]
  refine yields_peek rfl (fun none => ?_) fun c rest begins => ?_
  · rw [none] at whole
    exact ended _ (congrArg encode none) whole
  · rw [begins] at whole
    refine goesOn c rest _ (congrArg encode begins) ?_ whole
    have stop := List.head?_dropWhile_not isBlank chars
    rw [begins] at stop
    exact stop

theorem stops_of_written {mark : Char} (written : Written [] chars (mark :: rest))
    (plain : isNumeralByte (lead mark) = false) : Stops (encode chars).head? := by
  cases written with
  | @nil blanks _ blank =>
    intro byte head
    cases blanks with
    | nil =>
      rw [List.nil_append, encode_head?] at head
      cases head
      exact plain
    | cons c blanks =>
      rw [List.cons_append, encode_head?] at head
      cases head
      have first := blank c List.mem_cons_self
      simp only [isBlank, Bool.or_eq_true, beq_iff_eq] at first
      rcases first with ((rfl | rfl) | rfl) | rfl <;> decide

theorem readIdent_takes {word : List Char} (ascii : ∀ c ∈ word, c.toNat < 0x80)
    (place : cursor.rest = encode chars) :
    Yields (readIdent word cursor) fun reached => ∃ rest,
      chars = word ++ rest ∧ reached.2.rest = encode rest := by
  induction word generalizing cursor chars with
  | nil => exact yields_pure.mpr ⟨chars, rfl, place⟩
  | cons expected word ih =>
    obtain ⟨first, later⟩ := List.forall_mem_cons.mp ascii
    rw [readIdent, bind_apply, yields_bind]
    refine yields_next place (fun _ => yields_fail) fun c rest tail begins behind => ?_
    subst begins
    dsimp only
    split
    next same =>
      obtain rfl := (lead_eq first).mp same
      refine (ih later (behind first)).imp ?_
      rintro reached ⟨rest, rfl, place'⟩
      exact ⟨rest, rfl, place'⟩
    next => exact yields_fail

private theorem numeralByte_ascii {byte : UInt8} (numeral : isNumeralByte byte = true) :
    byte.toNat < 0x80 := by
  have each : ∀ n < 256, isNumeralByte (UInt8.ofNat n) = true → n < 0x80 := by decide +kernel
  refine each _ byte.toNat_lt ?_
  rwa [UInt8.ofNat_toNat]

theorem numeralChar_ascii {c : Char} (numeral : isNumeralChar c = true) : c.toNat < 0x80 := by
  simp only [isNumeralChar, Bool.or_eq_true, beq_iff_eq] at numeral
  rcases numeral with ((((digit | rfl) | rfl) | rfl) | rfl) | rfl
  · exact (digit_range digit).2.trans_lt (by decide)
  all_goals decide

theorem encode_numeral {taken bytes : List UInt8} (whole : encode chars = taken ++ bytes)
    (numerals : ∀ byte ∈ taken, isNumeralByte byte = true) :
    ∃ text rest, chars = text ++ rest ∧ taken = encode text ∧ bytes = encode rest ∧
      ∀ c ∈ text, isNumeralChar c = true := by
  induction taken generalizing chars with
  | nil => exact ⟨[], chars, rfl, rfl, whole.symm, by simp⟩
  | cons byte taken ih =>
    obtain ⟨first, later⟩ := List.forall_mem_cons.mp numerals
    obtain ⟨c, rest, rfl, rfl, ascii, behind⟩ := encode_cons_ascii whole (numeralByte_ascii first)
    obtain ⟨text, rest, rfl, rfl, same, numeral⟩ := ih behind.symm later
    refine ⟨c :: text, rest, rfl, (encode_ascii_cons ascii text).symm, same, ?_⟩
    rw [isNumeralByte, toNat_byteOf ascii, Char.ofNat_toNat] at first
    exact List.forall_mem_cons.mpr ⟨first, numeral⟩

theorem readEnd_reads : Reads readEnd [] [] () :=
  .bind (.bind (@Reads.takeWhile [] _ [] (by simp) (by simp)) .peek) (.pure ())

/-- What is read from all of some bytes is their document. -/
theorem ofBytes_of_reads {bytes : List UInt8} {value : Json}
    (reads : Reads (readValue depthLimit) bytes [] value) : Json.ofBytes bytes = .ok value := by
  have whole : Reads (readValue depthLimit >>= fun value => readEnd >>= fun _ => pure value) bytes [] value :=
    reads.bind (readEnd_reads.bind (.pure value))
  obtain ⟨passed, taken⟩ := whole 0
  rw [Json.ofBytes, readDocument]
  change Except.bind ((readValue depthLimit >>= fun value => readEnd >>= fun _ => pure value)
    ⟨bytes, 0⟩) _ = _
  rw [taken]
  rfl

theorem digits_document {digit : UInt8} {behind : List UInt8} {number : Number}
    (first : isDigitByte digit = true) (reads : Reads (readNumber false) (digit :: behind) [] number) :
    Json.ofBytes (digit :: behind) = .ok (.number number) := by
  refine ofBytes_of_reads (.bind (.peekToken (digit_visible first)) ?_)
  dsimp only
  rw [if_neg (digit_apart first (by decide)), if_neg (digit_apart first (by decide)),
    if_neg (digit_apart first (by decide)), if_neg (digit_apart first (by decide)), if_pos first]
  exact .bind reads (.pure _)

theorem minus_document {behind : List UInt8} {number : Number}
    (reads : Reads (readNumber true) behind [] number) :
    Json.ofBytes (byteOf '-' :: behind) = .ok (.number number) := by
  refine ofBytes_of_reads (.bind (.peekToken (by decide)) ?_)
  dsimp only
  rw [if_neg (by decide), if_neg (by decide), if_neg (by decide), if_pos rfl]
  exact .bind .skip (.bind reads (.pure _))

theorem Took.after {front behind : List Lexeme} {middle : List Char} (taken : Written front chars middle)
    (took : Took behind middle cursor) : Took (front ++ behind) chars cursor := by
  obtain ⟨rest, place, later⟩ := took
  exact ⟨rest, place, taken.append later⟩

theorem number_takes {reader : Reader α} (digits : LocalDigits reader)
    (place : cursor.rest = encode chars) :
    Yields (reader cursor) fun reached => ∃ digit text rest,
      chars = digit :: text ++ rest ∧ digit.isDigit = true ∧ (∀ c ∈ digit :: text, isNumeralChar c = true) ∧
        reached.2.rest = encode rest ∧ (Stops reached.2.rest.head? →
          Reads reader (encode (digit :: text)) [] reached.1) := by
  refine (digits cursor).imp ?_
  rintro ⟨value, cursor'⟩ ⟨first, taken, whole, digit, numeral, reads⟩
  have numerals : ∀ byte ∈ first :: taken, isNumeralByte byte = true :=
    List.forall_mem_cons.mpr ⟨digit_numeral first digit, numeral⟩
  obtain ⟨text, rest, rfl, same, behind, spelled⟩ := encode_numeral (place.symm.trans whole) numerals
  cases text with
  | nil => cases same
  | cons c text =>
    have shown := same
    rw [encode_ascii_cons (numeralChar_ascii (spelled c List.mem_cons_self))] at same
    obtain ⟨rfl, rfl⟩ := List.cons.inj same
    refine ⟨c, text, rest, rfl, ?_, spelled, behind, fun stops => ?_⟩
    · rwa [← (lead_eq (numeralChar_ascii (spelled c List.mem_cons_self))).mpr rfl, lead_digit] at digit
    · have alone := reads [] (Or.inr ⟨stops, nofun⟩)
      rwa [List.append_nil, shown] at alone

theorem name_document {word : List Char} {value : Json}
    (named : word = "null".toList ∧ value = .null ∨ word = "true".toList ∧ value = .bool true ∨
      word = "false".toList ∧ value = .bool false) : Json.ofBytes (encode word) = .ok value := by
  rcases named with ⟨rfl, rfl⟩ | ⟨rfl, rfl⟩ | ⟨rfl, rfl⟩ <;> rfl

/-- What was taken behind blanks was taken with them. -/
theorem TookValue.behind {reached : Json × Cursor} (blank : Written [] chars rest)
    (took : TookValue rest reached) : TookValue chars reached := by
  obtain ⟨tree, taken, meant⟩ := took
  exact ⟨tree, taken.after blank, meant⟩

private theorem took_word (word : List Char) {reached : Json × Cursor} (formed : (Lexeme.word word).Formed)
    (place : reached.2.rest = encode rest)
    (meant : Stops reached.2.rest.head? → Json.ofBytes (encode word) = .ok reached.1) :
    TookValue (word ++ rest) reached :=
  ⟨.word word, ⟨rest, place, .one _ formed⟩, by rwa [Means]⟩

private theorem name_takes {first : Char} {word : List Char} {value : Json}
    (place : cursor.rest = encode (first :: rest)) (ascii : ∀ c ∈ first :: word, c.toNat < 0x80)
    (named : first :: word ∈ names) (meant : Json.ofBytes (encode (first :: word)) = .ok value) :
    Yields ((do
      skip
      readIdent word
      return value : Reader Json) cursor) (TookValue (first :: rest)) := by
  obtain ⟨small, others⟩ := List.forall_mem_cons.mp ascii
  simp only [bind_apply, yields_bind]
  refine yields_skip place small fun behind place => ?_
  refine (readIdent_takes others place).imp ?_
  rintro ⟨_, cursor⟩ ⟨rest, rfl, place'⟩
  exact yields_pure.mpr (took_word _ (Or.inl named) place' fun _ => meant)

theorem readWith_takes {array object : Reader Json}
    (arrays : ∀ rest cursor, cursor.rest = encode ('[' :: rest) →
      Yields (array cursor) (TookValue ('[' :: rest)))
    (objects : ∀ rest cursor, cursor.rest = encode ('\x7b' :: rest) →
      Yields (object cursor) (TookValue ('\x7b' :: rest)))
    (place : cursor.rest = encode chars) : Yields (readWith array object cursor) (TookValue chars) := by
  unfold readWith
  rw [bind_apply, yields_bind]
  refine yields_peekToken place (fun _ _ _ => yields_failAtNext) fun c rest cursor place _ blank => ?_
  suffices Yields _ (TookValue (c :: rest)) from this.imp fun _ => TookValue.behind blank
  dsimp only
  split
  next null =>
    obtain rfl := (lead_eq (by decide)).mp null
    exact name_takes place (by simp) (by decide) rfl
  split
  next true =>
    obtain rfl := (lead_eq (by decide)).mp true
    exact name_takes place (by simp) (by decide) rfl
  split
  next false =>
    obtain rfl := (lead_eq (by decide)).mp false
    exact name_takes place (by simp) (by decide) rfl
  split
  next minus =>
    obtain rfl := (lead_eq (by decide)).mp minus
    simp only [bind_apply, yields_bind]
    refine yields_skip place (by decide) fun behind place => (number_takes readNumber_local place).imp ?_
    rintro ⟨number, cursor⟩ ⟨digit, text, rest, rfl, decimal, numeral, place', reads⟩
    refine yields_pure.mpr (took_word ('-' :: digit :: text) (Or.inr ?_) place' fun stops => ?_)
    · exact ⟨⟨['-'], digit, text, rfl, Or.inr rfl, decimal⟩, List.forall_mem_cons.mpr ⟨rfl, numeral⟩⟩
    · rw [encode_ascii_cons (by decide)]
      exact minus_document (reads stops)
  split
  next digit =>
    rw [bind_apply, yields_bind]
    refine (number_takes readNumber_local place).imp ?_
    rintro ⟨number, cursor⟩ ⟨digit, text, rest, same, decimal, numeral, place', reads⟩
    obtain ⟨rfl, rfl⟩ := List.cons.inj same
    refine yields_pure.mpr (took_word (c :: text) (Or.inr ?_) place' fun stops => ?_)
    · exact ⟨⟨[], c, text, rfl, Or.inl rfl, decimal⟩, numeral⟩
    · have shown := encode_ascii_cons (numeralChar_ascii (numeral c List.mem_cons_self)) text
      rw [shown]
      refine digits_document ?_ (shown ▸ reads stops)
      rwa [← (lead_eq (numeralChar_ascii (numeral c List.mem_cons_self))).mpr rfl]
  split
  next quote =>
    obtain rfl := (lead_eq (by decide)).mp quote
    simp only [bind_apply, yields_bind]
    refine yields_skip place (by decide) fun behind place => (readString_takes place).imp ?_
    rintro ⟨text, cursor⟩ ⟨pieces, rest, rfl, place, formed, contents⟩
    refine yields_pure.mpr ⟨.string pieces, ⟨rest, place, ?_⟩, fun _ => ⟨text, rfl, contents⟩⟩
    have string : Written [.string pieces] (Lexeme.text (.string pieces) ++ rest) rest := .one _ formed
    simpa [Lexeme.text, lexemes] using string
  split
  next bracket =>
    obtain rfl := (lead_eq (by decide)).mp bracket
    exact arrays _ _ place
  split
  next brace =>
    obtain rfl := (lead_eq (by decide)).mp brace
    exact objects _ _ place
  next => exact yields_failAtNext

end MessagePress.Proofs.JsonForms
