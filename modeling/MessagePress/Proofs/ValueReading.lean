import MessagePress.Proofs.MemberLists
import MessagePress.Proofs.NumberReading

/-! Reading back the text of a value. Whatever the strings hold, each one ends where it was
closed, so the brackets, braces and commas outside them stand for the structure that they were
printed for; the reader gets as deep as the value is nested. -/

namespace MessagePress.Proofs.ValueReading
open Json Json.Reader ReaderSteps NumberReading MemberLists
open Text.Utf8 (encode)

/-- Values that are nested at most so deep and whose numbers are in range. -/
def Fits : ℕ → Json → Prop
  | _, .null | _, .bool _ | _, .text _ => True
  | _, .number value => InRange value
  | 0, .array _ | 0, .object _ => False
  | depth + 1, .array items => ∀ item ∈ items, Fits depth item
  | depth + 1, .object members => ∀ member ∈ members, Fits depth member.2

def MembersFit (depth : ℕ) (members : Members) : Prop := ∀ member ∈ members, Fits depth member.2

theorem fits_null (depth : ℕ) : Fits depth .null := by cases depth <;> trivial

theorem fits_bool (depth : ℕ) (value : Bool) : Fits depth (.bool value) := by
  cases depth <;> trivial

theorem fits_text (depth : ℕ) (content : String) : Fits depth (.text content) := by
  cases depth <;> trivial

theorem fits_number {number : Number} {depth : ℕ} : Fits depth (.number number) ↔ InRange number := by
  cases depth <;> rfl

theorem Fits.deeper {depth : ℕ} {value : Json} (fits : Fits depth value) : Fits (depth + 1) value := by
  induction depth generalizing value with
  | zero => cases value <;> first | exact fits.elim | exact fits
  | succ depth ih =>
    cases value with
    | array items => exact fun item member => ih (fits item member)
    | object members => exact fun member found => ih (fits member found)
    | _ => exact fits

/-- What a value may be read back as: the same value but for numbers that are not integers,
and with the members of objects in order and without those that a later one replaces. -/
inductive ReadsAs : Json → Json → Prop
  | null : ReadsAs .null .null
  | bool (value : Bool) : ReadsAs (.bool value) (.bool value)
  | number {value read : Number} (reads : NumberReadsAs value read) :
      ReadsAs (.number value) (.number read)
  | text (content : String) : ReadsAs (.text content) (.text content)
  | array {items read : List Json} (reads : List.Forall₂ ReadsAs items read) :
      ReadsAs (.array items) (.array read)
  | object {members read : Members} (ordered : Ordered read)
      (reads : ∀ name, Option.Rel ReadsAs (members.reverse.lookup name) (read.lookup name)) :
      ReadsAs (.object members) (.object read)

variable {rest : List UInt8}

theorem commaSeparated_cons (part : List Char) (parts : List (List Char)) :
    commaSeparated (part :: parts) = part ++ parts.flatMap (',' :: ·) := by
  induction parts generalizing part with
  | nil => simp [commaSeparated]
  | cons next parts ih => simp [commaSeparated, ih]

theorem ident_reads {word : List Char} :
    Reads (readIdent word) (word.map byteOf ++ rest) rest () := by
  induction word with
  | nil => exact .pure ()
  | cons c word ih =>
    apply Reads.bind .next
    dsimp only
    rw [if_pos rfl]
    exact ih

/-- Parts as they stand behind a bracket, or behind other parts. -/
def parted (first : Bool) (parts : List (List Char)) : List Char :=
  if first then commaSeparated parts else parts.flatMap (',' :: ·)

theorem parted_cons (first : Bool) (part : List Char) (parts : List (List Char)) :
    encode (parted first (part :: parts)) =
      (if first then [] else [byteOf ',']) ++ (encode part ++ encode (parted false parts)) := by
  cases first with
  | true => rw [parted, if_pos rfl, commaSeparated_cons, encode_append]; rfl
  | false => rw [parted, if_neg (by decide), List.flatMap_cons, encode_append]; rfl

theorem parted_nil (first : Bool) : encode (parted first []) = [] := by cases first <;> rfl

theorem parted_length (parts : List (List Char)) :
    parts.length ≤ (encode (parted true parts)).length + 1 := by
  cases parts with
  | nil => exact Nat.zero_le _
  | cons part parts =>
    have behind := flatMap_length (f := (',' :: ·)) parts fun part => List.cons_ne_nil ',' part
    have bytes := flatMap_length (parts.flatMap (',' :: ·)) encodeChar_ne_nil
    rw [parted_cons, List.length_append, List.length_append, List.length_cons]
    unfold encode parted at *
    simp only [Bool.false_eq_true, if_false]
    omega

theorem parted_ends {mark : UInt8} (parts : List (List Char)) (ends : Ends (mark :: rest)) :
    Ends (encode (parted false parts) ++ mark :: rest) := by
  cases parts with
  | nil => exact ends
  | cons part parts =>
    rw [parted_cons]
    rintro byte ⟨⟩
    decide

/-- What a reader of values must do for one of them. -/
structure Readable (item : Reader Json) (value : Json) : Prop where
  begins : ∃ byte behind, encode value.render = byte :: behind ∧ isBlankByte byte = false ∧
    byte ≠ byteOf ']'
  reads : ∀ rest, Ends rest → ∃ read, ReadsAs value read ∧
    Reads item (encode value.render ++ rest) rest read

private theorem anotherItem_none (first : Bool) :
    Reads (anotherItem first) (byteOf ']' :: rest) (byteOf ']' :: rest) false := by
  apply Reads.bind (.peekToken (by decide))
  dsimp only
  rw [if_pos rfl]
  exact .pure false

private theorem anotherItem_some {byte : UInt8} (first : Bool) (visible : isBlankByte byte = false)
    (more : byte ≠ byteOf ']') :
    Reads (anotherItem first) ((if first then [] else [byteOf ',']) ++ byte :: rest)
      (byte :: rest) true := by
  cases first with
  | true =>
    apply Reads.bind (.peekToken visible)
    dsimp only
    rw [if_neg more, if_pos rfl]
    exact .pure true
  | false =>
    apply Reads.bind (.peekToken (by decide))
    dsimp only
    rw [if_neg (by decide), if_neg (by decide), if_pos rfl]
    refine .bind .skip (.bind (.peekToken visible) ?_)
    dsimp only
    rw [if_neg more]
    exact .pure true

private theorem bracket_ends : Ends (byteOf ']' :: rest) := by
  rintro byte ⟨⟩
  decide

theorem items_reads {item : Reader Json} {items : List Json}
    (readable : ∀ value ∈ items, Readable item value) {steps : ℕ} (first : Bool)
    (enough : items.length < steps) :
    ∃ read, List.Forall₂ ReadsAs items read ∧
      Reads (readItems item steps first)
        (encode (parted first (renderItems items)) ++ byteOf ']' :: rest) rest read := by
  induction items generalizing steps first with
  | nil =>
    obtain ⟨steps, rfl⟩ := Nat.exists_eq_add_one_of_ne_zero (Nat.ne_zero_of_lt enough)
    refine ⟨[], .nil, ?_⟩
    rw [renderItems, parted_nil]
    exact .bind (anotherItem_none first) (.bind .skip (.pure []))
  | cons value items ih =>
    obtain ⟨steps, rfl⟩ := Nat.exists_eq_add_one_of_ne_zero (Nat.ne_zero_of_lt enough)
    obtain ⟨here, behind⟩ := List.forall_mem_cons.mp readable
    obtain ⟨byte, tail, begins, visible, more⟩ := here.begins
    obtain ⟨others, related, later⟩ := @ih behind steps false (by simpa using enough)
    obtain ⟨read, same, now⟩ := here.reads _ (parted_ends (renderItems items) bracket_ends)
    refine ⟨read :: others, .cons same related, ?_⟩
    have another := @anotherItem_some (tail ++ (encode (parted false (renderItems items)) ++
      byteOf ']' :: rest)) byte first visible more
    rw [renderItems, parted_cons, List.append_assoc, List.append_assoc, begins]
    rw [begins] at now
    exact .bind another (.bind now (.bind later (.pure _)))

private theorem anotherMember_none (first : Bool) :
    Reads (anotherMember first) (byteOf '\x7d' :: rest) (byteOf '\x7d' :: rest) false := by
  apply Reads.bind (.peekToken (by decide))
  dsimp only
  rw [if_pos rfl]
  exact .pure false

private theorem anotherMember_some (first : Bool) :
    Reads (anotherMember first) ((if first then [] else [byteOf ',']) ++ byteOf '"' :: rest)
      (byteOf '"' :: rest) true := by
  cases first with
  | true =>
    apply Reads.bind (.peekToken (by decide))
    dsimp only
    rw [if_neg (by decide), if_pos rfl, if_pos rfl]
    exact .pure true
  | false =>
    apply Reads.bind (.peekToken (by decide))
    dsimp only
    rw [if_neg (by decide), if_neg (by decide), if_pos rfl]
    refine .bind .skip (.bind (.peekToken (by decide)) ?_)
    dsimp only
    rw [if_pos rfl]
    exact .pure true

private theorem brace_ends : Ends (byteOf '\x7d' :: rest) := by
  rintro byte ⟨⟩
  decide

theorem encode_quote (text : String) (behind : List Char) :
    encode (quote text ++ behind) =
      byteOf '"' :: (encode (escape text.toList) ++ byteOf '"' :: encode behind) := by
  have shown : quote text ++ behind =
      ['"'] ++ (escape text.toList ++ (['"'] ++ behind)) := by simp [quote]
  rw [shown, encode_append, encode_append, encode_append]
  rfl

private theorem key_reads (name : String) :
    Reads readKey (byteOf '"' :: (encode (escape name.toList) ++ byteOf '"' :: rest)) rest name :=
  .bind .skip (string_reads name)

private theorem colon_reads : Reads readColon (byteOf ':' :: rest) rest () := by
  apply Reads.bind (.peekToken (by decide))
  dsimp only
  rw [if_pos rfl]
  exact .skip

def MemberReadsAs (member read : String × Json) : Prop :=
  member.1 = read.1 ∧ ReadsAs member.2 read.2

theorem members_reads {item : Reader Json} {members : List (String × Json)}
    (readable : ∀ member ∈ members, Readable item member.2) {steps : ℕ} (first : Bool)
    (enough : members.length < steps) :
    ∃ read, List.Forall₂ MemberReadsAs members read ∧
      Reads (readMembers item steps first)
        (encode (parted first (renderMembers members)) ++ byteOf '\x7d' :: rest) rest read := by
  induction members generalizing steps first with
  | nil =>
    obtain ⟨steps, rfl⟩ := Nat.exists_eq_add_one_of_ne_zero (Nat.ne_zero_of_lt enough)
    refine ⟨[], .nil, ?_⟩
    rw [renderMembers, parted_nil]
    exact .bind (anotherMember_none first) (.bind .skip (.pure []))
  | cons member members ih =>
    obtain ⟨name, value⟩ := member
    obtain ⟨steps, rfl⟩ := Nat.exists_eq_add_one_of_ne_zero (Nat.ne_zero_of_lt enough)
    obtain ⟨here, behind⟩ := List.forall_mem_cons.mp readable
    obtain ⟨others, related, later⟩ := @ih behind steps false (by simpa using enough)
    obtain ⟨read, same, now⟩ := here.reads _ (@parted_ends rest _ (renderMembers members) brace_ends)
    refine ⟨(name, read) :: others, .cons ⟨rfl, same⟩ related, ?_⟩
    have shown : encode (quote name ++ ':' :: value.render) = byteOf '"' ::
        (encode (escape name.toList) ++ byteOf '"' :: byteOf ':' :: encode value.render) :=
      encode_quote name _
    rw [renderMembers, parted_cons, shown]
    simp only [List.append_assoc, List.cons_append]
    apply Reads.bind (anotherMember_some first)
    rw [if_pos rfl]
    exact .bind (key_reads name) (.bind colon_reads (.bind now (.bind later (.pure _))))

variable {array object : Reader Json}

private theorem null_readable : Readable (readWith array object) .null where
  begins := ⟨byteOf 'n', _, rfl, by decide, by decide⟩
  reads rest _ := by
    refine ⟨.null, .null, ?_⟩
    change Reads _ (byteOf 'n' :: (['u', 'l', 'l'].map byteOf ++ rest)) rest _
    apply Reads.bind (.peekToken (by decide))
    dsimp only
    rw [if_pos rfl]
    exact .bind .skip (.bind ident_reads (.pure _))

private theorem true_readable : Readable (readWith array object) (.bool true) where
  begins := ⟨byteOf 't', _, rfl, by decide, by decide⟩
  reads rest _ := by
    refine ⟨_, .bool true, ?_⟩
    change Reads _ (byteOf 't' :: (['r', 'u', 'e'].map byteOf ++ rest)) rest _
    apply Reads.bind (.peekToken (by decide))
    dsimp only
    rw [if_neg (by decide), if_pos rfl]
    exact .bind .skip (.bind ident_reads (.pure _))

private theorem false_readable : Readable (readWith array object) (.bool false) where
  begins := ⟨byteOf 'f', _, rfl, by decide, by decide⟩
  reads rest _ := by
    refine ⟨_, .bool false, ?_⟩
    change Reads _ (byteOf 'f' :: (['a', 'l', 's', 'e'].map byteOf ++ rest)) rest _
    apply Reads.bind (.peekToken (by decide))
    dsimp only
    rw [if_neg (by decide), if_neg (by decide), if_pos rfl]
    exact .bind .skip (.bind ident_reads (.pure _))

private theorem text_readable (content : String) :
    Readable (readWith array object) (.text content) where
  begins := ⟨byteOf '"', _, rfl, by decide, by decide⟩
  reads rest _ := by
    refine ⟨_, .text content, ?_⟩
    have quoted := encode_quote content []
    rw [List.append_nil] at quoted
    rw [render, quoted, List.cons_append, List.append_assoc, List.cons_append]
    apply Reads.bind (.peekToken (by decide))
    dsimp only
    rw [if_neg (by decide), if_neg (by decide), if_neg (by decide), if_neg (by decide),
      if_neg (by decide), if_pos rfl]
    exact .bind .skip (.bind (string_reads content) (.pure _))

private theorem number_ascii (number : Number) : ∀ c ∈ number.text, c.toNat < 0x80 := by
  intro c member
  have shown := NumberTexts.number_char number c member
  simp only [NumberTexts.isNumberChar, Bool.or_eq_true, beq_iff_eq] at shown
  rcases shown with (((digit | rfl) | rfl) | rfl) | rfl
  · exact (digit_range digit).2.trans_lt (by norm_num)
  all_goals decide

theorem digit_apart {byte : UInt8} (digit : isDigitByte byte = true) {c : Char}
    (other : isDigitByte (byteOf c) = false) : byte ≠ byteOf c := by
  rintro rfl
  rw [digit] at other
  cases other

theorem digit_visible {byte : UInt8} (digit : isDigitByte byte = true) :
    isBlankByte byte = false := by
  have space := digit_apart (c := ' ') digit (by decide)
  have newline := digit_apart (c := '\n') digit (by decide)
  have tab := digit_apart (c := '\t') digit (by decide)
  have return' := digit_apart (c := '\r') digit (by decide)
  simp only [isBlankByte, Bool.or_eq_false_iff, beq_eq_false_iff_ne]
  exact ⟨⟨⟨space, newline⟩, tab⟩, return'⟩

private theorem number_readable {number : Number} (range : InRange number) :
    Readable (readWith array object) (.number number) where
  begins := by
    obtain ⟨negative, unsigned, read, text, reads, -⟩ := @number_reads [] _ range (by simp [Ends])
    rw [render, encode_ascii (number_ascii number), text]
    cases negative with
    | true => exact ⟨byteOf '-', _, rfl, by decide, by decide⟩
    | false =>
      obtain ⟨byte, behind, shown, digit⟩ := number_begins reads
      rw [List.append_nil] at shown
      exact ⟨byte, behind, shown, digit_visible digit, digit_apart digit (by decide)⟩
  reads rest ends := by
    obtain ⟨negative, unsigned, read, text, reads, same⟩ := number_reads range ends
    refine ⟨.number read, .number same, ?_⟩
    rw [render, encode_ascii (number_ascii number), text]
    cases negative with
    | true =>
      apply Reads.bind (.peekToken (by decide))
      dsimp only
      rw [if_neg (by decide), if_neg (by decide), if_neg (by decide), if_pos rfl]
      exact .bind .skip (.bind reads (.pure _))
    | false =>
      obtain ⟨byte, behind, shown, digit⟩ := number_begins reads
      rw [if_neg (by decide), List.nil_append]
      rw [shown] at reads ⊢
      apply Reads.bind (.peekToken (digit_visible digit))
      dsimp only
      rw [if_neg (digit_apart digit (by decide)), if_neg (digit_apart digit (by decide)),
        if_neg (digit_apart digit (by decide)), if_neg (digit_apart digit (by decide)), if_pos digit]
      exact .bind reads (.pure _)

private theorem parted_enough {parts : List (List Char)} {mark : UInt8} :
    parts.length < (encode (parted true parts) ++ mark :: rest).length + 1 := by
  have bytes := parted_length parts
  rw [List.length_append, List.length_cons]
  omega

private theorem renderItems_length (items : List Json) :
    (renderItems items).length = items.length := by
  induction items with
  | nil => rfl
  | cons item items ih => rw [renderItems, List.length_cons, List.length_cons, ih]

private theorem renderMembers_length (members : List (String × Json)) :
    (renderMembers members).length = members.length := by
  induction members with
  | nil => rfl
  | cons member members ih => rw [renderMembers, List.length_cons, List.length_cons, ih]

private theorem encode_between {first last : Char} {inside : List Char} (left : first.toNat < 0x80)
    (right : last.toNat < 0x80) : encode (first :: inside ++ [last]) ++ rest =
      byteOf first :: (encode inside ++ byteOf last :: rest) := by
  have shown : first :: inside ++ [last] = [first] ++ (inside ++ [last]) := rfl
  rw [shown, encode_append, encode_append, encode_ascii (by simpa using left),
    @encode_ascii [last] (by simpa using right)]
  simp

private theorem array_readable {item : Reader Json} {items : List Json}
    (readable : ∀ value ∈ items, Readable item value) :
    Readable (readWith (Json.array <$> readArray item) object) (.array items) where
  begins := ⟨byteOf '[', _, rfl, by decide, by decide⟩
  reads rest _ := by
    have enough := @parted_enough rest (renderItems items) (byteOf ']')
    rw [renderItems_length] at enough
    obtain ⟨read, related, later⟩ := items_reads readable true enough
    refine ⟨.array read, .array related, ?_⟩
    rw [render, encode_between (by decide) (by decide)]
    apply Reads.bind (.peekToken (by decide))
    dsimp only
    rw [if_neg (by decide), if_neg (by decide), if_neg (by decide), if_neg (by decide),
      if_neg (by decide), if_neg (by decide), if_pos rfl]
    exact .map _ (.bind .skip (.bind .remaining later))

private theorem lookup_related {members read : List (String × Json)}
    (related : List.Forall₂ MemberReadsAs members read) (name : String) :
    Option.Rel ReadsAs (members.lookup name) (read.lookup name) := by
  induction related with
  | nil => exact .none
  | @cons member found members read same related ih =>
    obtain ⟨key, value⟩ := member
    obtain ⟨key', value'⟩ := found
    obtain ⟨named, same⟩ := same
    dsimp only at named same
    subst named
    rw [lookup_cons, lookup_cons]
    split
    · exact .some same
    · exact ih

private theorem object_readable {item : Reader Json} {members : List (String × Json)}
    (readable : ∀ member ∈ members, Readable item member.2) :
    Readable (readWith array (Json.object <$> readObject item)) (.object members) where
  begins := ⟨byteOf '\x7b', _, rfl, by decide, by decide⟩
  reads rest _ := by
    have enough := @parted_enough rest (renderMembers members) (byteOf '\x7d')
    rw [renderMembers_length] at enough
    obtain ⟨read, related, later⟩ := members_reads readable true enough
    refine ⟨.object (Members.ofList read), .object (ofList_ordered read) fun name => ?_, ?_⟩
    · rw [lookup_ofList]
      exact lookup_related (List.rel_reverse related) name
    · rw [render, encode_between (by decide) (by decide)]
      apply Reads.bind (.peekToken (by decide))
      dsimp only
      rw [if_neg (by decide), if_neg (by decide), if_neg (by decide), if_neg (by decide),
        if_neg (by decide), if_neg (by decide), if_neg (by decide), if_pos rfl]
      exact .map _ (.bind .skip (.bind .remaining (.bind later (.pure _))))

/-- A value is read back from its text by a reader that goes as deep as the value is nested. -/
theorem value_readable {depth : ℕ} {value : Json} (fits : Fits depth value) :
    Readable (readValue depth) value := by
  induction depth generalizing value with
  | zero =>
    cases value with
    | null => exact null_readable
    | bool value => cases value <;> [exact false_readable; exact true_readable]
    | number number => exact number_readable fits
    | text content => exact text_readable content
    | array items => exact fits.elim
    | object members => exact fits.elim
  | succ depth ih =>
    cases value with
    | null => exact null_readable
    | bool value => cases value <;> [exact false_readable; exact true_readable]
    | number number => exact number_readable fits
    | text content => exact text_readable content
    | array items => exact array_readable fun value member => ih (fits value member)
    | object members => exact object_readable fun member found => ih (fits member found)

/-- The text of a value that is nested no deeper than documents may be is a document of it. -/
theorem document_reads {value : Json} (fits : Fits depthLimit value) :
    ∃ read, Json.ofBytes (encode value.render) = .ok read ∧ ReadsAs value read := by
  obtain ⟨read, same, reads⟩ := (value_readable fits).reads [] (by simp [Ends])
  have finished : Reads readEnd [] [] () :=
    .bind (.bind (@Reads.takeWhile [] _ [] (by simp) (by simp)) .peek) (.pure ())
  have whole : Reads (readValue depthLimit >>= fun value => readEnd >>= fun _ => pure value)
      (encode value.render) [] read := by
    rw [List.append_nil] at reads
    exact reads.bind (finished.bind (.pure read))
  obtain ⟨passed, taken⟩ := whole 0
  refine ⟨read, ?_, same⟩
  rw [Json.ofBytes, readDocument]
  change Except.bind ((readValue depthLimit >>= fun value => readEnd >>= fun _ => pure value)
    ⟨encode value.render, 0⟩) _ = _
  rw [taken]
  rfl

end MessagePress.Proofs.ValueReading
