import MessagePress.Proofs.JsonSyntax
import MessagePress.Proofs.PartialRuns
import MessagePress.Proofs.ReaderSteps

/-! The written form of strings that a reader accepts. The bytes are those of a text; every mark
is a byte of its own, so what is read from the bytes stands in the text. -/

namespace MessagePress.Proofs.JsonStrings
open Json Json.Reader ReaderSteps PartialRuns JsonSyntax Utf8Coding
open Text.Utf8 (encode)

variable {chars rest : List Char} {bytes : List UInt8} {byte : UInt8} {c d : Char} {cursor : Cursor}

theorem yields_fail {cause : Cause} {condition : α × Cursor → Prop} :
    Yields ((fail cause : Reader α) cursor) condition := yields_error

theorem yields_failAtNext {cause : Cause} {condition : α × Cursor → Prop} :
    Yields ((failAtNext cause : Reader α) cursor) condition := yields_error

/-- The first byte of a character. -/
def lead (c : Char) : UInt8 := (String.utf8EncodeChar c).headD 0

theorem encode_cons (c : Char) (rest : List Char) :
    encode (c :: rest) = String.utf8EncodeChar c ++ encode rest := List.flatMap_cons

theorem encode_ascii_cons (ascii : c.toNat < 0x80) (rest : List Char) :
    encode (c :: rest) = byteOf c :: encode rest := by
  rw [encode_cons, encodeChar_ascii ascii]
  rfl

/-- An ASCII character is its own first byte, and the other ones have a greater first byte. -/
theorem lead_cases (c : Char) :
    c.toNat < 0x80 ∧ (lead c).toNat = c.toNat ∨ 0x80 ≤ c.toNat ∧ 0xc0 ≤ (lead c).toNat := by
  obtain ⟨one, bytes⟩ | ⟨least, most, bytes⟩ | ⟨least, most, bytes⟩ | ⟨least, most, bytes⟩ :=
    encodeChar_cases c
  all_goals rw [lead, bytes, List.headD_cons, UInt8.toNat_ofNat']; omega

theorem encode_head? (c : Char) (rest : List Char) : (encode (c :: rest)).head? = some (lead c) := by
  have some := encodeChar_ne_nil c
  rw [encode_cons, lead]
  cases bytes : String.utf8EncodeChar c with
  | nil => exact absurd bytes some
  | cons first tail => rfl

theorem lead_eq (ascii : d.toNat < 0x80) : lead c = byteOf d ↔ c = d := by
  rw [← UInt8.toNat_inj, toNat_byteOf ascii, ← Char.toNat_inj]
  rcases lead_cases c with ⟨-, same⟩ | ⟨least, above⟩
  · rw [same]
  · exact iff_of_false (by omega) (by omega)

theorem lead_digit : isDigitByte (lead c) = c.isDigit := by
  have same : c.val.toNat = c.toNat := rfl
  rw [Bool.eq_iff_iff]
  simp only [isDigitByte, Char.isDigit, Bool.and_eq_true, decide_eq_true_eq, UInt8.le_iff_toNat_le,
    ge_iff_le, UInt32.le_iff_toNat_le, same]
  have low : UInt8.toNat 0x30 = 48 ∧ UInt8.toNat 0x39 = 57 := by decide
  have low' : '0'.val.toNat = 48 ∧ '9'.val.toNat = 57 := by decide
  rcases lead_cases c with ⟨-, lead⟩ | ⟨least, above⟩ <;> omega

theorem lead_blank : isBlankByte (lead c) = isBlank c := by
  have each : ∀ d : Char, d.toNat < 0x80 → (lead c == byteOf d) = (c == d) := by
    intro d ascii
    rw [Bool.eq_iff_iff, beq_iff_eq, beq_iff_eq]
    exact lead_eq ascii
  have blanks := each ' ' (by decide)
  have breaks := each '\n' (by decide)
  have tabs := each '\t' (by decide)
  have returns := each '\r' (by decide)
  rw [isBlank, ← blanks, ← breaks, ← tabs, ← returns]
  rfl

theorem encode_cons_ascii (same : encode chars = byte :: bytes) (ascii : byte.toNat < 0x80) :
    ∃ c rest, chars = c :: rest ∧ byte = byteOf c ∧ c.toNat < 0x80 ∧ bytes = encode rest := by
  cases chars with
  | nil => cases same
  | cons c rest =>
    have first : some (lead c) = some byte := by rw [← encode_head? c rest, same]; rfl
    rcases lead_cases c with ⟨small, -⟩ | ⟨-, above⟩
    · rw [encode_ascii_cons small] at same
      obtain ⟨rfl, rfl⟩ := List.cons.inj same
      exact ⟨c, rest, rfl, rfl, small, rfl⟩
    · rw [Option.some.inj first] at above
      omega

theorem encode_span {p : UInt8 → Bool} {q : Char → Bool}
    (inside : ∀ c, q c = true → ∀ byte ∈ String.utf8EncodeChar c, p byte = true)
    (outside : ∀ c, q c = false → p (lead c) = false) (chars : List Char) :
    (encode chars).takeWhile p = encode (chars.takeWhile q) ∧
      (encode chars).dropWhile p = encode (chars.dropWhile q) := by
  induction chars with
  | nil => exact ⟨rfl, rfl⟩
  | cons c chars ih =>
    cases known : q c with
    | true =>
      rw [encode_cons, List.takeWhile_append_of_pos (inside c known), ih.1,
        List.dropWhile_append_of_pos (inside c known), ih.2, List.takeWhile_cons_of_pos known,
        List.dropWhile_cons_of_pos known, encode_cons]
      exact ⟨rfl, rfl⟩
    | false =>
      have head := encode_head? c chars
      rw [List.takeWhile_cons_of_neg (by rw [known]; exact Bool.false_ne_true),
        List.dropWhile_cons_of_neg (by rw [known]; exact Bool.false_ne_true)]
      cases bytes : encode (c :: chars) with
      | nil => rw [bytes] at head; cases head
      | cons byte tail =>
        rw [bytes] at head
        cases head
        have stop : ¬ p (lead c) = true := by rw [outside c known]; exact Bool.false_ne_true
        rw [List.takeWhile_cons_of_neg stop, List.dropWhile_cons_of_neg stop]
        exact ⟨rfl, rfl⟩

theorem encode_blanks (chars : List Char) :
    (encode chars).takeWhile isBlankByte = encode (chars.takeWhile isBlank) ∧
      (encode chars).dropWhile isBlankByte = encode (chars.dropWhile isBlank) := by
  refine encode_span (fun c blank byte member => ?_) (fun c visible => ?_) chars
  · have small : c.toNat < 0x80 := by
      simp only [isBlank, Bool.or_eq_true, beq_iff_eq] at blank
      rcases blank with ((rfl | rfl) | rfl) | rfl <;> decide
    rw [encodeChar_ascii small, List.mem_singleton] at member
    rw [member, ← (lead_eq small).mpr rfl, lead_blank, blank]
  · rw [lead_blank, visible]

theorem encode_plain (chars : List Char) :
    (encode chars).takeWhile isPlainByte = encode (chars.takeWhile isPlain) ∧
      (encode chars).dropWhile isPlainByte = encode (chars.dropWhile isPlain) := by
  refine encode_span (fun c plain => ?_) (fun c special => ?_) chars
  · refine plainBytes ?_
    simp only [isPlain, Bool.and_eq_true, decide_eq_true_eq, bne_iff_ne] at plain
    exact ⟨plain.1.2, plain.2, plain.1.1⟩
  · have small : c.toNat < 0x80 := by
      simp only [isPlain, Bool.and_eq_false_iff, decide_eq_false_iff_not, bne_eq_false_iff_eq] at special
      rcases special with (control | rfl) | rfl
      · omega
      · decide
      · decide
    rw [(lead_eq small).mpr rfl]
    simp only [isPlain, Bool.and_eq_false_iff, decide_eq_false_iff_not, bne_eq_false_iff_eq] at special
    rcases special with (control | rfl) | rfl
    · have low : ¬(0x20 : UInt8) ≤ byteOf c := by
        rw [UInt8.le_iff_toNat_le, toNat_byteOf small]
        exact control
      simp [isPlainByte, low]
    · decide
    · decide

private theorem hexValue?_ascii {value : Nat} (digit : hexValue? byte = some value) : byte.toNat < 0x80 := by
  have each : ∀ n < 256, (hexValue? (UInt8.ofNat n)).isSome = true → n < 0x80 := by decide +kernel
  refine each _ byte.toNat_lt ?_
  rw [UInt8.ofNat_toNat, digit]
  rfl

private theorem hexValue?_byteOf (ascii : c.toNat < 0x80) : hexValue? (byteOf c) = Text.digitValue? 16 c := by
  rw [hexValue?, toNat_byteOf ascii, Char.ofNat_toNat]

theorem readHexCode_takes (place : cursor.rest = encode chars) :
    Yields (readHexCode cursor) fun reached => ∃ a b c d rest,
      chars = a :: b :: c :: d :: rest ∧ reached.2.rest = encode rest ∧
        JsonSyntax.hexCode? a b c d = some reached.1 := by
  intro reached given
  unfold readHexCode at given
  dsimp only at given
  split at given
  · cases given
  split at given
  next code found =>
    cases given
    unfold Json.hexCode? at found
    split at found
    next w x y z taken =>
      simp only [Option.bind_eq_bind, Option.bind_eq_some_iff, pure] at found
      obtain ⟨first, one, second, two, third, three, fourth, four, total⟩ := found
      have whole : encode chars = w :: x :: y :: z :: cursor.rest.drop 4 := by
        rw [← place]
        exact (List.take_append_drop 4 cursor.rest).symm.trans (congrArg (· ++ _) taken)
      obtain ⟨a, rest, rfl, rfl, ascii, later⟩ := encode_cons_ascii whole (hexValue?_ascii one)
      obtain ⟨b, rest, rfl, rfl, ascii', later⟩ := encode_cons_ascii later.symm (hexValue?_ascii two)
      obtain ⟨c, rest, rfl, rfl, ascii'', later⟩ := encode_cons_ascii later.symm (hexValue?_ascii three)
      obtain ⟨d, rest, rfl, rfl, ascii''', later⟩ := encode_cons_ascii later.symm (hexValue?_ascii four)
      refine ⟨a, b, c, d, rest, rfl, later, ?_⟩
      rw [hexValue?_byteOf ascii] at one
      rw [hexValue?_byteOf ascii'] at two
      rw [hexValue?_byteOf ascii''] at three
      rw [hexValue?_byteOf ascii'''] at four
      simp only [JsonSyntax.hexCode?, one, two, three, four, Option.bind_eq_bind, Option.bind_some]
      exact total
    next => cases found
  next => cases given

theorem yields_next {condition : Option UInt8 × Cursor → Prop} (place : cursor.rest = encode chars)
    (ended : chars = [] → condition (none, cursor))
    (goesOn : ∀ c rest tail, chars = c :: rest → (c.toNat < 0x80 → tail = encode rest) →
      condition (some (lead c), ⟨tail, cursor.index + 1⟩)) : Yields (next cursor) condition := by
  obtain ⟨bytes, index⟩ := cursor
  subst place
  cases chars with
  | nil => exact yields_ok.mpr (ended rfl)
  | cons c rest =>
    have head := encode_head? c rest
    cases bytes : encode (c :: rest) with
    | nil => rw [bytes] at head; cases head
    | cons byte tail =>
      rw [bytes] at head goesOn
      cases head
      refine yields_ok.mpr (goesOn c rest tail rfl fun ascii => ?_)
      rw [encode_ascii_cons ascii] at bytes
      exact (List.cons.inj bytes).2.symm

private theorem simpleEscape?_ascii (simple : (simpleEscape? byte).isSome = true) : byte.toNat < 0x80 := by
  have each : ∀ n < 256, (simpleEscape? (UInt8.ofNat n)).isSome = true → n < 0x80 := by decide +kernel
  refine each _ byte.toNat_lt ?_
  rwa [UInt8.ofNat_toNat]

private theorem lead_ascii (ascii : c.toNat < 0x80) : lead c = byteOf c := (lead_eq ascii).mpr rfl

private theorem lead_small (small : (lead c).toNat < 0x80) : c.toNat < 0x80 := by
  rcases lead_cases c with ⟨ascii, -⟩ | ⟨-, above⟩ <;> omega

theorem yields_peek {condition : Option UInt8 × Cursor → Prop} (place : cursor.rest = encode chars)
    (ended : chars = [] → condition (none, cursor))
    (goesOn : ∀ c rest, chars = c :: rest → condition (some (lead c), cursor)) :
    Yields (peek cursor) condition := by
  have head : cursor.rest.head? = (encode chars).head? := by rw [place]
  refine yields_ok.mpr ?_
  rw [head]
  cases chars with
  | nil => exact ended rfl
  | cons c rest =>
    rw [encode_head?]
    exact goesOn c rest rfl

theorem yields_skip {condition : Unit × Cursor → Prop} (place : cursor.rest = encode (c :: rest))
    (ascii : c.toNat < 0x80) (later : ∀ behind, behind.rest = encode rest → condition ((), behind)) :
    Yields (skip cursor) condition := by
  refine yields_ok.mpr (later _ ?_)
  rw [place, encode_ascii_cons ascii]
  rfl

private theorem expectEscapeByte_takes {expected : Char} (ascii : expected.toNat < 0x80)
    (place : cursor.rest = encode chars) :
    Yields (expectEscapeByte expected cursor) fun reached => ∃ rest,
      chars = expected :: rest ∧ reached.2.rest = encode rest := by
  unfold expectEscapeByte
  rw [bind_apply, yields_bind]
  refine yields_peek place (fun _ => yields_fail) ?_
  rintro c rest rfl
  dsimp only
  rw [bind_apply, yields_bind]
  refine yields_ok.mpr ?_
  split
  next same =>
    obtain rfl := (lead_eq ascii).mp same
    refine yields_pure.mpr ⟨rest, rfl, ?_⟩
    dsimp only
    rw [place, encode_ascii_cons ascii]
    rfl
  next => exact yields_fail

theorem readUnicodeEscape_takes (place : cursor.rest = encode chars) :
    Yields (readUnicodeEscape cursor) fun reached => ∃ pieces rest,
      '\\' :: 'u' :: chars = written pieces ++ rest ∧ reached.2.rest = encode rest ∧
        (∀ piece ∈ pieces, piece.Formed) ∧ (Single pieces → content pieces = [reached.1]) := by
  unfold readUnicodeEscape
  rw [bind_apply, yields_bind]
  refine (readHexCode_takes place).imp ?_
  rintro ⟨code, cursor⟩ ⟨a, b, c, d, rest, rfl, place, value⟩
  dsimp only at place value ⊢
  split
  · exact yields_fail
  split
  next apart below =>
    refine yields_pure.mpr ⟨[.code a b c d], rest, rfl, place, ?_, fun _ => ?_⟩
    · simp [Piece.Formed, value]
    · have single : isSurrogate code = false := by
        simp only [isSurrogate, Bool.and_eq_false_iff, decide_eq_false_iff_not]
        omega
      have char : (Piece.code a b c d).char? = some (Char.ofNat code) := by
        rw [Piece.char?, value, Option.filter, single]
        rfl
      rw [content, List.filterMap_cons_some char, List.filterMap_nil]
  next apart above =>
    simp only [bind_apply, yields_bind]
    refine (expectEscapeByte_takes (show '\\'.toNat < 0x80 by decide) place).imp ?_
    rintro ⟨_, behind⟩ ⟨rest, rfl, place'⟩
    refine (expectEscapeByte_takes (show 'u'.toNat < 0x80 by decide) place').imp ?_
    rintro ⟨_, behind⟩ ⟨rest, rfl, place''⟩
    refine (readHexCode_takes place'').imp ?_
    rintro ⟨low, cursor⟩ ⟨a', b', c', d', rest, rfl, place, value'⟩
    dsimp only at place value' ⊢
    split
    · exact yields_fail
    refine yields_pure.mpr ⟨[.code a b c d, .code a' b' c' d'], rest, rfl, place, ?_, fun single => ?_⟩
    · simp [Piece.Formed, value, value']
    · have pair : isSurrogate code = true := by
        simp only [isSurrogate, Bool.and_eq_true, decide_eq_true_eq]
        omega
      have first := (single_cons.mp single).1
      simp [Piece.char?, value, pair] at first

theorem readEscape_takes (place : cursor.rest = encode chars) :
    Yields (Json.readEscape cursor) fun reached => ∃ pieces rest,
      '\\' :: chars = written pieces ++ rest ∧ reached.2.rest = encode rest ∧
        (∀ piece ∈ pieces, piece.Formed) ∧ (Single pieces → content pieces = [reached.1]) := by
  unfold Json.readEscape
  rw [bind_apply, yields_bind]
  refine yields_next place (fun _ => yields_fail) fun c rest tail begins later => ?_
  subst begins
  dsimp only
  cases simple : simpleEscape? (lead c) with
  | some value =>
    have ascii := lead_small (simpleEscape?_ascii (by rw [simple]; rfl))
    rw [lead_ascii ascii] at simple
    refine yields_pure.mpr ⟨[.letter c], rest, rfl, later ascii, ?_, fun _ => ?_⟩
    · simp [Piece.Formed, ascii, simple]
    · rw [content, List.filterMap_cons_some (show (Piece.letter c).char? = some value from simple),
        List.filterMap_nil]
  | none =>
    dsimp only
    split
    next unicode =>
      obtain rfl := (lead_eq (by decide)).mp unicode
      exact readUnicodeEscape_takes (later (by decide))
    next => exact yields_fail

private theorem plain_run (chars : List Char) : ∃ pieces left, chars = written pieces ++ left ∧
    (∀ piece ∈ pieces, piece.Formed) ∧ (encode chars).takeWhile isPlainByte = encode (content pieces) ∧
      (encode chars).dropWhile isPlainByte = encode left := by
  obtain ⟨run, behind⟩ := encode_plain chars
  refine ⟨(chars.takeWhile isPlain).map .plain, chars.dropWhile isPlain, ?_, ?_, ?_, behind⟩
  · rw [written_plain, List.takeWhile_append_dropWhile]
  · intro piece member
    obtain ⟨c, found, rfl⟩ := List.mem_map.mp member
    exact List.all_eq_true.mp List.all_takeWhile c found
  · rw [run, content_plain]

/-- The inside of a string with its closing quote. -/
theorem readStringBytes_takes {steps : Nat} (place : cursor.rest = encode chars) :
    Yields (readStringBytes steps cursor) fun reached => ∃ pieces rest,
      chars = written pieces ++ '"' :: rest ∧ reached.2.rest = encode rest ∧
        (∀ piece ∈ pieces, piece.Formed) ∧ (Single pieces → reached.1 = encode (content pieces)) := by
  induction steps generalizing cursor chars with
  | zero => exact yields_fail
  | succ steps ih =>
    rw [readStringBytes]
    simp only [bind_apply, yields_bind]
    obtain ⟨run, left, rfl, formed, taken, behind⟩ := plain_run chars
    refine yields_ok.mpr ?_
    rw [place, taken, behind]
    refine yields_next rfl (fun _ => yields_fail) fun c rest tail begins later => ?_
    subst begins
    dsimp only
    split
    next closes =>
      obtain rfl := (lead_eq (by decide)).mp closes
      exact yields_pure.mpr ⟨_, rest, rfl, later (by decide), formed, fun _ => rfl⟩
    next =>
      split
      next escapes =>
        obtain rfl := (lead_eq (by decide)).mp escapes
        simp only [bind_apply, yields_bind]
        refine (readEscape_takes (later (by decide))).imp ?_
        rintro ⟨value, cursor⟩ ⟨escape, rest, same, place, formed', single⟩
        refine (ih place).imp ?_
        rintro ⟨bytes, cursor⟩ ⟨pieces, rest, rfl, place, formed'', contents⟩
        refine yields_pure.mpr ⟨run ++ (escape ++ pieces), rest, ?_, place, ?_, fun all => ?_⟩
        · rw [same]
          simp [written_append]
        · exact List.forall_mem_append.mpr ⟨formed, List.forall_mem_append.mpr ⟨formed', formed''⟩⟩
        · obtain ⟨-, first, later⟩ := (single_append.mp all).imp id single_append.mp
          dsimp only at contents single ⊢
          rw [contents later, content_append, content_append, single first]
          simp [encode]
      next => exact yields_fail

theorem readString_takes (place : cursor.rest = encode chars) :
    Yields (readString cursor) fun reached => ∃ pieces rest,
      chars = written pieces ++ '"' :: rest ∧ reached.2.rest = encode rest ∧
        (∀ piece ∈ pieces, piece.Formed) ∧
          (Single pieces → reached.1 = String.ofList (content pieces)) := by
  unfold readString
  simp only [bind_apply, yields_bind]
  refine yields_ok.mpr (yields_ok.mpr ?_)
  refine (readStringBytes_takes place).imp ?_
  rintro ⟨bytes, cursor⟩ ⟨pieces, rest, whole, place, formed, contents⟩
  dsimp only at contents ⊢
  cases decoded : Text.Utf8.decode? bytes with
  | none => exact yields_error
  | some text =>
    refine yields_pure.mpr ⟨pieces, rest, whole, place, formed, fun single => ?_⟩
    rw [contents single, decode?_encode] at decoded
    rw [Option.some.inj decoded]

private theorem skipEscape_takes (place : cursor.rest = encode chars) :
    Yields (skipEscape cursor) fun reached => ∃ (piece : Piece) (rest : List Char),
      '\\' :: chars = piece.text ++ rest ∧ reached.2.rest = encode rest ∧ piece.Formed := by
  unfold skipEscape
  rw [bind_apply, yields_bind]
  refine yields_next place (fun _ => yields_fail) fun c rest tail begins later => ?_
  subst begins
  dsimp only
  split
  next simple =>
    have ascii := lead_small (simpleEscape?_ascii simple)
    rw [lead_ascii ascii] at simple
    exact yields_pure.mpr ⟨.letter c, rest, rfl, later ascii, ascii, simple⟩
  next =>
    split
    next unicode =>
      obtain rfl := (lead_eq (by decide)).mp unicode
      rw [bind_apply, yields_bind]
      refine (readHexCode_takes (later (by decide))).imp ?_
      rintro ⟨code, cursor⟩ ⟨a, b, c, d, rest, rfl, place, value⟩
      exact yields_pure.mpr ⟨.code a b c d, rest, rfl, place, by simp [Piece.Formed, value]⟩
    next => exact yields_fail

theorem skipPieces_takes {steps : Nat} (place : cursor.rest = encode chars) :
    Yields (skipPieces steps cursor) fun reached => ∃ pieces rest,
      chars = written pieces ++ '"' :: rest ∧ reached.2.rest = encode rest ∧
        ∀ piece ∈ pieces, piece.Formed := by
  induction steps generalizing cursor chars with
  | zero => exact yields_fail
  | succ steps ih =>
    rw [skipPieces]
    simp only [bind_apply, yields_bind]
    obtain ⟨run, left, rfl, formed, -, behind⟩ := plain_run chars
    refine yields_ok.mpr ?_
    rw [place, behind]
    refine yields_peek rfl (fun _ => yields_fail) ?_
    rintro c rest rfl
    dsimp only
    split
    next closes =>
      obtain rfl := (lead_eq (by decide)).mp closes
      exact yields_skip rfl (by decide) fun after place => ⟨run, rest, rfl, place, formed⟩
    next =>
      split
      next escapes =>
        obtain rfl := (lead_eq (by decide)).mp escapes
        simp only [bind_apply, yields_bind]
        refine yields_skip rfl (by decide) fun after place => ?_
        refine (skipEscape_takes place).imp ?_
        rintro ⟨_, cursor⟩ ⟨escape, rest, same, place, formed'⟩
        refine (ih place).imp ?_
        rintro ⟨_, cursor⟩ ⟨pieces, rest, rfl, place, formed''⟩
        refine ⟨run ++ escape :: pieces, rest, ?_, place, ?_⟩
        · rw [same]
          simp [written]
        · exact List.forall_mem_append.mpr ⟨formed, List.forall_mem_cons.mpr ⟨formed', formed''⟩⟩
      next => exact yields_fail

theorem skipString_takes (place : cursor.rest = encode chars) :
    Yields (skipString cursor) fun reached => ∃ pieces rest,
      chars = written pieces ++ '"' :: rest ∧ reached.2.rest = encode rest ∧
        ∀ piece ∈ pieces, piece.Formed := by
  unfold skipString
  rw [bind_apply, yields_bind]
  exact yields_ok.mpr (skipPieces_takes place)

end MessagePress.Proofs.JsonStrings
