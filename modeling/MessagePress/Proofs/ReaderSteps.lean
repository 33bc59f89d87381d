import MessagePress.Proofs.StringEscapes
import MessagePress.Proofs.Utf8Coding

/-! Readers on the bytes that they are meant for. A reader takes bytes from the front of a
document and is judged by what it takes, what it leaves and what it gives; how many bytes
were passed before matters to faults alone. -/

namespace MessagePress.Proofs.ReaderSteps
open Json Json.Reader StringEscapes Utf8Coding
open Text.Utf8 (encode)

/-- Wherever a reader begins, it gives the value of the bytes in front of the rest. -/
def Reads (reader : Reader α) (bytes rest : List UInt8) (value : α) : Prop :=
  ∀ index, ∃ passed, reader ⟨bytes, index⟩ = .ok (value, ⟨rest, passed⟩)

variable {bytes middle rest : List UInt8} {byte : UInt8}

namespace Reads

theorem pure (value : α) : Reads (Pure.pure value) bytes bytes value := fun index => ⟨index, rfl⟩

theorem bind {first : Reader α} {next : α → Reader β} {value : α} {result : β}
    (read : Reads first bytes middle value) (continued : Reads (next value) middle rest result) :
    Reads (first >>= next) bytes rest result := by
  intro index
  obtain ⟨between, taken⟩ := read index
  obtain ⟨passed, finished⟩ := continued between
  refine ⟨passed, ?_⟩
  change Except.bind (first ⟨bytes, index⟩) _ = _
  rw [taken]
  exact finished

theorem map {reader : Reader α} {value : α} (f : α → β) (read : Reads reader bytes rest value) :
    Reads (f <$> reader) bytes rest (f value) := by
  intro index
  obtain ⟨passed, taken⟩ := read index
  refine ⟨passed, ?_⟩
  change Except.bind (reader ⟨bytes, index⟩) _ = _
  rw [taken]
  rfl

theorem peek : Reads Reader.peek bytes bytes bytes.head? := fun index => ⟨index, rfl⟩

theorem ahead : Reads Reader.peek (byte :: rest) (byte :: rest) (some byte) := peek

theorem skip : Reads Reader.skip (byte :: rest) rest () := fun index => ⟨index + 1, rfl⟩

theorem next : Reads Reader.next (byte :: rest) rest (some byte) := fun index => ⟨index + 1, rfl⟩

theorem get {next : Cursor → Reader α} {result : α}
    (continued : ∀ index, Reads (next ⟨bytes, index⟩) bytes rest result) :
    Reads (MonadState.get >>= next) bytes rest result := fun index => continued index index

theorem remaining : Reads Reader.remaining bytes bytes bytes.length := fun index => ⟨index, rfl⟩

theorem takeWhile {p : UInt8 → Bool} {taken : List UInt8} (all : ∀ byte ∈ taken, p byte = true)
    (stop : ∀ byte, rest.head? = some byte → p byte = false) :
    Reads (Reader.takeWhile p) (taken ++ rest) rest taken := by
  intro index
  have none : rest.takeWhile p = [] ∧ rest.dropWhile p = rest := by
    cases rest with
    | nil => exact ⟨rfl, rfl⟩
    | cons byte rest => simp [stop byte rfl]
  refine ⟨index + taken.length, ?_⟩
  rw [Reader.takeWhile, List.takeWhile_append_of_pos all, List.dropWhile_append_of_pos all,
    none.1, none.2, List.append_nil]

theorem peekToken (visible : isBlankByte byte = false) :
    Reads Json.peekToken (byte :: rest) (byte :: rest) (some byte) :=
  bind (@takeWhile _ _ [] (by simp) (by simpa using visible)) peek

end Reads

theorem encode_append (text other : List Char) :
    encode (text ++ other) = encode text ++ encode other := List.flatMap_append

theorem encodeChar_ascii {c : Char} (ascii : c.toNat < 0x80) :
    String.utf8EncodeChar c = [byteOf c] := by
  obtain ⟨-, bytes⟩ | ⟨least, -⟩ | ⟨least, -⟩ | ⟨least, -⟩ := encodeChar_cases c
  · exact bytes
  all_goals omega

theorem encode_ascii {text : List Char} (ascii : ∀ c ∈ text, c.toNat < 0x80) :
    encode text = text.map byteOf := by
  induction text with
  | nil => rfl
  | cons c text ih =>
    obtain ⟨first, later⟩ := List.forall_mem_cons.mp ascii
    rw [encode, List.flatMap_cons, encodeChar_ascii first, List.map_cons]
    exact congrArg (byteOf c :: ·) (ih later)

@[simp] theorem toNat_byteOf {c : Char} (ascii : c.toNat < 0x80) : (byteOf c).toNat = c.toNat := by
  rw [byteOf, UInt8.toNat_ofNat']
  omega

private theorem isPlainByte_ofNat : ∀ n < 256, 0x20 ≤ n → n ≠ 34 → n ≠ 92 →
    isPlainByte (UInt8.ofNat n) = true := by decide +kernel

/-- No byte of a character that stands for itself ends a string or begins an escape. -/
theorem plainBytes {c : Char} (plain : IsPlain c) :
    ∀ byte ∈ String.utf8EncodeChar c, isPlainByte byte = true := by
  obtain ⟨quote, backslash, printable⟩ := plain
  intro byte member
  obtain ⟨one, bytes⟩ | ⟨least, most, bytes⟩ | ⟨least, most, bytes⟩ | ⟨least, most, bytes⟩ :=
    encodeChar_cases c
  · rw [bytes, List.mem_singleton] at member
    subst member
    refine isPlainByte_ofNat _ (by omega) printable ?_ ?_
    · exact fun same => quote (Char.toNat_inj.mp same)
    · exact fun same => backslash (Char.toNat_inj.mp same)
  all_goals
    rw [bytes] at member
    simp only [List.mem_cons, List.not_mem_nil, or_false] at member
    rcases member with rfl | rfl | rfl | rfl <;>
      exact isPlainByte_ofNat _ (by omega) (by omega) (by omega) (by omega)

private theorem simpleEscape_reads {letter c : Char} (escape : simpleEscape? (byteOf letter) = some c) :
    Reads readEscape (byteOf letter :: rest) rest c := by
  apply Reads.bind .next
  dsimp only
  rw [escape]
  exact .pure c

private theorem hexCode_control : ∀ code < 0x20,
    hexCode? [byteOf '0', byteOf '0', byteOf (Nat.digitChar (code / 16)),
      byteOf (Nat.digitChar (code % 16))] = some code := by decide +kernel

private theorem unicodeEscape_reads {c : Char} (control : c.toNat < 0x20) :
    Reads readEscape (byteOf 'u' :: byteOf '0' :: byteOf '0' ::
      byteOf (Nat.digitChar (c.toNat / 16)) :: byteOf (Nat.digitChar (c.toNat % 16)) :: rest)
      rest c := by
  apply Reads.bind .next
  have letter : simpleEscape? (byteOf 'u') = none := by decide
  dsimp only
  rw [letter, if_pos rfl]
  have code : Reads readHexCode (byteOf '0' :: byteOf '0' ::
      byteOf (Nat.digitChar (c.toNat / 16)) :: byteOf (Nat.digitChar (c.toNat % 16)) :: rest)
      rest c.toNat := by
    intro index
    refine ⟨index + 4, ?_⟩
    simp only [readHexCode, List.take, List.length_cons, List.length_nil, hexCode_control _ control]
    rfl
  apply Reads.bind code
  rw [if_neg (by omega), if_pos (by omega), Char.ofNat_toNat]
  exact .pure c

private theorem digitChar_ascii : ∀ digit < 16, (Nat.digitChar digit).toNat < 0x80 := by decide

theorem escape_reads {c : Char} (escaped : ¬ IsPlain c) :
    ∃ tail, encode (escapeChar c) = byteOf '\\' :: tail ∧
      ∀ rest, Reads readEscape (tail ++ rest) rest c := by
  unfold escapeChar
  split_ifs with quote backslash newline return' tab backspace feed control
  · exact ⟨[byteOf '"'], by decide, fun rest => simpleEscape_reads (by rw [quote]; decide)⟩
  · exact ⟨[byteOf '\\'], by decide, fun rest => simpleEscape_reads (by rw [backslash]; decide)⟩
  · exact ⟨[byteOf 'n'], by decide, fun rest => simpleEscape_reads (by rw [newline]; decide)⟩
  · exact ⟨[byteOf 'r'], by decide, fun rest => simpleEscape_reads (by rw [return']; decide)⟩
  · exact ⟨[byteOf 't'], by decide, fun rest => simpleEscape_reads (by rw [tab]; decide)⟩
  · exact ⟨[byteOf 'b'], by decide, fun rest => simpleEscape_reads (by rw [backspace]; decide)⟩
  · exact ⟨[byteOf 'f'], by decide, fun rest => simpleEscape_reads (by rw [feed]; decide)⟩
  · have high := digitChar_ascii (c.toNat / 16) (by omega)
    have low := digitChar_ascii (c.toNat % 16) (by omega)
    rw [encode_ascii (by simp [high, low])]
    exact ⟨_, rfl, fun rest => unicodeEscape_reads control⟩
  · exact absurd ⟨quote, backslash, Nat.not_lt.mp control⟩ escaped

private theorem stringBytes_reads (text : List Char) {run : List UInt8} {pieces : Nat}
    (plain : ∀ byte ∈ run, isPlainByte byte = true) (enough : text.length < pieces) :
    Reads (readStringBytes pieces) (run ++ (encode (escape text) ++ byteOf '"' :: rest)) rest
      (run ++ encode text) := by
  induction text generalizing run pieces with
  | nil =>
    obtain ⟨pieces, rfl⟩ := Nat.exists_eq_add_one_of_ne_zero (Nat.ne_zero_of_lt enough)
    refine Reads.bind (.takeWhile plain (by rintro byte ⟨⟩; decide)) (Reads.bind .next ?_)
    dsimp only
    rw [if_pos rfl]
    exact (List.append_nil run).symm ▸ .pure run
  | cons c text ih =>
    by_cases printable : IsPlain c
    · have bytes := plainBytes printable
      rw [escape_cons_plain printable]
      have read := @ih (run ++ String.utf8EncodeChar c) pieces
        (by simpa [or_imp, forall_and] using ⟨plain, bytes⟩) (by simp at enough; omega)
      simpa [encode, List.append_assoc] using read
    · obtain ⟨pieces, rfl⟩ := Nat.exists_eq_add_one_of_ne_zero (Nat.ne_zero_of_lt enough)
      obtain ⟨tail, bytes, read⟩ := escape_reads printable
      have whole : encode (escape (c :: text)) ++ byteOf '"' :: rest =
          byteOf '\\' :: (tail ++ (encode (escape text) ++ byteOf '"' :: rest)) := by
        rw [escape_cons, encode_append, bytes]
        simp
      rw [whole]
      refine Reads.bind (.takeWhile plain (by rintro byte ⟨⟩; decide)) (Reads.bind .next ?_)
      dsimp only
      rw [if_neg (by decide), if_pos rfl]
      refine Reads.bind (read _) (Reads.bind (@ih [] pieces (by simp) ?_) ?_)
      · simp at enough
        omega
      · have same : run ++ encode (c :: text) = run ++ String.utf8EncodeChar c ++ ([] ++ encode text) := by
          simp [encode]
        rw [same]
        exact .pure _

theorem flatMap_length {f : α → List β} (text : List α) (some : ∀ c, f c ≠ []) :
    text.length ≤ (text.flatMap f).length := by
  induction text with
  | nil => simp
  | cons c text ih =>
    have first := List.length_pos_iff.mpr (some c)
    rw [List.flatMap_cons, List.length_append, List.length_cons]
    omega

private theorem escapeChar_ne_nil (c : Char) : escapeChar c ≠ [] := by
  unfold escapeChar
  split_ifs <;> simp

theorem encodeChar_ne_nil (c : Char) : String.utf8EncodeChar c ≠ [] := by
  obtain ⟨-, bytes⟩ | ⟨-, -, bytes⟩ | ⟨-, -, bytes⟩ | ⟨-, -, bytes⟩ := encodeChar_cases c <;>
    simp [bytes]

theorem string_reads (text : String) :
    Reads readString (encode (escape text.toList) ++ byteOf '"' :: rest) rest text := by
  intro index
  have escaped := flatMap_length text.toList escapeChar_ne_nil
  have bytes := flatMap_length (escape text.toList) encodeChar_ne_nil
  have enough : text.toList.length <
      (encode (escape text.toList) ++ byteOf '"' :: rest).length + 1 := by
    rw [List.length_append]
    unfold encode escape at *
    omega
  obtain ⟨passed, read⟩ := @stringBytes_reads rest text.toList [] _ (by simp) enough index
  refine ⟨passed, ?_⟩
  rw [List.nil_append, List.nil_append] at read
  change Except.bind (readStringBytes _ _) _ = _
  rw [read]
  dsimp only [Except.bind]
  rw [decode?_encode]
  exact congrArg (fun text => Except.ok (text, _)) String.ofList_toList

end MessagePress.Proofs.ReaderSteps
