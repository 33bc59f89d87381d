import Mathlib.Data.Nat.Digits.Lemmas
import Mathlib.Data.Nat.Size
import MessagePress.Proofs.Draws
import MessagePress.Proofs.NumberTexts

/-! Numbers of a given count of digits, told from the bytes of their source. The source is a row of
words, each cut to the bits of the greatest number wanted; the first that is not too great is the
number. In machine words every step of the computation has a result. -/

namespace MessagePress.Proofs.DigitDraws
open MessagePress.Random Draws NumberTexts

variable {bound value draws : ℕ} {count : ℤ} {word bytes rest left : List UInt8}
  {text : List Char} {outcome : Except Fault ℕ}

/-- The number of a word, its most significant byte first. -/
def wordValue (word : List UInt8) : ℕ := Nat.ofDigits 256 (word.map UInt8.toNat).reverse

/-- The words that bytes hold one behind the other; bytes too few for another one are left over. -/
def wordsOf (bytes : List UInt8) : List ℕ :=
  (List.range (bytes.length / 8)).map fun index => wordValue ((bytes.drop (8 * index)).take 8)

/-- The words of a source without the bits that no number below the bound has. -/
def candidates (bound : ℕ) (bytes : List UInt8) : List ℕ :=
  (wordsOf bytes).map (· % 2 ^ Nat.size (bound - 1))

/-- A draw below a bound, and what it leaves: it gives the first candidate below the bound, and
fails behind the last one if there is none. -/
inductive Below (bound : ℕ) (bytes : List UInt8) : Except Fault ℕ → List UInt8 → Prop
  | found {rejected later : List ℕ} {value : ℕ}
      (same : candidates bound bytes = rejected ++ value :: later)
      (large : ∀ candidate ∈ rejected, bound ≤ candidate) (small : value < bound) :
      Below bound bytes (.ok value) (bytes.drop (8 * (rejected.length + 1)))
  | exhausted (large : ∀ candidate ∈ candidates bound bytes, bound ≤ candidate) :
      Below bound bytes (.error .exhausted) (bytes.drop (8 * (candidates bound bytes).length))

theorem wordOfBytes_eq (word : List UInt8) : wordOfBytes word = wordValue word := by
  induction word using List.reverseRecOn with
  | nil => rfl
  | append_singleton front byte ih =>
    have step : wordOfBytes (front ++ [byte]) = wordOfBytes front * 256 + byte.toNat := by
      simp [wordOfBytes]
    rw [step, ih, wordValue, wordValue, List.map_append, List.reverse_append]
    simp only [List.map_cons, List.map_nil, List.reverse_cons, List.reverse_nil, List.nil_append,
      List.singleton_append, Nat.ofDigits_cons]
    omega

theorem wordValue_lt (length : word.length = 8) : wordValue word < 2 ^ 64 := by
  have small : wordValue word < 256 ^ (word.map UInt8.toNat).reverse.length := by
    refine Nat.ofDigits_lt_base_pow_length (by norm_num) fun digit member => ?_
    obtain ⟨byte, -, rfl⟩ := List.mem_map.mp (List.mem_reverse.mp member)
    exact byte.toNat_lt
  rw [List.length_reverse, List.length_map, length] at small
  exact small.trans_eq (by norm_num)

theorem bitsBelow_eq (bound : ℕ) : bitsBelow bound = Nat.size (bound - 1) := by
  unfold bitsBelow
  split
  next least => rw [Nat.sub_eq_zero_of_le least, Nat.size_zero]
  next above =>
    have some : bound - 1 ≠ 0 := by omega
    refine Nat.le_antisymm (Nat.lt_size.mpr (Nat.log2_self_le some)) (Nat.size_le.mpr Nat.lt_log2_self)

theorem maskWord_eq (bound word : ℕ) : maskWord bound word = word % 2 ^ Nat.size (bound - 1) := by
  rw [← bitsBelow_eq]
  rfl

theorem candidates_short (few : bytes.length < 8) : candidates bound bytes = [] := by
  rw [candidates, wordsOf, Nat.div_eq_of_lt few]
  rfl

theorem candidates_word (length : word.length = 8) (rest : List UInt8) :
    candidates bound (word ++ rest) =
      wordValue word % 2 ^ Nat.size (bound - 1) :: candidates bound rest := by
  have count : (8 + rest.length) / 8 = rest.length / 8 + 1 := by omega
  have behind (index : ℕ) : (word ++ rest).drop (8 * (index + 1)) = rest.drop (8 * index) := by
    rw [Nat.mul_succ, ← length, Nat.add_comm, List.drop_length_add_append, length]
  simp [candidates, wordsOf, count, List.range_succ_eq_map, behind, Function.comp_def, length]

theorem Below.short (few : bytes.length < 8) : Below bound bytes (.error .exhausted) bytes := by
  have none : candidates bound bytes = [] := candidates_short few
  have below : Below bound bytes (.error .exhausted) (bytes.drop (8 * (candidates bound bytes).length)) :=
    .exhausted (by simp [none])
  rwa [none] at below

theorem Below.accept (length : word.length = 8) (rest : List UInt8)
    (small : wordValue word % 2 ^ Nat.size (bound - 1) < bound) :
    Below bound (word ++ rest) (.ok (wordValue word % 2 ^ Nat.size (bound - 1))) rest := by
  have below := @Below.found bound (word ++ rest) [] _ _ (candidates_word length rest) (by simp) small
  rwa [List.length_nil, Nat.zero_add, Nat.mul_one, List.drop_left' length] at below

theorem Below.reject (length : word.length = 8)
    (large : bound ≤ wordValue word % 2 ^ Nat.size (bound - 1)) (below : Below bound rest outcome left) :
    Below bound (word ++ rest) outcome left := by
  have behind (count : ℕ) : rest.drop (8 * count) = (word ++ rest).drop (8 * (count + 1)) := by
    rw [Nat.mul_succ, ← length, Nat.add_comm, List.drop_length_add_append, length]
  cases below with
  | @found rejected later value same beyond small =>
    rw [behind]
    have one_more : candidates bound (word ++ rest) =
        (wordValue word % 2 ^ Nat.size (bound - 1) :: rejected) ++ value :: later := by
      rw [candidates_word length, same, List.cons_append]
    exact .found one_more (List.forall_mem_cons.mpr ⟨large, beyond⟩) small
  | exhausted beyond =>
    have count : (candidates bound rest).length + 1 = (candidates bound (word ++ rest)).length := by
      rw [candidates_word length, List.length_cons]
    rw [behind, count]
    refine .exhausted ?_
    rw [candidates_word length]
    exact List.forall_mem_cons.mpr ⟨large, beyond⟩

/-- With as many draws as there are words the loop ends at the first small candidate, or behind them all. -/
theorem drawBelow_below (enough : bytes.length / 8 < draws) :
    Below bound bytes (drawBelow bound draws ⟨bytes⟩).1 (drawBelow bound draws ⟨bytes⟩).2.bytes := by
  induction draws generalizing bytes with
  | zero => exact absurd enough (Nat.not_lt_zero _)
  | succ draws ih =>
    rcases short_or_front wordBytes ⟨bytes⟩ with few | ⟨word, rest, length, same⟩
    · rw [drawBelow_short few]
      exact .short few
    · obtain rfl : bytes = word ++ rest := congrArg Source.bytes same
      have fewer : rest.length / 8 < draws := by
        rw [List.length_append, length, wordBytes] at enough
        omega
      rw [drawBelow_word length, wordOfBytes_eq, maskWord_eq]
      split
      next small => exact .accept length rest small
      next large => exact .reject length (Nat.le_of_not_lt large) (ih fewer)

theorem uniformBelow_below (above : 1 < bound) (bytes : List UInt8) :
    Below bound bytes (uniformBelow bound ⟨bytes⟩).1 (uniformBelow bound ⟨bytes⟩).2.bytes := by
  rw [uniformBelow, if_neg (Nat.not_le.mpr above)]
  exact drawBelow_below (Nat.lt_succ_self _)

theorem Below.unique {other : Except Fault ℕ} {others : List UInt8} (below : Below bound bytes outcome left)
    (again : Below bound bytes other others) : outcome = other ∧ left = others := by
  have first {rejected later : List ℕ} {value : ℕ} (same : candidates bound bytes = rejected ++ value :: later)
      (large : ∀ candidate ∈ rejected, bound ≤ candidate) (small : value < bound) :
      (candidates bound bytes).takeWhile (bound ≤ ·) = rejected ∧
        (candidates bound bytes).dropWhile (bound ≤ ·) = value :: later := by
    have passed : ∀ candidate ∈ rejected, decide (bound ≤ candidate) = true := by simpa using large
    rw [same, List.takeWhile_append_of_pos passed, List.dropWhile_append_of_pos passed]
    simp [Nat.not_le.mpr small]
  cases below with
  | found same large small =>
    obtain ⟨front, back⟩ := first same large small
    cases again with
    | found same' large' small' =>
      obtain ⟨front', back'⟩ := first same' large' small'
      obtain rfl := front.symm.trans front'
      obtain ⟨rfl, -⟩ := List.cons.inj (back.symm.trans back')
      exact ⟨rfl, rfl⟩
    | exhausted large' =>
      exact absurd small (Nat.not_lt.mpr (large' _ (by simp [same])))
  | exhausted large =>
    cases again with
    | found same' large' small' =>
      exact absurd small' (Nat.not_lt.mpr (large _ (by simp [same'])))
    | exhausted large' => exact ⟨rfl, rfl⟩

/-- So many decimal digits, which denote a number. -/
structure Shows (width : ℕ) (value : ℕ) (text : List Char) : Prop where
  places : text.length = width
  decimal : ∀ c ∈ text, c.isDigit = true
  denotes : Nat.ofDigitChars 10 text 0 = value

theorem zeroPadded_shows {width : ℕ} (some : 0 < width) (fits : value < 10 ^ width) :
    Shows width value (zeroPadded width value) where
  places := by
    have few : (Nat.toDigits 10 value).length ≤ width :=
      (Nat.length_toDigits_le_iff (by norm_num) some).mpr fits
    rw [zeroPadded, List.length_append, List.length_replicate, Nat.sub_add_cancel few]
  decimal := by
    intro c member
    rcases List.mem_append.mp member with zero | digit
    · rw [List.eq_of_mem_replicate zero]
      rfl
    · exact toDigits_digit digit
  denotes := by
    rw [zeroPadded, Nat.ofDigitChars_append, Nat.ofDigitChars_replicate_zero, Nat.mul_zero,
      Nat.ofDigitChars_toDigits (by norm_num) (by norm_num)]

private theorem digit_value {c : Char} (digit : c.isDigit = true) :
    c = Char.ofNat ('0'.toNat + (c.toNat - '0'.toNat)) ∧ c.toNat - '0'.toNat < 10 := by
  have range : 48 ≤ c.toNat ∧ c.toNat ≤ 57 := by simpa [Char.isDigit, UInt32.le_iff_toNat_le] using digit
  have place : '0'.toNat + (c.toNat - '0'.toNat) = c.toNat := Nat.add_sub_cancel' range.1
  rw [place, Char.ofNat_toNat]
  exact ⟨rfl, by simp only [Char.reduceToNat]; omega⟩

private theorem ofDigitChars_lt {digits : List Char} (decimal : ∀ c ∈ digits, c.isDigit = true) :
    Nat.ofDigitChars 10 digits 0 < 10 ^ digits.length := by
  induction digits with
  | nil => simp
  | cons c digits ih =>
    obtain ⟨digit, decimal⟩ := List.forall_mem_cons.mp decimal
    obtain ⟨-, small⟩ := digit_value digit
    have tail := ih decimal
    rw [Nat.ofDigitChars_cons, Nat.ofDigitChars_eq_ofDigitChars_zero, List.length_cons, Nat.pow_succ]
    nlinarith

theorem Shows.unique {width : ℕ} {other : List Char} (shows : Shows width value text)
    (again : Shows width value other) : text = other := by
  induction text generalizing width value other with
  | nil => exact (List.length_eq_zero_iff.mp (again.places.trans shows.places.symm)).symm
  | cons c text ih =>
    obtain ⟨d, other, rfl⟩ := List.exists_cons_of_length_eq_add_one (again.places.trans shows.places.symm)
    obtain ⟨first, decimal⟩ := List.forall_mem_cons.mp shows.decimal
    obtain ⟨first', decimal'⟩ := List.forall_mem_cons.mp again.decimal
    have same : other.length = text.length := Nat.succ.inj (again.places.trans shows.places.symm)
    have whole := shows.denotes.trans again.denotes.symm
    have below := ofDigitChars_lt decimal
    have below' := ofDigitChars_lt decimal'
    -- The first digit is the quotient by the power of ten, and the others are the remainder.
    rw [Nat.ofDigitChars_cons, Nat.ofDigitChars_cons, Nat.ofDigitChars_eq_ofDigitChars_zero,
      @Nat.ofDigitChars_eq_ofDigitChars_zero other, same] at whole
    rw [same] at below'
    have front := congrArg (· / 10 ^ text.length) whole
    have back := congrArg (· % 10 ^ text.length) whole
    simp only [Nat.mul_add_div (Nat.pow_pos (by norm_num : 0 < 10)), Nat.div_eq_of_lt below, Nat.div_eq_of_lt below',
      Nat.mul_add_mod, Nat.mod_eq_of_lt below, Nat.mod_eq_of_lt below', Nat.mul_zero, Nat.zero_add,
      Nat.add_zero] at front back
    rw [(digit_value first).1, (digit_value first').1, front,
      ih ⟨rfl, decimal, rfl⟩ ⟨same, decimal', back.symm⟩]

/-- What is drawn for a count of digits, and what is left of the bytes. -/
inductive Drawn (count : ℤ) (bytes : List UInt8) : Except Fault (List Char) → List UInt8 → Prop
  | zero (none : count ≤ 0) : Drawn count bytes (.ok ['0']) bytes
  | number (some : 0 < count) {value : ℕ} {left : List UInt8} {text : List Char}
      (below : Below (10 ^ (min count 18).toNat) bytes (.ok value) left)
      (shows : Shows (min count 18).toNat value text) : Drawn count bytes (.ok text) left
  | exhausted (some : 0 < count) {left : List UInt8}
      (below : Below (10 ^ (min count 18).toNat) bytes (.error .exhausted) left) :
      Drawn count bytes (.error .exhausted) left

theorem Below.small (below : Below bound bytes (.ok value) left) : value < bound := by
  cases below with
  | found same large small => exact small

theorem digits_drawn (count : ℤ) (bytes : List UInt8) :
    Drawn count bytes (digits count ⟨bytes⟩).1 (digits count ⟨bytes⟩).2.bytes := by
  rcases le_or_gt count 0 with none | some
  · rw [digits_none none]
    exact .zero none
  · have width : 0 < (min count 18).toNat := by omega
    have below := uniformBelow_below (Nat.one_lt_pow width.ne' (by norm_num : 1 < 10)) bytes
    rw [digits_some some]
    dsimp only
    rcases drawn : uniformBelow (10 ^ (min count 18).toNat) ⟨bytes⟩ with ⟨fault | value, left⟩
    · cases fault
      rw [drawn] at below
      exact .exhausted some below
    · rw [drawn] at below
      exact .number some below (zeroPadded_shows width below.small)

theorem Drawn.unique {first second : Except Fault (List Char)} {left right : List UInt8}
    (drawn : Drawn count bytes first left) (again : Drawn count bytes second right) :
    first = second ∧ left = right := by
  cases drawn with
  | zero none =>
    cases again with
    | zero => exact ⟨rfl, rfl⟩
    | number some | exhausted some => exact absurd none (Int.not_le.mpr some)
  | number some below shows =>
    cases again with
    | zero none => exact absurd none (Int.not_le.mpr some)
    | number _ below' shows' =>
      obtain ⟨value, left⟩ := below.unique below'
      obtain rfl := Except.ok.inj value
      exact ⟨congrArg Except.ok (shows.unique shows'), left⟩
    | exhausted _ below' => cases (below.unique below').1
  | exhausted some below =>
    cases again with
    | zero none => exact absurd none (Int.not_le.mpr some)
    | number _ below' => cases (below.unique below').1
    | exhausted _ below' => exact ⟨rfl, (below.unique below').2⟩

/-- The word of a number, if there is one. -/
def word? (number : ℤ) : Option UInt64 :=
  if 0 ≤ number ∧ number < 2 ^ 64 then some (.ofNat number.toNat) else none

/-- A word moved to the right by less than its width. -/
def shiftRight? (word : UInt64) (places : ℕ) : Option UInt64 :=
  if places < 64 then some (word >>> .ofNat places) else none

/-- Draws words until one that is cut by the mask is below the bound. -/
def drawMasked (mask bound : UInt64) : ℕ → Draw UInt64
  | 0, source => (.error .exhausted, source)
  | draws + 1, source =>
    match source.draw 8 with
    | (.error fault, left) => (.error fault, left)
    | (.ok word, left) =>
      let candidate := .ofNat (wordValue word) &&& mask
      if candidate < bound then (.ok candidate, left) else drawMasked mask bound draws left

/-- A draw below a bound in words; there is none where a step has no result. -/
def wordBelow? (bound : UInt64) (source : Source) : Option (Except Fault UInt64 × Source) := do
  let greatest ← word? (bound.toNat - 1)
  if greatest = 0 then return (.ok 0, source)
  let mask ← shiftRight? (.ofNat (2 ^ 64 - 1)) greatest.toBitVec.clz.toNat
  return drawMasked mask bound (source.bytes.length / 8 + 1) source

/-- So many digits, drawn in words. -/
def wordDigits? (count : Int64) (source : Source) : Option (Except Fault (List Char) × Source) := do
  if count ≤ 0 then return (.ok ['0'], source)
  let width : UInt32 := .ofNat (min count 18).toInt.toNat
  let bound ← word? (10 ^ width.toNat)
  let (drawn, left) ← wordBelow? bound source
  return (drawn.map fun value => zeroPadded width.toNat value.toNat, left)

theorem word?_eq {number : ℕ} (fits : number < 2 ^ 64) : word? number = some (.ofNat number) := by
  rw [word?, if_pos ⟨Int.natCast_nonneg number, by exact_mod_cast fits⟩, Int.toNat_natCast]

theorem clz_size {word : UInt64} (some : word ≠ 0) :
    word.toBitVec.clz.toNat + Nat.size word.toNat = 64 := by
  have nonzero : word.toBitVec ≠ 0#64 := fun zero => some (UInt64.toBitVec_inj.mp zero)
  have least := Nat.lt_size.mpr (BitVec.two_pow_sub_clz_le_toNat_of_ne_zero (by norm_num) nonzero)
  have most := Nat.size_le.mpr (@BitVec.toNat_lt_two_pow_sub_clz 64 word.toBitVec)
  have whole : Nat.size word.toNat ≤ 64 := Nat.size_le.mpr word.toNat_lt
  rw [UInt64.toNat_toBitVec word] at least most
  omega

theorem shiftRight?_clz {word : UInt64} (some : word ≠ 0) :
    ∃ mask, shiftRight? (.ofNat (2 ^ 64 - 1)) word.toBitVec.clz.toNat = .some mask ∧
      mask.toNat = 2 ^ Nat.size word.toNat - 1 := by
  have bits := clz_size some
  have positive : 0 < Nat.size word.toNat :=
    Nat.size_pos.mpr (Nat.pos_of_ne_zero fun zero => some (UInt64.toNat_inj.mp zero))
  have places : word.toBitVec.clz.toNat < 64 := by omega
  have moved : (UInt64.ofNat word.toBitVec.clz.toNat).toNat % 64 = word.toBitVec.clz.toNat := by
    rw [UInt64.toNat_ofNat']
    omega
  have all : 2 ^ Nat.size word.toNat * 2 ^ word.toBitVec.clz.toNat = 2 ^ 64 := by
    rw [← Nat.pow_add, Nat.add_comm, bits]
  refine ⟨_, by rw [shiftRight?, if_pos places], ?_⟩
  rw [UInt64.toNat_shiftRight, moved, Nat.shiftRight_eq_div_pow]
  refine Nat.div_eq_of_lt_le ?_ ?_
  · rw [Nat.sub_mul, all, Nat.one_mul]
    exact Nat.sub_le_sub_left (Nat.two_pow_pos _) _
  · rw [Nat.sub_add_cancel (Nat.two_pow_pos _), all]
    exact UInt64.toNat_lt _

theorem drawMasked_eq {mask bound : UInt64} (bits : mask.toNat = 2 ^ Nat.size (bound.toNat - 1) - 1)
    (source : Source) :
    drawBelow bound.toNat draws source =
      ((drawMasked mask bound draws source).1.map UInt64.toNat, (drawMasked mask bound draws source).2) := by
  induction draws generalizing source with
  | zero => rfl
  | succ draws ih =>
    rcases short_or_front 8 source with few | ⟨word, rest, length, rfl⟩
    · rw [drawBelow_short few, drawMasked, draw_short few]
      rfl
    · have candidate : (UInt64.ofNat (wordValue word) &&& mask).toNat = maskWord bound.toNat (wordOfBytes word) := by
        rw [UInt64.toNat_and, UInt64.toNat_ofNat_of_lt' (wordValue_lt length), bits,
          Nat.and_two_pow_sub_one_eq_mod, wordOfBytes_eq, maskWord_eq]
      rw [drawBelow_word length, drawMasked, draw_front length, ← candidate]
      simp only [UInt64.lt_iff_toNat_lt]
      split
      next accepted => rfl
      next rejected => exact ih ⟨rest⟩

theorem wordBelow?_eq {bound : UInt64} (above : 1 < bound.toNat) (source : Source) :
    ∃ drawn, wordBelow? bound source = some drawn ∧
      uniformBelow bound.toNat source = (drawn.1.map UInt64.toNat, drawn.2) := by
  have fits : bound.toNat - 1 < 2 ^ 64 := Nat.lt_of_le_of_lt (Nat.sub_le _ _) bound.toNat_lt
  obtain ⟨greatest, word, number⟩ : ∃ greatest, word? (bound.toNat - 1) = some greatest ∧
      greatest.toNat = bound.toNat - 1 :=
    ⟨_, by rw [← word?_eq fits, Nat.cast_sub above.le, Nat.cast_one], UInt64.toNat_ofNat_of_lt' fits⟩
  have some : greatest ≠ 0 := by
    rintro rfl
    rw [UInt64.toNat_zero] at number
    omega
  obtain ⟨mask, shifted, bits⟩ := shiftRight?_clz some
  rw [number] at bits
  refine ⟨drawMasked mask bound (source.bytes.length / 8 + 1) source, ?_, ?_⟩
  · simp only [wordBelow?, word, shifted, some, Option.bind_eq_bind, Option.bind_some, if_false]
    rfl
  · rw [uniformBelow, if_neg (Nat.not_le.mpr above)]
    exact drawMasked_eq bits source

theorem toInt_min (count : Int64) : (min count 18).toInt = min count.toInt 18 := by
  have chosen : min count 18 = if count ≤ 18 then count else 18 := rfl
  have order : count ≤ 18 ↔ count.toInt ≤ 18 := Int64.le_iff_toInt_le
  rw [chosen, min_def, apply_ite Int64.toInt]
  exact if_congr order rfl rfl

theorem power_word (width : ℕ) (some : 0 < width) (few : width ≤ 18) :
    ∃ bound : UInt64, word? (10 ^ width) = .some bound ∧ bound.toNat = 10 ^ width ∧ 1 < bound.toNat := by
  have fits : 10 ^ width < 2 ^ 64 := (Nat.pow_le_pow_right (by norm_num) few).trans_lt (by norm_num)
  have number : (UInt64.ofNat (10 ^ width)).toNat = 10 ^ width := UInt64.toNat_ofNat_of_lt' fits
  refine ⟨_, by exact_mod_cast word?_eq fits, number, ?_⟩
  rw [number]
  exact Nat.one_lt_pow some.ne' (by norm_num)

/-- Every step has a result in words, and together they are the draw. -/
theorem wordDigits?_eq (count : Int64) (source : Source) :
    wordDigits? count source = some (digits count.toInt source) := by
  rcases le_or_gt count.toInt 0 with none | some
  · have few : count ≤ 0 := Int64.le_iff_toInt_le.mpr none
    rw [wordDigits?, if_pos few, digits_none none]
    rfl
  · have many : ¬count ≤ 0 := fun few => absurd (Int64.le_iff_toInt_le.mp few) (Int.not_le.mpr some)
    have width : (UInt32.ofNat (min count 18).toInt.toNat).toNat = (min count.toInt 18).toNat := by
      rw [UInt32.toNat_ofNat', toInt_min]
      omega
    obtain ⟨bound, power, number, above⟩ :=
      power_word (min count.toInt 18).toNat (by omega) (by omega)
    obtain ⟨⟨drawn, left⟩, found, same⟩ := wordBelow?_eq above source
    rw [number] at same
    simp only [wordDigits?, many, if_false, width, power, Option.bind_eq_bind, Option.bind_some, found,
      digits_some some, same]
    cases drawn <;> rfl

/-- What is drawn for a count of digits is settled by the bytes of the source: a single zero for none,
and otherwise the first word that is small enough once it is cut to the bits of the greatest number. The
draw takes that word and those before it, or without one all words there are. On the way every number
fits in a word. -/
theorem digits_first_candidate (count : Int64) (source : Source) :
    (∀ outcome left, digits count.toInt source = (outcome, left) ↔
        Drawn count.toInt source.bytes outcome left.bytes) ∧
      wordDigits? count source = some (digits count.toInt source) := by
  refine ⟨fun outcome left => ⟨fun drawn => ?_, fun drawn => ?_⟩, wordDigits?_eq count source⟩
  · have found := digits_drawn count.toInt source.bytes
    rwa [drawn] at found
  · obtain ⟨value, bytes⟩ := (digits_drawn count.toInt source.bytes).unique drawn
    exact Prod.ext value (congrArg Source.mk bytes)

/-- The first word is too great for one digit, and the second is cut to four bits. -/
example : digits 1 ⟨[0, 0, 0, 0, 0, 0, 0, 12, 0, 0, 0, 0, 0, 0, 0, 0x37, 1]⟩ = (.ok ['7'], ⟨[1]⟩) := by
  decide +kernel

end MessagePress.Proofs.DigitDraws
