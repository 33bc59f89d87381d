import Mathlib.Data.FinEnum
import Mathlib.Data.Nat.Count
import Mathlib.Data.Set.Card.Arithmetic
import Mathlib.Data.Set.Finite.List
import Mathlib.Order.CompletePartialOrder
import MessagePress.Proofs.DigitDraws

/-! Draws favour no number. The words that are taken for one number are as many as those that are
taken for another, and most words are taken; so of all sources that hold so many words, each number is
drawn from equally many. -/

namespace MessagePress.Proofs.FairDraws
open MessagePress.Random Draws DigitDraws

variable {bound value count modulus : ℕ} {word rest : List UInt8} {first second : Set (List UInt8)}

/-- All words, each a list of eight bytes. -/
def words : Set (List UInt8) := {word | word.length = 8}

/-- The words that a draw takes for a number. -/
def takenFor (bound value : ℕ) : Set (List UInt8) := {word ∈ words | Takes (uniformBelow bound) word value}

/-- The words that a draw takes for some number. -/
def accepted (bound : ℕ) : Set (List UInt8) := {word ∈ words | ∃ value, Takes (uniformBelow bound) word value}

/-- The sources of so many words from which a number is drawn. -/
def drawnFrom (bound count value : ℕ) : Set (List UInt8) :=
  {bytes | bytes.length = 8 * count ∧ (uniformBelow bound ⟨bytes⟩).1 = .ok value}

/-- No number below the bound is favoured, and words are rarely drawn in vain. -/
structure Fair (bound : ℕ) : Prop where
  all : words.ncard = 2 ^ 64
  shares : ∀ value < bound, (takenFor bound value).ncard = 2 ^ (64 - Nat.size (bound - 1))
  below : ∀ word value, word ∈ takenFor bound value → value < bound
  most : 2 ^ 64 < 2 * (accepted bound).ncard
  others : ∀ word ∈ words, word ∉ accepted bound →
    ∀ rest, uniformBelow bound ⟨word ++ rest⟩ = uniformBelow bound ⟨rest⟩
  draws : ∀ count, ∀ value < bound, ∀ other < bound,
    (drawnFrom bound count value).ncard = (drawnFrom bound count other).ncard

theorem uniformBelow_word (above : 1 < bound) (length : word.length = 8) (rest : List UInt8) :
    uniformBelow bound ⟨word ++ rest⟩ =
      if wordValue word % 2 ^ Nat.size (bound - 1) < bound then
        (.ok (wordValue word % 2 ^ Nat.size (bound - 1)), ⟨rest⟩)
      else uniformBelow bound ⟨rest⟩ := by
  rw [uniformBelow, if_neg (Nat.not_le.mpr above), uniformBelow, if_neg (Nat.not_le.mpr above)]
  dsimp only
  rw [word_count length, drawBelow_word length, wordOfBytes_eq, maskWord_eq]

theorem uniformBelow_empty (above : 1 < bound) : uniformBelow bound ⟨[]⟩ = (.error .exhausted, ⟨[]⟩) := by
  rw [uniformBelow, if_neg (Nat.not_le.mpr above)]
  exact drawBelow_short (by decide)

/-- A word is taken for the number that its bits are, if that is below the bound. -/
theorem takes_iff (above : 1 < bound) (length : word.length = 8) : Takes (uniformBelow bound) word value ↔
    wordValue word % 2 ^ Nat.size (bound - 1) = value ∧ value < bound := by
  constructor
  · intro takes
    have alone := takes []
    rw [uniformBelow_word above length] at alone
    split at alone
    next small =>
      cases alone
      exact ⟨rfl, small⟩
    next large =>
      rw [uniformBelow_empty above] at alone
      cases alone
  · rintro ⟨rfl, small⟩ rest
    rw [uniformBelow_word above length, if_pos small]

theorem mem_accepted (above : 1 < bound) :
    word ∈ accepted bound ↔ word ∈ words ∧ wordValue word % 2 ^ Nat.size (bound - 1) < bound := by
  refine and_congr_right fun length => ?_
  simp only [takes_iff above length]
  exact ⟨fun ⟨value, same, small⟩ => same ▸ small, fun small => ⟨_, rfl, small⟩⟩

theorem uniformBelow_refused (above : 1 < bound) (length : word.length = 8) (refused : word ∉ accepted bound)
    (rest : List UInt8) : uniformBelow bound ⟨word ++ rest⟩ = uniformBelow bound ⟨rest⟩ := by
  have large := fun small => refused ((mem_accepted above).mpr ⟨length, small⟩)
  rw [uniformBelow_word above length, if_neg large]

theorem wordValue_bijOn : Set.BijOn wordValue words {number | number < 2 ^ 64} := by
  have digits : Set.BijOn (fun word : List UInt8 => (word.map UInt8.toNat).reverse) words
      {digits | digits.length = 8 ∧ ∀ digit ∈ digits, digit < 256} := by
    refine ⟨fun word length => ⟨?_, ?_⟩, fun word _ other _ same => ?_, fun digits ⟨length, small⟩ => ?_⟩
    · rw [List.length_reverse, List.length_map]
      exact length
    · intro digit member
      obtain ⟨byte, -, rfl⟩ := List.mem_map.mp (List.mem_reverse.mp member)
      exact byte.toNat_lt
    · exact List.map_injective_iff.mpr (fun _ _ => UInt8.toNat_inj.mp) (List.reverse_injective same)
    · have kept : digits.map (UInt8.toNat ∘ UInt8.ofNat) = digits := by
        refine (List.map_congr_left fun digit member => ?_).trans digits.map_id
        exact UInt8.toNat_ofNat_of_lt' (small digit member)
      exact ⟨digits.reverse.map UInt8.ofNat, by simpa [words] using length, by simp [kept]⟩
  exact (Nat.bijOn_ofDigits (by norm_num : 1 < 256) 8).comp digits

theorem ncard_words (property : ℕ → Prop) [DecidablePred property] :
    {word ∈ words | property (wordValue word)}.ncard = Nat.count property (2 ^ 64) := by
  have numbers : wordValue '' (words ∩ Set.preimage wordValue {number | property number}) =
      ((Finset.range (2 ^ 64)).filter property : Finset ℕ) := by
    rw [Set.image_inter_preimage, wordValue_bijOn.image_eq, Finset.coe_filter]
    simp only [Finset.mem_range]
    rfl
  have apart : Set.InjOn wordValue (words ∩ Set.preimage wordValue {number | property number}) :=
    wordValue_bijOn.injOn.mono Set.inter_subset_left
  rw [Nat.count_eq_card_filter_range, ← Set.ncard_coe_finset, ← numbers, apart.ncard_image]
  rfl

theorem count_remainders (property : ℕ → Prop) [DecidablePred property] (modulus quotient : ℕ) :
    Nat.count (fun number => property (number % modulus)) (modulus * quotient) =
      quotient * Nat.count property modulus := by
  induction quotient with
  | zero => simp
  | succ quotient ih =>
    have again : Nat.count (fun number => property ((modulus * quotient + number) % modulus)) modulus =
        Nat.count property modulus := by
      rw [Nat.count_eq_card_filter_range, Nat.count_eq_card_filter_range]
      refine congrArg Finset.card (Finset.filter_congr fun number member => ?_)
      rw [Nat.mul_add_mod, Nat.mod_eq_of_lt (Finset.mem_range.mp member)]
    rw [Nat.mul_succ, Nat.count_add, ih, again, Nat.succ_mul]

theorem size_le (fits : bound < 2 ^ 64) : Nat.size (bound - 1) ≤ 64 :=
  Nat.size_le.mpr (Nat.lt_of_le_of_lt (Nat.sub_le bound 1) fits)

/-- The words whose bits have a property are equally shared out over the bits. -/
theorem ncard_bits (property : ℕ → Prop) [DecidablePred property] (fits : bound < 2 ^ 64) :
    {word ∈ words | property (wordValue word % 2 ^ Nat.size (bound - 1))}.ncard =
      2 ^ (64 - Nat.size (bound - 1)) * Nat.count property (2 ^ Nat.size (bound - 1)) := by
  have whole : 2 ^ 64 = 2 ^ Nat.size (bound - 1) * 2 ^ (64 - Nat.size (bound - 1)) := by
    rw [← Nat.pow_add, Nat.add_sub_cancel' (size_le fits)]
  rw [ncard_words fun number => property (number % 2 ^ Nat.size (bound - 1)), whole, count_remainders]

theorem ncard_all : words.ncard = 2 ^ 64 := by
  have whole := ncard_words fun _ => True
  rwa [Nat.count_true, Set.sep_true] at whole

theorem bound_le (bound : ℕ) : bound ≤ 2 ^ Nat.size (bound - 1) := by
  have fits := Nat.lt_size_self (bound - 1)
  omega

theorem ncard_takenFor (above : 1 < bound) (fits : bound < 2 ^ 64) (small : value < bound) :
    (takenFor bound value).ncard = 2 ^ (64 - Nat.size (bound - 1)) := by
  have same : takenFor bound value = {word ∈ words | wordValue word % 2 ^ Nat.size (bound - 1) = value} :=
    Set.ext fun word => and_congr_right fun length => by rw [takes_iff above length, and_iff_left small]
  have once : Nat.count (· = value) (2 ^ Nat.size (bound - 1)) = 1 := by
    have inside := Finset.mem_range.mpr (small.trans_le (bound_le bound))
    rw [Nat.count_eq_card_filter_range, Finset.filter_eq', if_pos inside, Finset.card_singleton]
  rw [same, ncard_bits (· = value) fits, once, Nat.mul_one]

theorem ncard_accepted (above : 1 < bound) (fits : bound < 2 ^ 64) :
    (accepted bound).ncard = 2 ^ (64 - Nat.size (bound - 1)) * bound := by
  have same : accepted bound = {word ∈ words | wordValue word % 2 ^ Nat.size (bound - 1) < bound} :=
    Set.ext fun word => mem_accepted above
  have many : Nat.count (· < bound) (2 ^ Nat.size (bound - 1)) = bound := by
    have least : (Finset.range (2 ^ Nat.size (bound - 1))).filter (· < bound) = Finset.range bound := by
      ext number
      have room := bound_le bound
      simp only [Finset.mem_filter, Finset.mem_range]
      omega
    rw [Nat.count_eq_card_filter_range, least, Finset.card_range]
  rw [same, ncard_bits (· < bound) fits, many]

/-- The greatest number has its highest bit set, so more than half of all bits are below the bound. -/
theorem most_accepted (above : 1 < bound) (fits : bound < 2 ^ 64) : 2 ^ 64 < 2 * (accepted bound).ncard := by
  have some : Nat.size (bound - 1) ≠ 0 := (Nat.size_pos.mpr (Nat.sub_pos_of_lt above)).ne'
  obtain ⟨places, bits⟩ := Nat.exists_eq_succ_of_ne_zero some
  have highest : 2 ^ places ≤ bound - 1 := Nat.lt_size.mp (by omega)
  have few := size_le fits
  calc 2 ^ 64 = 2 * (2 ^ (64 - (places + 1)) * 2 ^ places) := by
        rw [← Nat.pow_add, ← Nat.pow_succ']
        congr 1
        omega
    _ < 2 * (2 ^ (64 - (places + 1)) * bound) := by
        have half : 2 ^ places < bound := by omega
        gcongr
    _ = 2 * (accepted bound).ncard := by rw [ncard_accepted above fits, bits]

def joined (first second : Set (List UInt8)) : Set (List UInt8) := Set.image2 (· ++ ·) first second

theorem ncard_joined (front : first ⊆ words) : (joined first second).ncard = first.ncard * second.ncard := by
  have apart : Set.InjOn (fun parts : List UInt8 × List UInt8 => parts.1 ++ parts.2) (first ×ˢ second) := by
    rintro ⟨word, rest⟩ ⟨member, -⟩ ⟨word', rest'⟩ ⟨member', -⟩ same
    obtain ⟨rfl, rfl⟩ := List.append_inj same ((front member).trans (front member').symm)
    rfl
  rw [joined, ← Set.image_prod, apart.ncard_image, Set.ncard_prod]

theorem joined_disjoint {third fourth : Set (List UInt8)} (front : first ⊆ words) (other : third ⊆ words)
    (apart : Disjoint first third) : Disjoint (joined first second) (joined third fourth) := by
  refine Set.disjoint_left.mpr ?_
  rintro - ⟨word, member, rest, -, rfl⟩ ⟨word', member', rest', -, same⟩
  obtain ⟨rfl, -⟩ := List.append_inj same ((other member').trans (front member).symm)
  exact Set.disjoint_left.mp apart member member'

/-- A number is drawn from the first word, or that is passed over and it is drawn from the others. -/
theorem drawnFrom_succ (above : 1 < bound) (count value : ℕ) :
    drawnFrom bound (count + 1) value =
      joined (takenFor bound value) {bytes | bytes.length = 8 * count} ∪
        joined (words \ accepted bound) (drawnFrom bound count value) := by
  ext bytes
  constructor
  · rintro ⟨whole, drawn⟩
    obtain ⟨word, rest, rfl, length⟩ : ∃ word rest, bytes = word ++ rest ∧ word.length = 8 :=
      ⟨bytes.take 8, bytes.drop 8, (List.take_append_drop 8 bytes).symm, List.length_take_of_le (by omega)⟩
    have left : rest.length = 8 * count := by
      rw [List.length_append, length] at whole
      omega
    rw [uniformBelow_word above length] at drawn
    split at drawn
    next small =>
      obtain rfl := Except.ok.inj drawn
      exact Or.inl ⟨word, ⟨length, (takes_iff above length).mpr ⟨rfl, small⟩⟩, rest, left, rfl⟩
    next large =>
      have refused : word ∉ accepted bound := fun taken => large ((mem_accepted above).mp taken).2
      exact Or.inr ⟨word, ⟨length, refused⟩, rest, ⟨left, drawn⟩, rfl⟩
  · have whole {word rest : List UInt8} (length : word.length = 8) (left : rest.length = 8 * count) :
        (word ++ rest).length = 8 * (count + 1) := by
      rw [List.length_append, length, left, Nat.mul_succ, Nat.add_comm]
    rintro (⟨word, ⟨length, takes⟩, rest, left, rfl⟩ | ⟨word, ⟨length, refused⟩, rest, ⟨left, drawn⟩, rfl⟩)
    · exact ⟨whole length left, congrArg Prod.fst (takes rest)⟩
    · refine ⟨whole length left, ?_⟩
      rw [uniformBelow_refused above length refused]
      exact drawn

theorem ncard_drawnFrom_succ (above : 1 < bound) (count value : ℕ) :
    (drawnFrom bound (count + 1) value).ncard =
      (takenFor bound value).ncard * {bytes : List UInt8 | bytes.length = 8 * count}.ncard +
        (words \ accepted bound).ncard * (drawnFrom bound count value).ncard := by
  have finite : (drawnFrom bound (count + 1) value).Finite :=
    (List.finite_length_eq UInt8 (8 * (count + 1))).subset fun bytes drawn => drawn.1
  rw [drawnFrom_succ above] at finite ⊢
  obtain ⟨taken, passed⟩ := Set.finite_union.mp finite
  have front : takenFor bound value ⊆ words := Set.sep_subset _ _
  have apart : Disjoint (takenFor bound value) (words \ accepted bound) :=
    Set.disjoint_left.mpr fun word member other => other.2 ⟨member.1, value, member.2⟩
  rw [Set.ncard_union_eq (joined_disjoint front Set.sdiff_subset apart) taken passed, ncard_joined front,
    ncard_joined Set.sdiff_subset]

theorem ncard_drawnFrom {other : ℕ} (above : 1 < bound) (fits : bound < 2 ^ 64) (small : value < bound)
    (also : other < bound) : (drawnFrom bound count value).ncard = (drawnFrom bound count other).ncard := by
  induction count with
  | zero =>
    have none (value : ℕ) : drawnFrom bound 0 value = ∅ := by
      refine Set.eq_empty_of_forall_notMem fun bytes ⟨empty, drawn⟩ => ?_
      obtain rfl := List.length_eq_zero_iff.mp empty
      rw [uniformBelow_empty above] at drawn
      cases drawn
    rw [none, none]
  | succ count ih =>
    rw [ncard_drawnFrom_succ above, ncard_drawnFrom_succ above, ncard_takenFor above fits small,
      ncard_takenFor above fits also, ih]

/-- Every number below a bound is drawn from equally many words, and more than half of all words are
drawn from. The others are passed over, so of the sources of any length equally many give each number. -/
theorem draws_fair (least : 2 ≤ bound) (fits : bound < 2 ^ 64) : Fair bound where
  all := ncard_all
  shares _ small := ncard_takenFor least fits small
  below _ _ taken := ((takes_iff least taken.1).mp taken.2).2
  most := most_accepted least fits
  others _ length refused := uniformBelow_refused least length refused
  draws _ _ small _ also := ncard_drawnFrom least fits small also

theorem draws_fair_ten : 2 ≤ 10 ∧ 10 < 2 ^ 64 ∧ Fair 10 ∧ (takenFor 10 7).ncard = 2 ^ 60 := by
  have fair : Fair 10 := draws_fair (by norm_num) (by norm_num)
  have bits : Nat.size (10 - 1) = 4 := by decide
  refine ⟨by norm_num, by norm_num, fair, ?_⟩
  rw [fair.shares 7 (by norm_num), bits]

end MessagePress.Proofs.FairDraws
