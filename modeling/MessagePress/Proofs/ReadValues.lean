import MessagePress.Proofs.PartialRuns
import MessagePress.Proofs.ValueReading
import MessagePress.Template.JsonDocument

/-! What can be read from a document at all. Whatever the bytes are, numbers come out in range
and values no deeper than the reader went. -/

namespace MessagePress.Proofs.ReadValues
open Template Json Json.Reader Binary64 Rounding NumberReading NumberRange ValueReading MemberLists PartialRuns

/-- What an action gives is as stated, if it gives anything. -/
def Gives {σ ε α : Type} (action : StateT σ (Except ε) α) (post : α → Prop) : Prop :=
  ∀ before value after, action before = .ok (value, after) → post value

namespace Gives

variable {σ ε α β : Type} {action : StateT σ (Except ε) α} {next : α → StateT σ (Except ε) β}
  {post between : α → Prop} {last : β → Prop}

theorem pure {value : α} (holds : post value) :
    Gives (Pure.pure value : StateT σ (Except ε) α) post := by
  rintro before value after ⟨⟩
  exact holds

theorem bind (given : Gives action between) (continued : ∀ value, between value → Gives (next value) last) :
    Gives (action >>= next) last := by
  intro before value after finished
  obtain ⟨result, first, finished⟩ := of_bind finished
  exact continued _ (given _ _ _ first) _ _ _ finished

theorem anything : Gives action fun _ => True := fun _ _ _ _ => trivial

theorem behind (continued : ∀ value, Gives (next value) last) : Gives (action >>= next) last :=
  bind anything fun value _ => continued value

theorem map {f : α → β} (given : Gives action between) (holds : ∀ value, between value → last (f value)) :
    Gives (f <$> action) last :=
  bind given fun value known => pure (holds value known)

end Gives

variable {post : α → Prop} {negative : Bool} {significand : ℕ} {power : ℤ}

theorem fail_gives (cause : Cause) : Gives (fail cause) post := by rintro before value after ⟨⟩

theorem failAtNext_gives (cause : Cause) : Gives (failAtNext cause) post := by
  rintro before value after ⟨⟩

theorem finite_of_mul? {x y result : Binary64} (found : x.mul? y = some result) : Finite result :=
  finite_of_ofQuotient? (Nat.mul_pos (magnitude_pos x) (magnitude_pos y)) found

theorem finite_of_div? {x y result : Binary64} (some : 0 < y.magnitude.1)
    (found : x.div? y = .some result) : Finite result :=
  finite_of_ofQuotient? (Nat.mul_pos (magnitude_pos x) some) found

theorem finite_of_scaleByTen? {steps : ℕ} {x result : Binary64} (finite : Finite x)
    (found : scaleByTen? steps x power = some result) : Finite result := by
  induction steps generalizing x power with
  | zero => cases found; exact finite
  | succ steps ih =>
    have limit : maxPower = 308 := rfl
    rw [scaleByTen?] at found
    split at found
    next near =>
      split at found
      · exact finite_of_mul? found
      · exact finite_of_div? (powerOfTen_pos (by omega)) found
    next =>
      split at found
      · cases found; exact finite
      · split at found
        · cases found
        · obtain ⟨quotient, divided, found⟩ := Option.bind_eq_some_iff.mp found
          exact ih (finite_of_div? (powerOfTen_pos (by omega)) divided) found

theorem finite_of_realOfParts? {result : Binary64}
    (found : realOfParts? negative significand power = some result) : Finite result := by
  obtain ⟨value, rounded, found⟩ := Option.bind_eq_some_iff.mp found
  obtain ⟨scaled, found', last⟩ := Option.bind_eq_some_iff.mp found
  have finite := finite_of_scaleByTen? (finite_of_ofQuotient? one_pos rounded) found'
  cases last
  split
  · exact ⟨finite.significand, finite.least, finite.greatest⟩
  · exact finite

theorem readReal_gives : Gives (readReal negative significand power) InRange := by
  unfold readReal
  split
  next value found => exact .pure (finite_of_realOfParts? found)
  next => exact fail_gives _

theorem readExponent_gives : Gives (readExponent negative significand power) InRange := by
  unfold readExponent
  apply Gives.behind
  intro sign
  dsimp only
  split
  on_goal 1 => refine .behind fun _ => ?_
  all_goals
    apply Gives.behind
    intro first
    split
    · exact fail_gives _
    split
    · exact fail_gives _
    refine .behind fun start => .behind fun digits => ?_
    split
    · exact readReal_gives
    split
    · rintro before value after ⟨⟩
    · exact .pure (zero_finite negative)

theorem readExponentIfAny_gives : Gives (readExponentIfAny negative significand power) InRange := by
  unfold readExponentIfAny
  apply Gives.behind
  intro following
  split
  · split
    · exact .behind fun _ => readExponent_gives
    · exact readReal_gives
  · exact readReal_gives

theorem readFraction_gives : Gives (readFraction negative significand power) InRange := by
  unfold readFraction
  apply Gives.behind
  intro digits
  split
  · apply Gives.behind
    intro following
    split <;> exact failAtNext_gives _
  · exact readExponentIfAny_gives

theorem gatherDigits_le {digits : List UInt8} (word : significand ≤ maxSignificand) :
    (gatherDigits significand digits).1 ≤ maxSignificand := by
  induction digits generalizing significand with
  | nil => exact word
  | cons digit digits ih =>
    rw [gatherDigits]
    split
    next fits => exact ih fits
    next => exact word

private theorem integerNumber_range {number : Number} (word : significand ≤ maxSignificand)
    (found : integerNumber negative significand = some number) : InRange number := by
  have room : maxSignificand = 2 ^ 64 - 1 := by rw [maxSignificand, Nat.pow_eq]
  unfold integerNumber at found
  rw [Nat.pow_eq] at found
  split at found
  · split at found
    · obtain ⟨value, rounded, rfl⟩ := Option.map_eq_some_iff.mp found
      exact finite_of_ofQuotient? one_pos rounded
    · cases found
      exact ⟨by omega, by omega⟩
  · cases found
    exact ⟨by omega, by omega⟩

theorem readNumber_gives : Gives (readNumber negative) InRange := by
  unfold readNumber
  apply Gives.behind
  intro first
  split
  · exact fail_gives _
  next first =>
    split
    · exact fail_gives _
    have word : digitOf first ≤ maxSignificand := by
      have byte := first.toNat_lt
      rw [digitOf, maxSignificand, Nat.pow_eq]
      omega
    dsimp only
    split
    all_goals
      refine .behind fun digits => .behind fun following => ?_
      split
      · exact failAtNext_gives _
      split
      · exact .behind fun _ => readFraction_gives
      split
      · exact .behind fun _ => readExponent_gives
      split
      · split
        next value found => exact .pure (integerNumber_range (gatherDigits_le word) found)
        next => exact fail_gives _
      · exact readReal_gives

variable {item array object : Reader Json} {holds : Json → Prop} {depth : ℕ}

theorem readItems_gives (given : Gives item holds) (steps : ℕ) (first : Bool) :
    Gives (readItems item steps first) fun items => ∀ value ∈ items, holds value := by
  induction steps generalizing first with
  | zero => exact .pure (by simp)
  | succ steps ih =>
    rw [readItems]
    apply Gives.behind
    intro another
    split
    · refine .bind given fun value known => .bind (ih false) fun items later => .pure ?_
      exact List.forall_mem_cons.mpr ⟨known, later⟩
    · exact .behind fun _ => .pure (by simp)

theorem readMembers_gives (given : Gives item holds) (steps : ℕ) (first : Bool) :
    Gives (readMembers item steps first) fun members => ∀ member ∈ members, holds member.2 := by
  induction steps generalizing first with
  | zero => exact .pure (by simp)
  | succ steps ih =>
    rw [readMembers]
    apply Gives.behind
    intro another
    split
    · refine .behind fun name => .behind fun _ => ?_
      refine .bind given fun value known => .bind (ih false) fun members later => .pure ?_
      exact List.forall_mem_cons.mpr ⟨known, later⟩
    · exact .behind fun _ => .pure (by simp)

theorem readArray_gives (given : Gives item holds) :
    Gives (readArray item) fun items => ∀ value ∈ items, holds value :=
  .behind fun _ => .behind fun count => readItems_gives given (count + 1) true

theorem readObject_gives (given : Gives item holds) :
    Gives (readObject item) fun members => ∀ member ∈ members, holds member.2 := by
  refine .behind fun _ => .behind fun count => ?_
  refine .bind (readMembers_gives given (count + 1) true) fun members known => .pure ?_
  exact fun member found => known member (mem_ofList found)

theorem readWith_gives (arrays : Gives array (Fits depth)) (objects : Gives object (Fits depth)) :
    Gives (readWith array object) (Fits depth) := by
  unfold readWith
  apply Gives.behind
  intro following
  split
  · exact failAtNext_gives _
  split
  · exact .behind fun _ => .behind fun _ => .pure (fits_null depth)
  split
  · exact .behind fun _ => .behind fun _ => .pure (fits_bool depth true)
  split
  · exact .behind fun _ => .behind fun _ => .pure (fits_bool depth false)
  split
  · exact .behind fun _ => .bind readNumber_gives fun _ range => .pure (fits_number.mpr range)
  split
  · exact .bind readNumber_gives fun _ range => .pure (fits_number.mpr range)
  split
  · exact .behind fun _ => .behind fun content => .pure (fits_text depth content)
  split
  · exact arrays
  split
  · exact objects
  · exact failAtNext_gives _

theorem readValue_gives (depth : ℕ) : Gives (readValue depth) (Fits depth) := by
  induction depth with
  | zero => exact readWith_gives (failAtNext_gives _) (failAtNext_gives _)
  | succ depth ih =>
    exact readWith_gives (.map (readArray_gives ih) fun _ known => known)
      (.map (readObject_gives ih) fun _ known => known)

/-- The body met so far, if there is one, is nested no deeper than a section may be. -/
def BodyFits (depth : ℕ) (sections : Sections) : Prop :=
  ∀ body, sections.body = some body → MembersFit depth body

theorem readSection_gives : Gives readSection (MembersFit 125) := by
  unfold readSection
  apply Gives.behind
  intro following
  split
  · exact failAtNext_gives _
  split
  · exact readObject_gives (readValue_gives 125)
  · exact .behind fun _ => fail_gives _

theorem failDuplicate_gives (name : String) : Gives (failDuplicate name) post := by
  unfold failDuplicate
  apply Gives.behind
  intro following
  dsimp only
  split
  · exact .behind fun _ => fail_gives _
  · exact fail_gives _

theorem readMember_gives {sections : Sections} (name : String) (fits : BodyFits 125 sections) :
    Gives (readMember sections name) (BodyFits 125) := by
  unfold readMember
  split
  · split
    · exact failDuplicate_gives _
    · exact .behind fun _ => .behind fun section? => .pure fits
  · split
    · exact failDuplicate_gives _
    · refine .behind fun _ => .bind readSection_gives fun body known => .pure ?_
      rintro body ⟨⟩
      exact known
  · exact .behind fun _ => .behind fun _ => .pure fits

theorem readSections_gives {sections : Sections} (steps : ℕ) (first : Bool)
    (fits : BodyFits 125 sections) : Gives (readSections steps first sections) (BodyFits 125) := by
  induction steps generalizing first sections with
  | zero => exact .pure fits
  | succ steps ih =>
    rw [readSections]
    apply Gives.behind
    intro another
    split
    · exact .behind fun name => .bind (readMember_gives name fits) fun sections known => ih false known
    · exact .behind fun _ => .pure fits

theorem readItemIfAny_gives (first : Bool) :
    Gives (readItemIfAny first) fun body? => ∀ body, body? = some body → MembersFit 125 body := by
  unfold readItemIfAny
  apply Gives.behind
  intro another
  split
  · refine .bind readSection_gives fun body known => .pure ?_
    rintro body ⟨⟩
    exact known
  · exact .pure (by simp)

theorem template_fits {sections : Sections} (fits : BodyFits depth sections) :
    MembersFit depth sections.template.body := by
  unfold Sections.template
  cases given : sections.body with
  | none => exact fun member found => absurd found List.not_mem_nil
  | some body => exact fits body given

theorem readTemplate_gives : Gives readTemplate fun template => MembersFit 125 template.body := by
  unfold readTemplate
  apply Gives.behind
  intro following
  split
  · exact failAtNext_gives _
  split
  · refine .behind fun _ => .behind fun count => ?_
    refine .bind (readSections_gives (count + 1) true ?_) fun sections known =>
      .pure (template_fits known)
    exact fun body none => nomatch none
  split
  · refine .behind fun _ => .behind fun substitution => ?_
    refine .bind (readItemIfAny_gives _) fun body known => .behind fun _ => .pure ?_
    exact @template_fits _ ⟨substitution, body⟩ known
  · exact .behind fun _ => fail_gives _

theorem readDocument_gives {document : Reader α} {holds : α → Prop} {bytes : List UInt8} {value : α}
    (given : Gives document holds) (read : readDocument document bytes = .ok value) : holds value := by
  have whole : Gives (document >>= fun value => readEnd >>= fun _ => pure value) holds :=
    .bind given fun value known => .behind fun _ => .pure known
  obtain ⟨result, finished, same⟩ := of_bind read
  cases same
  exact whole _ _ _ finished

/-- A template that is loaded as JSON leaves room for two more levels around its values. -/
theorem ofJson_fits {bytes : List UInt8} {template : Template} (loaded : ofJson bytes = .ok template) :
    MembersFit 125 template.body := by
  exact @readDocument_gives _ _ (fun template => MembersFit 125 template.body) _ _
    readTemplate_gives (of_mapError loaded)

end MessagePress.Proofs.ReadValues
