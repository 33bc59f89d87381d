import MessagePress.Proofs.JsonSyntax
import MessagePress.Proofs.ScannerSteps

/-! Blanks between tokens, and numbers and names as the scanner reads them: plain scalars, which
take the blanks behind them as well. -/

namespace MessagePress.Proofs.PlainScans
open Yaml Yaml.Scan PartialRuns ScannerSteps JsonSyntax

variable {cursor : Cursor} {layout : Layout} {text rest blanks : List Char} {c : Char}

/-- A text that begins with a token, or nothing. -/
def Opens (rest : List Char) : Prop :=
  ∀ c, rest.head? = some c → isBlankOrEnd c = false ∧ c ≠ '#' ∧ c ≠ '\ufeff'

theorem opens_cons (visible : isBlankOrEnd c = false) (comment : c ≠ '#') (order : c ≠ '\ufeff') :
    Opens (c :: rest) := by
  rintro d ⟨⟩
  exact ⟨visible, comment, order⟩

/-- Characters that documents may have between tokens. -/
def Blank (blanks : List Char) : Prop := ∀ c ∈ blanks, JsonSyntax.isBlank c = true

theorem blank_cases (blank : JsonSyntax.isBlank c = true) :
    Yaml.isBlank c = true ∧ isBreak c = false ∨
      Yaml.isBlank c = false ∧ isBreak c = true ∧ (c = '\n' ∨ c = '\r') := by
  simp only [JsonSyntax.isBlank, Bool.or_eq_true, beq_iff_eq] at blank
  rcases blank with ((rfl | rfl) | rfl) | rfl <;> decide

theorem Opens.ahead (opens : Opens rest) (stands : Stands cursor rest) :
    Yaml.isBlank (ahead cursor 0) = false ∧ isBreak (ahead cursor 0) = false ∧ ahead cursor 0 ≠ '#' ∧
      ahead cursor 0 ≠ '\ufeff' := by
  rw [stands.ahead]
  cases rest with
  | nil => decide
  | cons c rest =>
    obtain ⟨visible, apart⟩ := opens c rfl
    rw [isBlankOrEnd, Bool.or_eq_false_iff, isBreakOrEnd, Bool.or_eq_false_iff] at visible
    exact ⟨visible.1, visible.2.1, apart⟩

theorem ahead_cases (blank : Blank blanks) (opens : Opens rest) (stands : Stands cursor (blanks ++ rest)) :
    ahead cursor 0 ≠ '#' ∧ ahead cursor 0 ≠ '\ufeff' := by
  cases blanks with
  | nil => exact (opens.ahead stands).2.2
  | cons c blanks =>
    have first : ahead cursor 0 = c := stands.ahead 0
    rw [first]
    constructor
    all_goals
      rintro rfl
      cases blank _ List.mem_cons_self

theorem readBreak_blank (blank : Blank blanks) (opens : Opens rest) (breaks : isBreak c = true)
    (stands : Stands cursor (c :: (blanks ++ rest))) :
    Yields (readBreak cursor) fun reached => ∃ fewer, Stands reached.2 (fewer ++ rest) ∧ Blank fewer ∧
      fewer.length ≤ blanks.length := by
  have counted := stands.counted
  rw [List.length_cons] at counted
  unfold readBreak
  rw [stands.rest]
  dsimp only
  split
  next tail begins =>
    have behind : blanks ++ rest = '\n' :: tail := (List.cons.inj begins).2
    cases blanks with
    | nil =>
      rw [List.nil_append] at behind
      cases (opens '\n' (by rw [behind]; rfl)).1
    | cons d blanks =>
      refine yields_ok.mpr ⟨blanks, ⟨rfl, stands.whole, ?_⟩, ?_, Nat.le_succ _⟩
      · simp only [List.cons_append, List.length_cons] at counted
        dsimp only
        omega
      · exact (List.forall_mem_cons.mp blank).2
  next d tail _ begins =>
    obtain ⟨rfl, behind⟩ := List.cons.inj begins
    have passed : Stands ⟨blanks ++ rest, cursor.size, cursor.broken,
        ⟨cursor.mark.index + 1, cursor.mark.line + 1, 0⟩⟩ (blanks ++ rest) :=
      ⟨rfl, stands.whole, by dsimp only; omega⟩
    rw [if_pos breaks]
    split <;> exact yields_ok.mpr ⟨blanks, passed, blank, Nat.le_refl _⟩
  next none => cases none

theorem readGap_passes {check : Gap → Scan Unit} {steps : Nat} {gap : Gap} (blank : Blank blanks)
    (opens : Opens rest) (stands : Stands cursor (blanks ++ rest)) (enough : blanks.length < steps)
    (checks : ∀ gap cursor, Yields (check gap cursor) fun reached => reached.2 = cursor) :
    Yields (readGap check steps gap cursor) fun reached => Stands reached.2 rest := by
  induction steps generalizing cursor blanks gap with
  | zero => exact absurd enough (Nat.not_lt_zero _)
  | succ steps ih =>
    rw [readGap]
    simp only [bind_apply, yields_bind, peek_apply, yields_ok]
    cases blanks with
    | nil =>
      obtain ⟨visible, onward, -⟩ := opens.ahead stands
      rw [visible, if_neg Bool.false_ne_true, onward, if_neg Bool.false_ne_true]
      exact yields_pure.mpr stands
    | cons c blanks =>
      obtain ⟨here, later⟩ := List.forall_mem_cons.mp blank
      have first : ahead cursor 0 = c := stands.ahead 0
      have fewer : blanks.length < steps := Nat.lt_of_succ_lt_succ enough
      rw [first]
      rcases blank_cases here with ⟨space, -⟩ | ⟨visible, breaks, -⟩
      · rw [if_pos space]
        simp only [bind_apply, yields_bind]
        refine (checks gap cursor).imp ?_
        rintro ⟨_, cursor⟩ rfl
        exact yields_pass stands fun passed stands => yields_whole stands (ih later stands fewer)
      · rw [visible, if_neg Bool.false_ne_true, if_pos breaks]
        simp only [bind_apply, yields_bind]
        refine yields_whole stands ((readBreak_blank later opens breaks stands).imp ?_)
        rintro ⟨read, cursor⟩ ⟨less, stands, blank, most⟩
        exact yields_whole stands (ih blank stands (Nat.lt_of_le_of_lt most fewer))

/-- A layout in which keys may be allowed or not. -/
def allowing (layout : Layout) (allowed : Bool) : Layout := { layout with keyAllowed := allowed }

theorem skipWhile_passes {p : Char → Bool} (blank : Blank blanks) (opens : Opens rest)
    (spaces : ∀ c, p c = true → Yaml.isBlank c = true) (stands : Stands cursor (blanks ++ rest)) :
    Yields (skipWhile p cursor) fun reached => ∃ fewer, Stands reached.2 (fewer ++ rest) ∧ Blank fewer ∧
      fewer.length ≤ blanks.length ∧ ∀ c, fewer.head? = some c → p c = false := by
  have stops : ∀ c, rest.head? = some c → p c = false := by
    intro c head
    have visible := (opens c head).1
    rw [isBlankOrEnd, Bool.or_eq_false_iff] at visible
    exact Bool.eq_false_iff.mpr fun passes => Bool.eq_false_iff.mp visible.1 (spaces c passes)
  have taken : (blanks ++ rest).takeWhile p = blanks.takeWhile p := by
    have front : rest.takeWhile p = [] := by
      cases rest with
      | nil => rfl
      | cons c rest => rw [List.takeWhile_cons_of_neg (Bool.eq_false_iff.mp (stops c rfl))]
    rw [List.takeWhile_append, front, List.append_nil]
    split
    next all => exact ((List.takeWhile_prefix p).eq_of_length all).symm
    next => rfl
  have whole : Stands cursor (blanks.takeWhile p ++ (blanks.dropWhile p ++ rest)) := by
    rw [← List.append_assoc, List.takeWhile_append_dropWhile]
    exact stands
  unfold skipWhile takeWhile
  simp only [bind_apply, yields_bind]
  refine yields_whole stands ?_
  refine yields_ok.mpr ?_
  dsimp only
  rw [stands.rest, taken]
  refine yields_skip _ whole fun behind stands => yields_whole stands (yields_pure.mpr (yields_pure.mpr ?_))
  refine ⟨_, stands, fun c member => blank c ((List.dropWhile_suffix p).subset member),
    (List.dropWhile_suffix p).length_le, fun c head => ?_⟩
  have stop := List.head?_dropWhile_not p blanks
  rw [head] at stop
  simpa using stop

/-- Blanks are passed; only a tab where a key can start is not one. -/
theorem skipToToken_passes {steps : Nat} (blank : Blank blanks) (opens : Opens rest)
    (stands : Stands cursor (blanks ++ rest)) (enough : blanks.length < steps) :
    Yields (Lex.skipToToken steps layout cursor) fun reached =>
      ahead reached.2 0 = '\t' ∨ Stands reached.2 rest ∧ ∃ allowed, reached.1.2 = allowing layout allowed ∧
        (1 < layout.keys.length → allowed = layout.keyAllowed) := by
  induction steps generalizing cursor blanks layout with
  | zero => exact absurd enough (Nat.not_lt_zero _)
  | succ steps ih =>
    have order : ahead cursor 0 ≠ '\ufeff' := (ahead_cases blank opens stands).2
    rw [Lex.skipToToken]
    simp only [bind_apply, yields_bind, liftM_apply, yields_map]
    refine yields_whole stands ?_
    simp only [here_apply, peek_apply, yields_ok, order, and_false, if_false, bind_apply, yields_bind, inFlow_apply,
      get_apply, liftM_apply, yields_map]
    refine (skipWhile_passes blank opens ?_ stands).imp ?_
    · intro c passes
      simp only [Bool.or_eq_true, Bool.and_eq_true, beq_iff_eq] at passes
      rcases passes with rfl | ⟨-, rfl⟩ <;> decide
    rintro ⟨_, cursor⟩ ⟨fewer, stands, blank, most, stops⟩
    have comment : ahead cursor 0 ≠ '#' := (ahead_cases blank opens stands).1
    unfold skipComment
    simp only [bind_apply, yields_bind, peek_apply, yields_ok, if_neg comment]
    refine yields_pure.mpr ?_
    cases fewer with
    | nil =>
      rw [(opens.ahead stands).2.1, if_neg Bool.false_ne_true]
      exact yields_pure.mpr (Or.inr ⟨stands, layout.keyAllowed, rfl, fun _ => rfl⟩)
    | cons c fewer =>
      have first : ahead cursor 0 = c := stands.ahead 0
      obtain ⟨here, later⟩ := List.forall_mem_cons.mp blank
      rw [first]
      rcases blank_cases here with ⟨space, onward⟩ | ⟨-, breaks, -⟩
      · rw [onward, if_neg Bool.false_ne_true]
        refine yields_pure.mpr (Or.inl ?_)
        have stop := stops c rfl
        simp only [Bool.or_eq_false_iff, beq_eq_false_iff_ne] at stop
        simp only [Yaml.isBlank, Bool.or_eq_true, beq_iff_eq] at space
        exact first.trans (space.resolve_left stop.1)
      · rw [if_pos breaks]
        simp only [bind_apply, yields_bind, liftM_apply, yields_map]
        refine yields_whole stands ?_
        unfold skipBreak
        simp only [bind_apply, yields_bind]
        refine (readBreak_blank later opens breaks stands).imp ?_
        rintro ⟨_, cursor⟩ ⟨less, stands, blank, fewer⟩
        refine yields_pure.mpr ?_
        have enough : less.length < steps := by
          rw [List.length_cons] at most
          omega
        simp only [inFlow_apply, yields_ok]
        cases flow : decide (1 < layout.keys.length) with
        | true => exact ih blank stands enough
        | false =>
          rw [Bool.not_false, if_pos rfl, bind_apply, bind_apply, yields_bind]
          refine yields_ok.mpr ((@ih _ (allowing layout true) _ blank stands enough).imp ?_)
          rintro reached (tab | ⟨stands, allowed, same, -⟩)
          · exact Or.inl tab
          · exact Or.inr ⟨stands, allowed, same, fun inside => absurd inside (of_decide_eq_false flow)⟩

def isPlainChar (c : Char) : Bool := !(isBlankOrEnd c || c == ':' || isFlowIndicator c)

theorem readPlainPiece_scans {start : Mark} {steps : Nat} {word : List Char}
    (plain : ∀ c ∈ word, isPlainChar c = true) (stands : Stands cursor (word ++ rest))
    (ends : ∀ c, rest.head? = some c → isBlankOrEnd c = true ∨ isFlowIndicator c = true)
    (enough : word.length < steps) :
    Yields (readPlainPiece true start steps cursor) fun reached => reached.1 = word ∧ Stands reached.2 rest := by
  induction steps generalizing cursor word with
  | zero => exact absurd enough (Nat.not_lt_zero _)
  | succ steps ih =>
    rw [readPlainPiece]
    simp only [bind_apply, yields_bind, peek_apply, peekAt_apply, yields_ok]
    cases word with
    | nil =>
      have stops : isBlankOrEnd (ahead cursor 0) = true ∨ isFlowIndicator (ahead cursor 0) = true := by
        rw [stands.ahead]
        cases rest with
        | nil => exact Or.inl (by decide)
        | cons c rest => exact ends c rfl
      split
      · exact yields_pure.mpr ⟨rfl, stands⟩
      split
      · exact yields_error
      next visible _ =>
        rw [stops.resolve_left visible, Bool.and_self, Bool.or_true, if_pos rfl]
        exact yields_pure.mpr ⟨rfl, stands⟩
    | cons c word =>
      obtain ⟨here, later⟩ := List.forall_mem_cons.mp plain
      have first : ahead cursor 0 = c := stands.ahead 0
      simp only [isPlainChar, Bool.not_eq_true', Bool.or_eq_false_iff, beq_eq_false_iff_ne] at here
      obtain ⟨⟨visible, colon⟩, flow⟩ := here
      simp only [first, visible, beq_eq_false_iff_ne.mpr colon, flow, Bool.and_false, Bool.false_and, Bool.or_false,
        Bool.false_eq_true, if_false, bind_apply, yields_bind]
      refine yields_pass stands fun behind stands => yields_whole stands ?_
      refine (ih later stands (Nat.lt_of_succ_lt_succ enough)).imp ?_
      rintro ⟨read, cursor⟩ ⟨same, stands⟩
      exact yields_pure.mpr ⟨congrArg (c :: ·) same, stands⟩

/-- A piece at a mark of a flow collection is empty, and nothing follows it. -/
theorem readPlainPieces_stops {indent : Nat} {start : Mark} {steps : Nat} {gap : Gap} {plain : PlainText}
    {mark : Char} (flow : isFlowIndicator mark = true) (stands : Stands cursor (mark :: rest)) :
    Yields (readPlainPieces true indent start steps gap plain cursor) fun reached =>
      reached.1.text = plain.text ∧ Stands reached.2 (mark :: rest) := by
  have first : ahead cursor 0 = mark := stands.ahead 0
  have plainMark : Yaml.isBlank mark = false ∧ isBreak mark = false := by
    simp only [isFlowIndicator, Bool.or_eq_true, beq_iff_eq] at flow
    rcases flow with (((rfl | rfl) | rfl) | rfl) | rfl <;> decide
  cases steps with
  | zero => exact yields_pure.mpr ⟨rfl, stands⟩
  | succ steps =>
    rw [readPlainPieces]
    simp only [bind_apply, yields_bind, atDocumentIndicator_apply, yields_ok]
    refine yields_whole stands ?_
    split
    · exact yields_pure.mpr ⟨rfl, stands⟩
    simp only [bind_apply, yields_bind, peek_apply, yields_ok]
    split
    · exact yields_pure.mpr ⟨rfl, stands⟩
    simp only [bind_apply, yields_bind]
    refine yields_remaining stands ?_
    refine (readPlainPiece_scans (List.forall_mem_nil _) stands
      (by rintro c ⟨⟩; exact Or.inr flow) (Nat.succ_pos _)).imp ?_
    rintro ⟨read, cursor⟩ ⟨rfl, stands⟩
    have first : ahead cursor 0 = mark := stands.ahead 0
    simp only [here_apply, peek_apply, yields_ok, first, plainMark.1, plainMark.2, List.isEmpty_nil, if_true,
      Bool.or_self, Bool.not_false]
    exact yields_pure.mpr ⟨rfl, stands⟩

theorem flow_opens {mark : Char} (flow : isFlowIndicator mark = true) : Opens (mark :: rest) := by
  simp only [isFlowIndicator, Bool.or_eq_true, beq_iff_eq] at flow
  rcases flow with (((rfl | rfl) | rfl) | rfl) | rfl <;>
    exact opens_cons (by decide) (by decide) (by decide)

/-- A plain scalar ends at the blanks before a flow indicator, or at the indicator. -/
theorem blanks_end {mark : Char} (blank : Blank blanks) (flow : isFlowIndicator mark = true) :
    ∀ d, (blanks ++ mark :: rest).head? = some d → isBlankOrEnd d = true ∨ isFlowIndicator d = true := by
  cases blanks with
  | nil => rintro d ⟨⟩; exact Or.inr flow
  | cons d blanks =>
    rintro _ ⟨⟩
    rcases blank_cases (blank d List.mem_cons_self) with ⟨space, -⟩ | ⟨-, breaks, -⟩
    · exact Or.inl (by rw [isBlankOrEnd, space, Bool.true_or])
    · exact Or.inl (by rw [isBlankOrEnd, isBreakOrEnd, breaks, Bool.true_or, Bool.or_true])

theorem readPlain_scans {indent : Nat} {word : List Char} {mark : Char} (more : word ≠ [])
    (plain : ∀ c ∈ word, isPlainChar c = true) (comment : word.head? ≠ some '#')
    (hyphens : indicates cursor '-' = false) (dots : indicates cursor '.' = false)
    (blank : Blank blanks) (flow : isFlowIndicator mark = true)
    (stands : Stands cursor (word ++ (blanks ++ mark :: rest))) :
    Yields (readPlain true indent cursor) fun reached =>
      reached.1.1.kind = .scalar word .plain ∧ Stands reached.2 (mark :: rest) := by
  obtain ⟨c, word, rfl⟩ := List.exists_cons_of_ne_nil more
  have first : ahead cursor 0 = c := stands.ahead 0
  have apart : c ≠ '#' := fun same => comment (congrArg some same)
  unfold readPlain
  simp only [bind_apply, yields_bind, here_apply, yields_ok]
  refine yields_remaining stands ?_
  rw [readPlainPieces]
  simp only [bind_apply, yields_bind]
  refine yields_whole stands ?_
  simp only [bind_apply, yields_bind, atDocumentIndicator_apply, yields_ok, hyphens, dots, Bool.or_self,
    Bool.false_eq_true, if_false, peek_apply, first, if_neg apart]
  refine yields_remaining stands ?_
  refine (readPlainPiece_scans plain stands (blanks_end blank flow) ?_).imp ?_
  · rw [List.length_append]
    omega
  rintro ⟨read, cursor⟩ ⟨rfl, stands⟩
  have text : ([] : List Char) ++ Gap.text {} ++ c :: word = c :: word := rfl
  simp only [here_apply, yields_ok, List.isEmpty_cons, Bool.false_eq_true, if_false, text]
  split
  next stops =>
    refine yields_pure.mpr (yields_pure.mpr ⟨rfl, ?_⟩)
    cases blanks with
    | nil => exact stands
    | cons d blanks =>
      have next : ahead cursor 0 = d := stands.ahead 0
      rcases blank_cases (blank d List.mem_cons_self) with ⟨space, -⟩ | ⟨-, breaks, -⟩
      · rw [next, space] at stops; cases stops
      · rw [next, breaks, Bool.or_true] at stops; cases stops
  next =>
    simp only [bind_apply, yields_bind]
    refine yields_whole stands (yields_remaining stands ?_)
    refine (readGap_passes blank (flow_opens flow) stands ?_ ?_).imp ?_
    · rw [List.length_append]
      omega
    · intro gap cursor
      simp only [bind_apply, yields_bind, here_apply, peek_apply, yields_ok]
      split
      · exact yields_error
      · exact yields_pure.mpr rfl
    rintro ⟨gap, cursor⟩ stands
    simp only [here_apply, yields_ok, Bool.not_true, Bool.false_and, Bool.false_eq_true, if_false]
    refine (readPlainPieces_stops flow stands).imp ?_
    rintro ⟨plain, cursor⟩ ⟨same, stands⟩
    exact yields_pure.mpr ⟨congrArg (TokenKind.scalar · .plain) same, stands⟩

end MessagePress.Proofs.PlainScans
