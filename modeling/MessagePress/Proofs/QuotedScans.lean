import MessagePress.Proofs.JsonSyntax
import MessagePress.Proofs.ScannerSteps

/-! Strings of documents as the scanner reads them. It folds line breaks, and some characters
that may stand in a string are breaks to it; but a text without such breaks next to blanks is
read as it stands. -/

namespace MessagePress.Proofs.QuotedScans
open Yaml Yaml.Scan PartialRuns ScannerSteps
open JsonSyntax hiding isBlank

variable {cursor : Cursor} {text taken : List Char} {c : Char}

def isSeparator (c : Char) : Bool := c == '\u2028' || c == '\u2029'

/-- A text in which no line break is folded: it has no next-line character, and no separator of
lines or paragraphs next to a space. -/
def isUnfolded : List Char → Bool
  | [] => true
  | [c] => c != '\u0085'
  | c :: d :: rest =>
    c != '\u0085' && !(c == ' ' && isSeparator d) && !(isSeparator c && d == ' ') && isUnfolded (d :: rest)

theorem isUnfolded_tail (unfolded : isUnfolded (c :: text) = true) : isUnfolded text = true := by
  cases text with
  | nil => rfl
  | cons d rest =>
    rw [isUnfolded, Bool.and_eq_true] at unfolded
    exact unfolded.2

theorem isUnfolded_append (unfolded : isUnfolded (taken ++ text) = true) : isUnfolded text = true := by
  induction taken with
  | nil => exact unfolded
  | cons c taken ih => exact ih (isUnfolded_tail unfolded)

theorem isUnfolded_apart {d : Char} (unfolded : isUnfolded (c :: d :: text) = true) :
    ¬(c = ' ' ∧ isSeparator d = true ∨ isSeparator c = true ∧ d = ' ') := by
  simp only [isUnfolded, Bool.and_eq_true, Bool.not_eq_true', Bool.and_eq_false_iff] at unfolded
  obtain ⟨⟨⟨-, first⟩, second⟩, -⟩ := unfolded
  rintro (⟨rfl, separates⟩ | ⟨separates, rfl⟩)
  · simp [separates] at first
  · simp [separates] at second

theorem isUnfolded_head (unfolded : isUnfolded (c :: text) = true) : c ≠ '\u0085' := by
  cases text with
  | nil => simpa [isUnfolded] using unfolded
  | cons d rest =>
    simp only [isUnfolded, Bool.and_eq_true, bne_iff_ne] at unfolded
    exact unfolded.1.1.1

theorem written_length (pieces : List Piece) : pieces.length ≤ (written pieces).length := by
  induction pieces with
  | nil => exact Nat.le_refl 0
  | cons piece pieces ih =>
    have some : 0 < piece.text.length := by cases piece <;> exact Nat.succ_pos _
    rw [written, List.flatMap_cons, List.length_append, List.length_cons]
    exact Nat.add_comm 1 _ ▸ Nat.add_le_add some ih

theorem letter_cases {letter : Char} (formed : (Piece.letter letter).Formed) :
    (Piece.letter letter).char? = simpleEscape? letter ∧ (simpleEscape? letter).isSome = true ∧
      isBreak letter = false := by
  obtain ⟨ascii, simple⟩ := formed
  have each : ∀ n < 0x80, (Json.simpleEscape? (Json.byteOf (Char.ofNat n))).isSome = true →
      Json.simpleEscape? (Json.byteOf (Char.ofNat n)) = simpleEscape? (Char.ofNat n) ∧
        (simpleEscape? (Char.ofNat n)).isSome = true ∧ isBreak (Char.ofNat n) = false := by decide +kernel
  have all := each letter.toNat ascii
  rw [Char.ofNat_toNat] at all
  exact all simple

theorem readEscape_letter {start : Mark} {letter : Char} (formed : (Piece.letter letter).Formed)
    (stands : Stands cursor ((Piece.letter letter).text ++ text)) :
    Yields (readEscape start cursor) fun reached =>
      (Piece.letter letter).char? = some reached.1 ∧ Stands reached.2 text := by
  obtain ⟨same, simple, -⟩ := letter_cases formed
  have second : ahead cursor 1 = letter := stands.ahead 1
  unfold readEscape
  rw [bind_apply, yields_bind, peekAt_apply, second, yields_ok]
  dsimp only
  cases found : simpleEscape? letter with
  | none => rw [found] at simple; cases simple
  | some c =>
    dsimp only
    rw [bind_apply, yields_bind]
    exact yields_skip ['\\', letter] stands fun behind stands =>
      yields_pure.mpr ⟨same.trans found, stands⟩

private theorem hexAhead_digit {start : Mark} {digits place value : Nat} {digit : Char} {behind : List Char}
    {condition : Nat × Cursor → Prop} (stands : Stands cursor text) (ahead : text.drop place = digit :: behind)
    (later : ∀ found, Text.digitValue? 16 digit = some found →
      Yields (hexAhead start digits (place + 1) (value * 16 + found) cursor) condition) :
    Yields (hexAhead start (digits + 1) place value cursor) condition := by
  rw [hexAhead, bind_apply, yields_bind, peekAt_apply, stands.ahead, yields_ok, ahead]
  dsimp only [List.headD_cons]
  cases found : Text.digitValue? 16 digit with
  | none => exact yields_error
  | some value => exact later value found

theorem hexAhead_code {start : Mark} {a b c d : Char} (stands : Stands cursor (a :: b :: c :: d :: text)) :
    Yields (hexAhead start 4 0 0 cursor) fun reached =>
      hexCode? a b c d = some reached.1 ∧ reached.2 = cursor := by
  refine hexAhead_digit stands rfl fun first one => ?_
  refine hexAhead_digit stands rfl fun second two => ?_
  refine hexAhead_digit stands rfl fun third three => ?_
  refine hexAhead_digit stands rfl fun fourth four => ?_
  rw [hexAhead]
  refine yields_pure.mpr ⟨?_, rfl⟩
  simp only [hexCode?, one, two, three, four, Option.bind_eq_bind, Option.bind_some]
  simp only [Nat.zero_mul, Nat.zero_add]
  rfl

theorem readEscape_code {start : Mark} {a b c d : Char}
    (stands : Stands cursor ((Piece.code a b c d).text ++ text)) :
    Yields (readEscape start cursor) fun reached =>
      (Piece.code a b c d).char? = some reached.1 ∧ Stands reached.2 text := by
  have second : ahead cursor 1 = 'u' := stands.ahead 1
  unfold readEscape
  rw [bind_apply, yields_bind, peekAt_apply, second, yields_ok]
  change Yields ((do
    skip 2
    need 4
    let code ← hexAhead start 4 0 0
    if (0xd800 ≤ code ∧ code ≤ 0xdfff) ∨ 0x10ffff < code then
      malformed .invalidEscapeCode (some (.quotedEscape, start))
    else
      skip 4
      return Char.ofNat code : Scan Char) cursor) _
  simp only [bind_apply, yields_bind]
  refine yields_skip ['\\', 'u'] stands fun behind stands => yields_whole stands ?_
  refine (hexAhead_code stands).imp ?_
  rintro ⟨code, cursor⟩ ⟨value, rfl⟩
  dsimp only at value ⊢
  split
  · exact yields_error
  next single =>
    simp only [bind_apply, yields_bind]
    refine yields_skip [a, b, c, d] stands fun behind stands => yields_pure.mpr ⟨?_, stands⟩
    have alone : isSurrogate code = false := by
      simp only [isSurrogate, Bool.and_eq_false_iff, decide_eq_false_iff_not]
      omega
    rw [Piece.char?, value, Option.filter, alone]
    rfl

/-- A character that ends a piece of a scalar. -/
def Pauses (pieces : List Piece) : Prop := ∃ c rest, pieces = .plain c :: rest ∧ isBlankOrEnd c = true

private theorem plain_apart {c : Char} (plain : isPlain c = true) :
    c ≠ '"' ∧ c ≠ '\\' ∧ c ≠ '\x00' ∧ c ≠ '\t' ∧ c ≠ '\n' ∧ c ≠ '\r' := by
  simp only [isPlain, Bool.and_eq_true, decide_eq_true_eq, bne_iff_ne] at plain
  obtain ⟨⟨least, quote⟩, escape⟩ := plain
  refine ⟨quote, escape, ?_, ?_, ?_, ?_⟩ <;> (rintro rfl; exact absurd least (by decide))

/-- What was read of a string: the parts in front of the next blank or break. -/
def ReadPiece (pieces : List Piece) (text : List Char) (reached : (List Char × Bool) × Cursor) : Prop :=
  ∃ front back, pieces = front ++ back ∧ reached.1 = (content front, false) ∧ Single front ∧
    (back = [] ∨ Pauses back) ∧ Stands reached.2 (written back ++ '"' :: text)

private theorem ReadPiece.cons {piece : Piece} {pieces : List Piece} {reached : (List Char × Bool) × Cursor}
    (char : piece.char? = some c) (later : ReadPiece pieces text reached) :
    ReadPiece (piece :: pieces) text ((c :: reached.1.1, reached.1.2), reached.2) := by
  obtain ⟨front, back, rfl, same, single, pauses, stands⟩ := later
  refine ⟨piece :: front, back, rfl, ?_, single_cons.mpr ⟨by rw [char]; rfl, single⟩, pauses, stands⟩
  rw [same, content, content, List.filterMap_cons_some char]

theorem readQuotedPiece_scans {start : Mark} {steps : Nat} {pieces : List Piece}
    (formed : ∀ piece ∈ pieces, piece.Formed) (stands : Stands cursor (written pieces ++ '"' :: text))
    (enough : pieces.length < steps) :
    Yields (readQuotedPiece false start steps cursor) (ReadPiece pieces text) := by
  induction steps generalizing cursor pieces with
  | zero => exact absurd enough (Nat.not_lt_zero _)
  | succ steps ih =>
    rw [readQuotedPiece]
    simp only [bind_apply, yields_bind, peek_apply, yields_ok, Bool.false_and, Bool.false_eq_true, if_false,
      Bool.not_false, Bool.true_and]
    cases pieces with
    | nil =>
      have first : ahead cursor 0 = '"' := stands.ahead 0
      rw [first, if_neg (by decide), if_pos rfl]
      exact yields_pure.mpr ⟨[], [], rfl, rfl, List.forall_mem_nil _, Or.inl rfl, stands⟩
    | cons piece pieces =>
      obtain ⟨here, later⟩ := List.forall_mem_cons.mp formed
      have fewer : pieces.length < steps := Nat.lt_of_succ_lt_succ enough
      cases piece with
      | plain c =>
        have first : ahead cursor 0 = c := stands.ahead 0
        obtain ⟨quote, escape, -⟩ := plain_apart here
        rw [first]
        split
        next pauses =>
          exact yields_pure.mpr ⟨[], _, rfl, rfl, List.forall_mem_nil _, Or.inr ⟨c, pieces, rfl, pauses⟩, stands⟩
        next goesOn =>
          simp only [bind_apply, yields_bind, peekAt_apply, yields_ok,
            beq_eq_false_iff_ne.mpr escape, Bool.false_and, Bool.false_eq_true, if_false]
          refine yields_pass stands fun behind stands => yields_whole stands ?_
          exact (ih later stands fewer).imp fun reached scans => yields_pure.mpr (.cons rfl scans)
      | letter letter =>
        have first : ahead cursor 0 = '\\' := stands.ahead 0
        have second : ahead cursor 1 = letter := stands.ahead 1
        have apart := (letter_cases here).2.2
        rw [first, if_neg (by decide), if_neg (by decide)]
        simp only [bind_apply, yields_bind, peekAt_apply, yields_ok, second, apart, Bool.and_false, beq_self_eq_true,
          Bool.false_eq_true, if_false, if_true]
        have whole : Stands cursor ((Piece.letter letter).text ++ (written pieces ++ '"' :: text)) := by
          simpa [written] using stands
        refine (readEscape_letter here whole).imp ?_
        rintro ⟨c, cursor⟩ ⟨char, stands⟩
        refine yields_whole stands ?_
        exact (ih later stands fewer).imp fun reached scans => yields_pure.mpr (.cons char scans)
      | code a b c d =>
        have first : ahead cursor 0 = '\\' := stands.ahead 0
        have second : ahead cursor 1 = 'u' := stands.ahead 1
        rw [first, if_neg (by decide), if_neg (by decide)]
        simp only [bind_apply, yields_bind, peekAt_apply, yields_ok, second, beq_self_eq_true,
          show isBreak 'u' = false by decide, Bool.and_false, Bool.false_eq_true, if_false, if_true]
        have whole : Stands cursor ((Piece.code a b c d).text ++ (written pieces ++ '"' :: text)) := by
          simpa [written] using stands
        refine (readEscape_code whole).imp ?_
        rintro ⟨c, cursor⟩ ⟨char, stands⟩
        refine yields_whole stands ?_
        exact (ih later stands fewer).imp fun reached scans => yields_pure.mpr (.cons char scans)

private theorem pause_cases {c : Char} (formed : (Piece.plain c).Formed) (pauses : isBlankOrEnd c = true)
    (unfolded : c ≠ '\u0085') : c = ' ' ∨ isSeparator c = true := by
  obtain ⟨-, -, null, tab, newline, back⟩ := plain_apart formed
  simp only [isBlankOrEnd, isBlank, isBreakOrEnd, isBreak, isEnd, Bool.or_eq_true, beq_iff_eq, null, tab,
    newline, back, unfolded, or_false, false_or] at pauses
  simpa [isSeparator] using pauses

private theorem readGap_stops {check : Gap → Scan Unit} {steps : Nat} {gap : Gap} {pieces : List Piece}
    {condition : Gap × Cursor → Prop} (stands : Stands cursor (written pieces ++ '"' :: text))
    (goesOn : ¬Pauses pieces) (later : condition (gap, cursor)) :
    Yields (readGap check steps gap cursor) condition := by
  have apart : isBlankOrEnd (ahead cursor 0) = false := by
    rw [stands.ahead]
    cases pieces with
    | nil => rfl
    | cons piece pieces =>
      cases piece with
      | plain c => exact Bool.eq_false_iff.mpr fun pauses => goesOn ⟨c, pieces, rfl, pauses⟩
      | letter letter => rfl
      | code a b c d => rfl
  rw [isBlankOrEnd, Bool.or_eq_false_iff, isBreakOrEnd, Bool.or_eq_false_iff] at apart
  cases steps with
  | zero => exact yields_pure.mpr later
  | succ steps =>
    rw [readGap, bind_apply, yields_bind, peek_apply, yields_ok]
    dsimp only
    rw [apart.1, if_neg Bool.false_ne_true, apart.2.1, if_neg Bool.false_ne_true]
    exact yields_pure.mpr later

/-- What was read of a gap: the blanks and breaks that are not escaped. -/
def ReadGap (before : List Char) (pieces : List Piece) (text : List Char) (reached : Gap × Cursor) : Prop :=
  ∃ run back, pieces = run.map .plain ++ back ∧ reached.1.text = before ++ run ∧
    Stands reached.2 (written back ++ '"' :: text)

private theorem ReadGap.cons {before : List Char} {pieces : List Piece} {reached : Gap × Cursor}
    (later : ReadGap (before ++ [c]) pieces text reached) : ReadGap before (.plain c :: pieces) text reached := by
  obtain ⟨run, back, rfl, same, stands⟩ := later
  exact ⟨c :: run, back, rfl, by rw [same, List.append_assoc]; rfl, stands⟩

private theorem readGap_spaces {steps : Nat} {gap : Gap} {pieces : List Piece}
    (formed : ∀ piece ∈ pieces, piece.Formed) (unfolded : isUnfolded (' ' :: written pieces) = true)
    (stands : Stands cursor (written pieces ++ '"' :: text)) (enough : pieces.length < steps)
    (blank : gap.broken = false) :
    Yields (readGap (fun _ => pure ()) steps gap cursor) (ReadGap gap.blanks pieces text) := by
  induction steps generalizing cursor pieces gap with
  | zero => exact absurd enough (Nat.not_lt_zero _)
  | succ steps ih =>
    by_cases pauses : Pauses pieces
    · obtain ⟨c, pieces, rfl, pauses⟩ := pauses
      obtain ⟨here, later⟩ := List.forall_mem_cons.mp formed
      have first : ahead cursor 0 = c := stands.ahead 0
      have behind : isUnfolded (c :: written pieces) = true := isUnfolded_tail unfolded
      have space : c = ' ' := by
        refine (pause_cases here pauses (isUnfolded_head behind)).resolve_right fun separates => ?_
        exact isUnfolded_apart unfolded (Or.inl ⟨rfl, separates⟩)
      subst space
      rw [readGap]
      simp only [bind_apply, yields_bind, peek_apply, yields_ok, first, show isBlank ' ' = true by decide,
        if_true, blank, Bool.false_eq_true, if_false]
      refine yields_ok.mpr (yields_pass stands fun passed stands => yields_whole stands ?_)
      refine (ih later behind stands (Nat.lt_of_succ_lt_succ enough) ?_).imp fun reached => ReadGap.cons
      exact rfl
    · refine readGap_stops stands pauses ⟨[], pieces, rfl, ?_, stands⟩
      rw [Gap.text, blank, if_neg Bool.false_ne_true, List.append_nil]

private theorem readBreak_separator (separates : isSeparator c = true) (stands : Stands cursor (c :: text)) :
    Yields (readBreak cursor) fun reached => reached.1 = [c] ∧ Stands reached.2 text := by
  have rest := stands.rest
  have counted := stands.counted
  rw [List.length_cons] at counted
  simp only [isSeparator, Bool.or_eq_true, beq_iff_eq] at separates
  unfold readBreak
  rw [rest]
  rcases separates with rfl | rfl
  all_goals exact yields_ok.mpr ⟨rfl, rfl, stands.whole, by dsimp only; omega⟩

private theorem readGap_separators {steps : Nat} {gap : Gap} {pieces : List Piece}
    (formed : ∀ piece ∈ pieces, piece.Formed) (separates : isSeparator c = true)
    (unfolded : isUnfolded (c :: written pieces) = true)
    (stands : Stands cursor (written pieces ++ '"' :: text)) (enough : pieces.length < steps)
    (broken : gap.broken = true) (first : gap.first.head? ≠ some '\n') :
    Yields (readGap (fun _ => pure ()) steps gap cursor) (ReadGap (gap.first ++ gap.more) pieces text) := by
  induction steps generalizing cursor pieces gap c with
  | zero => exact absurd enough (Nat.not_lt_zero _)
  | succ steps ih =>
    by_cases pauses : Pauses pieces
    · obtain ⟨d, pieces, rfl, pauses⟩ := pauses
      obtain ⟨here, later⟩ := List.forall_mem_cons.mp formed
      have found : ahead cursor 0 = d := stands.ahead 0
      have behind : isUnfolded (d :: written pieces) = true := isUnfolded_tail unfolded
      have next : isSeparator d = true := by
        refine (pause_cases here pauses (isUnfolded_head behind)).resolve_left fun space => ?_
        exact isUnfolded_apart unfolded (Or.inr ⟨separates, space⟩)
      have apart : isBlank d = false ∧ isBreak d = true := by
        simp only [isSeparator, Bool.or_eq_true, beq_iff_eq] at next
        rcases next with rfl | rfl <;> decide
      rw [readGap]
      simp only [bind_apply, yields_bind, peek_apply, yields_ok, found, apart.1, apart.2, if_true,
        Bool.false_eq_true, if_false]
      refine yields_whole stands ((readBreak_separator next stands).imp ?_)
      rintro ⟨read, cursor⟩ ⟨same, stands⟩
      refine yields_whole stands ?_
      dsimp only at same ⊢
      rw [same, Gap.addBreak, if_pos broken]
      have enough := Nat.lt_of_succ_lt_succ enough
      have scans := @ih _ _ { gap with more := gap.more ++ [d] } _ later next behind stands enough broken first
      refine scans.imp fun reached scans => ReadGap.cons ?_
      rwa [List.append_assoc]
    · refine readGap_stops stands pauses ⟨[], pieces, rfl, ?_, stands⟩
      rw [Gap.text, if_pos broken, if_neg first, List.append_nil]

private theorem readGap_scans {steps : Nat} {pieces : List Piece} (formed : ∀ piece ∈ pieces, piece.Formed)
    (unfolded : isUnfolded (written pieces) = true) (stands : Stands cursor (written pieces ++ '"' :: text))
    (enough : pieces.length < steps) (pauses : Pauses pieces) :
    Yields (readGap (fun _ => pure ()) steps {} cursor) fun reached => ∃ run back, run ≠ [] ∧
      pieces = run.map .plain ++ back ∧ reached.1.text = run ∧
        Stands reached.2 (written back ++ '"' :: text) := by
  obtain ⟨c, pieces, rfl, pauses⟩ := pauses
  obtain ⟨here, later⟩ := List.forall_mem_cons.mp formed
  have first : ahead cursor 0 = c := stands.ahead 0
  have some : ∀ reached, ReadGap [c] pieces text reached → ∃ run back, run ≠ [] ∧
      .plain c :: pieces = run.map .plain ++ back ∧ reached.1.text = run ∧
        Stands reached.2 (written back ++ '"' :: text) := by
    rintro reached ⟨run, back, rfl, same, stands⟩
    exact ⟨c :: run, back, List.cons_ne_nil _ _, rfl, same, stands⟩
  obtain ⟨steps, rfl⟩ := Nat.exists_eq_add_one_of_ne_zero (Nat.ne_zero_of_lt enough)
  rw [readGap]
  simp only [bind_apply, yields_bind, peek_apply, yields_ok, first]
  rcases pause_cases here pauses (isUnfolded_head unfolded) with rfl | separates
  · simp only [show isBlank ' ' = true by decide, if_true, bind_apply, yields_bind]
    refine yields_ok.mpr (yields_pass stands fun behind stands => yields_whole stands ?_)
    exact (readGap_spaces later unfolded stands (Nat.lt_of_succ_lt_succ enough) rfl).imp some
  · have apart : isBlank c = false ∧ isBreak c = true ∧ c ≠ '\n' := by
      simp only [isSeparator, Bool.or_eq_true, beq_iff_eq] at separates
      rcases separates with rfl | rfl <;> decide
    simp only [apart.1, apart.2.1, if_true, Bool.false_eq_true, if_false, bind_apply, yields_bind]
    refine yields_whole stands ((readBreak_separator separates stands).imp ?_)
    rintro ⟨read, cursor⟩ ⟨same, stands⟩
    refine yields_whole stands ?_
    dsimp only at same ⊢
    rw [same]
    refine (readGap_separators later separates unfolded stands (Nat.lt_of_succ_lt_succ enough) rfl ?_).imp some
    exact fun same => apart.2.2 (Option.some.inj same)

theorem readQuotedPieces_scans {start : Mark} {steps : Nat} {pieces : List Piece}
    (formed : ∀ piece ∈ pieces, piece.Formed) (unfolded : isUnfolded (written pieces) = true)
    (stands : Stands cursor (written pieces ++ '"' :: text)) (enough : pieces.length < steps) :
    Yields (readQuotedPieces false start steps cursor) fun reached =>
      reached.1 = content pieces ∧ Single pieces ∧ Stands reached.2 ('"' :: text) := by
  induction steps generalizing cursor pieces with
  | zero => exact absurd enough (Nat.not_lt_zero _)
  | succ steps ih =>
    have most := written_length pieces
    rw [readQuotedPieces]
    simp only [bind_apply, yields_bind]
    refine yields_whole stands ?_
    simp only [atDocumentIndicator_apply, yields_ok]
    split
    · exact yields_error
    simp only [bind_apply, yields_bind, peek_apply, yields_ok]
    split
    · exact yields_error
    simp only [bind_apply, yields_bind, Bool.false_eq_true, if_false]
    refine yields_whole stands (yields_remaining stands ?_)
    refine (readQuotedPiece_scans formed stands (Nat.lt_succ_of_le ?_)).imp ?_
    · rw [List.length_append]
      omega
    rintro ⟨⟨piece, escaped⟩, cursor⟩ ⟨front, back, rfl, same, single, pauses, stands⟩
    obtain ⟨rfl, rfl⟩ := Prod.mk.inj same
    refine yields_whole stands ?_
    simp only [peek_apply, yields_ok]
    have later := (List.forall_mem_append.mp formed).2
    rcases pauses with rfl | pauses
    · have closes : ahead cursor 0 = '"' := stands.ahead 0
      rw [if_pos closes]
      exact yields_pure.mpr ⟨by rw [List.append_nil], by rwa [List.append_nil], stands⟩
    have goesOn : ahead cursor 0 ≠ '"' := by
      obtain ⟨c, back, rfl, -⟩ := pauses
      rw [stands.ahead]
      exact (plain_apart (later _ List.mem_cons_self)).1
    rw [if_neg goesOn]
    simp only [bind_apply, yields_bind]
    rw [written_append] at unfolded
    have unfolded := isUnfolded_append unfolded
    have fewer := written_length back
    refine yields_remaining stands ((readGap_scans later unfolded stands (Nat.lt_succ_of_le ?_) pauses).imp ?_)
    · rw [List.length_append]
      omega
    rintro ⟨gap, cursor⟩ ⟨run, back, some, rfl, same, stands⟩
    have last := (List.forall_mem_append.mp later).2
    have shorter : back.length < steps := by
      have := List.length_pos_iff.mpr some
      simp only [List.length_append, List.length_map] at enough
      omega
    rw [written_append] at unfolded
    refine (ih last (isUnfolded_append unfolded) stands shorter).imp ?_
    rintro ⟨rest, cursor⟩ ⟨same', single', stands⟩
    dsimp only at same same' stands ⊢
    refine yields_pure.mpr ⟨?_, ?_, stands⟩
    · rw [same, same', content_append, content_append, content_plain, List.append_assoc]
    · refine single_append.mpr ⟨single, single_append.mpr ⟨?_, single'⟩⟩
      intro piece member
      obtain ⟨c, -, rfl⟩ := List.mem_map.mp member
      rfl

/-- A string is read as it stands, unless one of its escapes stands for half a character. -/
theorem readQuoted_scans {pieces : List Piece} (formed : ∀ piece ∈ pieces, piece.Formed)
    (unfolded : isUnfolded (written pieces) = true)
    (stands : Stands cursor ((Lexeme.string pieces).text ++ text)) :
    Yields (readQuoted false cursor) fun reached =>
      reached.1.kind = .scalar (content pieces) .doubleQuoted ∧ Single pieces ∧ Stands reached.2 text := by
  have most := written_length pieces
  have quoted : Stands cursor ('"' :: (written pieces ++ '"' :: text)) := by
    simpa [Lexeme.text] using stands
  unfold readQuoted
  simp only [bind_apply, yields_bind, here_apply, yields_ok]
  refine yields_pass quoted fun behind stands => yields_remaining stands ?_
  refine (readQuotedPieces_scans formed unfolded stands (Nat.lt_succ_of_le ?_)).imp ?_
  · rw [List.length_append]
    omega
  rintro ⟨read, cursor⟩ ⟨rfl, single, stands⟩
  exact yields_pass stands fun behind stands => yields_pure.mpr ⟨rfl, single, stands⟩

end MessagePress.Proofs.QuotedScans
