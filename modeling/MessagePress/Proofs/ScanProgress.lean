import MessagePress.Proofs.ScannerSteps

/-! How far a source is read. Reading moves forward only and does not mend a broken source, and
every token takes a character at least. So the tokens of a source end only where the source
does, and those of a broken one never do: they end in a fault. -/

namespace MessagePress.Proofs.ScanProgress
open Yaml Yaml.Scan PartialRuns ScannerSteps

-- The instances below follow whole functions of the scanner, line by line.
set_option synthInstance.maxSize 5000

/-- A step that leaves an end of what was left before. -/
class Forward (scan : Scan α) : Prop where
  keeps : ∀ cursor, Yields (scan cursor) fun reached =>
    reached.2.broken = cursor.broken ∧ reached.2.rest <:+ cursor.rest

/-- A step that takes a character if there is one. -/
class Advances (scan : Scan α) : Prop extends Forward scan where
  takes : ∀ cursor, cursor.rest ≠ [] → Yields (scan cursor) fun reached =>
    reached.2.rest.length < cursor.rest.length

instance (value : α) : Forward (pure value) := ⟨fun _ => by simp [pure_apply]⟩

instance {first : Scan α} {next : α → Scan β} [Forward first] [∀ value, Forward (next value)] :
    Forward (first >>= next) := by
  refine ⟨fun cursor => ?_⟩
  rw [bind_apply, yields_bind]
  refine (Forward.keeps cursor).imp fun reached ⟨broken, behind⟩ => ?_
  exact (Forward.keeps reached.2).imp fun last ⟨broken', behind'⟩ =>
    ⟨broken'.trans broken, behind'.trans behind⟩

theorem Forward.before {first : Scan α} {next : α → Scan β} [Forward first]
    (later : ∀ value, Forward (next value)) : Forward (first >>= next) := inferInstance

instance {p : Prop} {_ : Decidable p} {first second : Scan α} [Forward first] [Forward second] :
    Forward (if p then first else second) := by
  split <;> assumption

instance (fault : SyntaxFault) : Forward (throw fault : Scan α) := ⟨fun _ _ same => nomatch same⟩

instance : Forward (get : Scan Cursor) := ⟨fun _ => yields_ok.mpr ⟨rfl, List.suffix_rfl⟩⟩

instance (count : Nat) : Forward (need count) := by
  refine ⟨fun cursor => ?_⟩
  unfold need
  split
  · split
    · exact yields_error
    · exact yields_ok.mpr ⟨rfl, List.suffix_rfl⟩
  · exact yields_ok.mpr ⟨rfl, List.suffix_rfl⟩

instance (place : Nat) : Forward (peekAt place) := ⟨fun _ => yields_ok.mpr ⟨rfl, List.suffix_rfl⟩⟩

instance : Forward peek := inferInstanceAs (Forward (peekAt 0))

instance : Forward here := ⟨fun _ => yields_ok.mpr ⟨rfl, List.suffix_rfl⟩⟩

instance : Forward remaining := ⟨fun _ => yields_ok.mpr ⟨rfl, List.suffix_rfl⟩⟩

instance (count : Nat) : Forward (skip count) :=
  ⟨fun _ => yields_ok.mpr ⟨rfl, List.drop_suffix ..⟩⟩

instance (problem : Problem) (context : Option (Context × Mark)) :
    Forward (malformed problem context : Scan α) := by
  unfold malformed
  infer_instance

instance : Forward readBreak := by
  refine ⟨fun cursor => ?_⟩
  unfold readBreak
  dsimp only
  split
  · exact yields_ok.mpr ⟨rfl, List.drop_suffix ..⟩
  · split
    · exact yields_ok.mpr ⟨rfl, List.drop_suffix ..⟩
    · split
      · exact yields_ok.mpr ⟨rfl, List.drop_suffix ..⟩
      · exact yields_ok.mpr ⟨rfl, List.suffix_rfl⟩
  · exact yields_ok.mpr ⟨rfl, List.suffix_rfl⟩

instance : Forward skipBreak := by unfold skipBreak; infer_instance

instance (p : Char → Bool) : Forward (takeWhile p) := by unfold takeWhile; infer_instance

instance (p : Char → Bool) : Forward (skipWhile p) := by unfold skipWhile; infer_instance

instance : Forward skipComment := by unfold skipComment; infer_instance

instance (c : Char) : Forward (atDocumentIndicator c) := by unfold atDocumentIndicator; infer_instance

instance (checkTab : Gap → Scan Unit) [∀ gap, Forward (checkTab gap)] (steps : Nat) (gap : Gap) :
    Forward (readGap checkTab steps gap) := by
  induction steps generalizing gap with
  | zero => unfold readGap; infer_instance
  | succ steps ih => unfold readGap; infer_instance

instance (start : Mark) (digits place value : Nat) : Forward (hexAhead start digits place value) := by
  induction digits generalizing place value with
  | zero => unfold hexAhead; infer_instance
  | succ digits ih =>
    unfold hexAhead
    exact .before fun c => by split <;> infer_instance

instance (start : Mark) : Forward (readEscape start) := by
  unfold readEscape
  exact .before fun letter => by split <;> infer_instance

instance (single : Bool) (start : Mark) (steps : Nat) : Forward (readQuotedPiece single start steps) := by
  induction steps with
  | zero => unfold readQuotedPiece; infer_instance
  | succ steps ih =>
    unfold readQuotedPiece
    infer_instance

instance (single : Bool) (start : Mark) (steps : Nat) : Forward (readQuotedPieces single start steps) := by
  induction steps with
  | zero => unfold readQuotedPieces; infer_instance
  | succ steps ih =>
    unfold readQuotedPieces
    infer_instance

instance (flow : Bool) (start : Mark) (steps : Nat) : Forward (readPlainPiece flow start steps) := by
  induction steps with
  | zero => unfold readPlainPiece; infer_instance
  | succ steps ih => unfold readPlainPiece; infer_instance

instance (flow : Bool) (indent : Nat) (start : Mark) (steps : Nat) (gap : Gap) (plain : PlainText) :
    Forward (readPlainPieces flow indent start steps gap plain) := by
  induction steps generalizing gap plain with
  | zero => unfold readPlainPieces; infer_instance
  | succ steps ih =>
    unfold readPlainPieces
    dsimp only
    infer_instance

instance (start : Mark) : Forward (readIndentDigit start) := by unfold readIndentDigit; infer_instance

instance (start : Mark) : Forward (readBlockHeader start) := by
  unfold readBlockHeader
  repeat' first | infer_instance | split | refine .before fun _ => ?_

instance (start : Mark) (indent steps deepest : Nat) (breaks : List Char) (stop : Mark) :
    Forward (readBlockBreaks start indent steps deepest breaks stop) := by
  induction steps generalizing deepest breaks stop with
  | zero => unfold readBlockBreaks; infer_instance
  | succ steps ih =>
    unfold readBlockBreaks
    dsimp only
    infer_instance

instance (literal : Bool) (start : Mark) (indent steps : Nat) (text lineBreak breaks : List Char)
    (blank : Bool) (stop : Mark) :
    Forward (readBlockLines literal start indent steps text lineBreak breaks blank stop) := by
  induction steps generalizing text lineBreak breaks blank stop with
  | zero => unfold readBlockLines; infer_instance
  | succ steps ih =>
    unfold readBlockLines
    infer_instance

instance (directive : Bool) (start : Mark) : Forward (readTagHandle directive start) := by
  unfold readTagHandle
  infer_instance

instance (directive : Bool) (start : Mark) : Forward (readOctet directive start) := by
  unfold readOctet
  repeat' first | infer_instance | split | refine .before fun _ => ?_

instance (directive : Bool) (start : Mark) (count : Nat) :
    Forward (readTrailingOctets directive start count) := by
  induction count with
  | zero => unfold readTrailingOctets; infer_instance
  | succ count ih => unfold readTrailingOctets; infer_instance

instance (directive : Bool) (start : Mark) : Forward (readUriEscapes directive start) := by
  unfold readUriEscapes
  exact .before fun first => by split <;> infer_instance

instance (verbatim directive : Bool) (start : Mark) (steps : Nat) :
    Forward (readUriChars verbatim directive start steps) := by
  induction steps with
  | zero => unfold readUriChars; infer_instance
  | succ steps ih => unfold readUriChars; infer_instance

instance (verbatim directive : Bool) (head : List Char) (start : Mark) :
    Forward (readUri verbatim directive head start) := by
  unfold readUri
  infer_instance

instance (start : Mark) : Forward (readVersionNumber start) := by
  unfold readVersionNumber
  dsimp only
  infer_instance

instance (start : Mark) : Forward (readVersionDirective start) := by
  unfold readVersionDirective
  infer_instance

instance (start : Mark) : Forward (readTagDirective start) := by
  unfold readTagDirective
  infer_instance

instance (start : Mark) : Forward (readDirectiveName start) := by
  unfold readDirectiveName
  infer_instance

instance : Advances (skip (count + 1)) := by
  refine ⟨fun cursor some => yields_ok.mpr ?_⟩
  have length := List.length_pos_iff.mpr some
  dsimp only
  rw [List.length_drop]
  omega

instance (priority := low) {first : Scan α} {next : α → Scan β} [Forward first]
    [∀ value, Advances (next value)] : Advances (first >>= next) := by
  refine ⟨fun cursor some => ?_⟩
  rw [bind_apply, yields_bind]
  refine (Forward.keeps cursor).imp fun reached ⟨_, behind⟩ => ?_
  by_cases none : reached.2.rest = []
  · refine (Forward.keeps reached.2).imp fun last ⟨_, behind'⟩ => ?_
    rw [none] at behind'
    rw [List.suffix_nil.mp behind']
    exact List.length_pos_iff.mpr some
  · exact (Advances.takes reached.2 none).imp fun last less => Nat.lt_of_lt_of_le less behind.length_le

instance {first : Scan α} {next : α → Scan β} [Advances first] [∀ value, Forward (next value)] :
    Advances (first >>= next) := by
  refine ⟨fun cursor some => ?_⟩
  rw [bind_apply, yields_bind]
  refine (Advances.takes cursor some).imp fun reached less => ?_
  exact (Forward.keeps reached.2).imp fun last ⟨_, behind⟩ => Nat.lt_of_le_of_lt behind.length_le less

instance {p : Prop} {_ : Decidable p} {first second : Scan α} [Advances first] [Advances second] :
    Advances (if p then first else second) := by
  split <;> assumption

instance (problem : Problem) (context : Option (Context × Mark)) :
    Advances (malformed problem context : Scan α) := by
  refine ⟨fun cursor _ => ?_⟩
  unfold malformed
  rw [bind_apply, yields_bind]
  exact fun _ _ _ same => nomatch same

instance (single : Bool) : Advances (readQuoted single) := by
  unfold readQuoted
  infer_instance

instance (context : Context) (kind : List Char → TokenKind) : Advances (readName context kind) := by
  unfold readName
  infer_instance

instance (directive : Bool) (start : Mark) : Advances (readTagHandle directive start) := by
  unfold readTagHandle
  infer_instance

instance (flow : Bool) : Advances (readTag flow) := by
  unfold readTag
  dsimp only
  infer_instance

instance : Advances readDirective := by
  unfold readDirective
  dsimp only
  infer_instance

instance (literal : Bool) (parent : Int) : Advances (readBlock literal parent) := by
  unfold readBlock
  dsimp only
  infer_instance

/-- A step of the layout that moves a position forward. -/
class ForwardLex (lex : Yaml.Lex α) : Prop where
  moves : ∀ layout, Forward (lex layout)

/-- A step of the layout that takes a character if there is one. -/
class AdvancesLex (lex : Yaml.Lex α) : Prop where
  moves : ∀ layout, Advances (lex layout)

instance (value : α) : ForwardLex (pure value : Yaml.Lex α) := ⟨fun _ => inferInstanceAs (Forward (pure _))⟩

instance {first : Yaml.Lex α} {next : α → Yaml.Lex β} [front : ForwardLex first]
    [behind : ∀ value, ForwardLex (next value)] : ForwardLex (first >>= next) := by
  refine ⟨fun layout => ?_⟩
  have := front.moves
  have := fun value => (behind value).moves
  rw [bind_apply]
  infer_instance

theorem ForwardLex.before {first : Yaml.Lex α} {next : α → Yaml.Lex β} [ForwardLex first]
    (later : ∀ value, ForwardLex (next value)) : ForwardLex (first >>= next) := inferInstance

instance {p : Prop} {_ : Decidable p} {first second : Yaml.Lex α} [ForwardLex first] [ForwardLex second] :
    ForwardLex (if p then first else second) := by
  split <;> assumption

instance (scan : Scan α) [Forward scan] : ForwardLex (liftM scan : Yaml.Lex α) := by
  refine ⟨fun layout => ?_⟩
  rw [lift_apply]
  infer_instance

instance : ForwardLex (get : Yaml.Lex Layout) := ⟨fun _ => inferInstanceAs (Forward (pure _))⟩

instance (layout : Layout) : ForwardLex (set layout : Yaml.Lex PUnit) :=
  ⟨fun _ => inferInstanceAs (Forward (pure _))⟩

instance (change : Layout → Layout) : ForwardLex (modify change : Yaml.Lex PUnit) :=
  ⟨fun _ => inferInstanceAs (Forward (pure _))⟩

instance : ForwardLex Lex.inFlow := by unfold Lex.inFlow; infer_instance

instance (kind : TokenKind) (start stop : Mark) : ForwardLex (Lex.emit kind start stop) := by
  unfold Lex.emit
  infer_instance

instance (allowed : Bool) : ForwardLex (Lex.setKeyAllowed allowed) := by
  unfold Lex.setKeyAllowed
  infer_instance

instance (number : Nat) (kind : TokenKind) (mark : Mark) : ForwardLex (Lex.insertAt number kind mark) := by
  unfold Lex.insertAt
  infer_instance

instance (column : Nat) (number : Option Nat) (kind : TokenKind) (mark : Mark) :
    ForwardLex (Lex.openBlock column number kind mark) := by
  unfold Lex.openBlock
  repeat' first | infer_instance | split

instance (column : Int) : ForwardLex (Lex.closeBlocks column) := by
  unfold Lex.closeBlocks
  infer_instance

instance : ForwardLex Lex.dropStaleKeys := by
  unfold Lex.dropStaleKeys
  repeat' first | infer_instance | split | refine .before fun _ => ?_

instance : ForwardLex Lex.dropKey := by
  unfold Lex.dropKey
  repeat' first | infer_instance | split | refine .before fun _ => ?_

instance : ForwardLex Lex.saveKey := by unfold Lex.saveKey; infer_instance

instance (steps : Nat) : ForwardLex (Lex.skipToToken steps) := by
  induction steps with
  | zero => unfold Lex.skipToToken; infer_instance
  | succ steps ih => unfold Lex.skipToToken; dsimp only; infer_instance

instance {first : Yaml.Lex α} {next : α → Yaml.Lex β} [front : AdvancesLex first]
    [behind : ∀ value, ForwardLex (next value)] : AdvancesLex (first >>= next) := by
  refine ⟨fun layout => ?_⟩
  have := front.moves
  have := fun value => (behind value).moves
  rw [bind_apply]
  infer_instance

instance (priority := low) {first : Yaml.Lex α} {next : α → Yaml.Lex β} [front : ForwardLex first]
    [behind : ∀ value, AdvancesLex (next value)] : AdvancesLex (first >>= next) := by
  refine ⟨fun layout => ?_⟩
  have := front.moves
  have := fun value => (behind value).moves
  rw [bind_apply]
  infer_instance

theorem AdvancesLex.behind {first : Yaml.Lex α} {next : α → Yaml.Lex β} [ForwardLex first]
    (later : ∀ value, AdvancesLex (next value)) : AdvancesLex (first >>= next) := inferInstance

instance {p : Prop} {_ : Decidable p} {first second : Yaml.Lex α} [AdvancesLex first] [AdvancesLex second] :
    AdvancesLex (if p then first else second) := by
  split <;> assumption

instance (scan : Scan α) [Advances scan] : AdvancesLex (liftM scan : Yaml.Lex α) := by
  refine ⟨fun layout => ?_⟩
  rw [lift_apply]
  infer_instance

instance (length : Nat) (kind : TokenKind) : AdvancesLex (Lex.emitIndicator (length + 1) kind) := by
  unfold Lex.emitIndicator
  infer_instance

instance (token : Token) : ForwardLex (Lex.emitToken token) := by unfold Lex.emitToken; infer_instance

instance : AdvancesLex Lex.directive := by unfold Lex.directive; infer_instance

instance (kind : TokenKind) : AdvancesLex (Lex.documentIndicator kind) := by
  unfold Lex.documentIndicator
  infer_instance

instance (kind : TokenKind) : AdvancesLex (Lex.flowStart kind) := by unfold Lex.flowStart; infer_instance

instance (kind : TokenKind) : AdvancesLex (Lex.flowEnd kind) := by unfold Lex.flowEnd; infer_instance

instance : AdvancesLex Lex.flowEntry := by unfold Lex.flowEntry; infer_instance

instance : AdvancesLex Lex.blockEntry := by unfold Lex.blockEntry; infer_instance

instance : AdvancesLex Lex.key := by unfold Lex.key; infer_instance

instance : AdvancesLex Lex.value := by
  unfold Lex.value
  refine .behind fun _ => .behind fun _ => ?_
  split <;> infer_instance

instance (read : Scan Token) [Advances read] : AdvancesLex (Lex.keyToken read) := by
  unfold Lex.keyToken
  infer_instance

instance (flow : Bool) (indent : Nat) : Forward (readPlain flow indent) := by
  unfold readPlain
  infer_instance

instance : ForwardLex Lex.plainScalar := by
  unfold Lex.plainScalar
  infer_instance

instance (literal : Bool) : AdvancesLex (Lex.blockScalar literal) := by
  unfold Lex.blockScalar
  infer_instance

theorem startsPlain_marks {flow : Bool} {c following : Char}
    (starts : Lex.startsPlain flow c following = true) :
    isBlankOrEnd c = false ∧ c ≠ '#' ∧ (flow && isFlowIndicator c) = false ∧
      (c = ':' → flow = false ∧ isBlankOrEnd following = false) := by
  unfold Lex.startsPlain at starts
  simp only [Bool.or_eq_true, Bool.and_eq_true, Bool.not_eq_true', beq_iff_eq] at starts
  rcases starts with (plain | ⟨rfl, -⟩) | ⟨⟨block, rfl | rfl⟩, bare⟩
  · rw [Bool.or_eq_false_iff] at plain
    obtain ⟨visible, plain⟩ := plain
    have apart : ∀ mark, Lex.isIndicator mark = true → c ≠ mark := by
      rintro mark indicator rfl
      rw [plain] at indicator
      cases indicator
    refine ⟨visible, apart _ (by decide), ?_, fun colon => absurd colon (apart _ (by decide))⟩
    have flowless : isFlowIndicator c = false := by
      simp [isFlowIndicator, apart _ (show Lex.isIndicator ',' = true by decide),
        apart _ (show Lex.isIndicator '[' = true by decide),
        apart _ (show Lex.isIndicator ']' = true by decide),
        apart _ (show Lex.isIndicator '\x7b' = true by decide),
        apart _ (show Lex.isIndicator '\x7d' = true by decide)]
    rw [flowless, Bool.and_false]
  · exact ⟨by decide, by decide, by rw [show isFlowIndicator '-' = false by decide, Bool.and_false],
      fun colon => absurd colon (by decide)⟩
  · exact ⟨by decide, by decide, by rw [show isFlowIndicator '?' = false by decide, Bool.and_false],
      fun colon => absurd colon (by decide)⟩
  · exact ⟨by decide, by decide, by rw [show isFlowIndicator ':' = false by decide, Bool.and_false],
      fun _ => ⟨block, bare⟩⟩

variable {cursor : Cursor} {layout : Layout}

theorem yields_forward {scan : Scan α} [Forward scan] {condition : α × Cursor → Prop}
    (later : ∀ reached, reached.2.broken = cursor.broken → reached.2.rest <:+ cursor.rest →
      condition reached) : Yields (scan cursor) condition :=
  (Forward.keeps cursor).imp fun reached ⟨broken, behind⟩ => later reached broken behind

theorem readPlain_takes {flow : Bool} (indent : Nat) (more : cursor.rest ≠ [])
    (hyphens : indicates cursor '-' = false) (dots : indicates cursor '.' = false)
    (starts : Lex.startsPlain flow (ahead cursor 0) (ahead cursor 1) = true) :
    Yields (readPlain flow indent cursor) fun reached => reached.2.rest.length < cursor.rest.length := by
  obtain ⟨visible, apart, flowless, colon⟩ := startsPlain_marks starts
  unfold readPlain readPlainPieces
  simp only [bind_apply, yields_bind, here_apply, remaining_apply, yields_ok, yields_need,
    atDocumentIndicator_apply, hyphens, dots, Bool.or_self, Bool.false_eq_true, if_false, peek_apply,
    if_neg apart]
  intro _
  have first : Yields (readPlainPiece flow cursor.mark (cursor.size - cursor.mark.index + 1) cursor)
      fun reached => reached.2.rest.length < cursor.rest.length := by
    unfold readPlainPiece
    have goesOn : (flow && ahead cursor 0 == ':' &&
        (isFlowIndicator (ahead cursor 1) || ahead cursor 1 == '?')) = false ∧
        (ahead cursor 0 == ':' && isBlankOrEnd (ahead cursor 1) ||
          flow && isFlowIndicator (ahead cursor 0)) = false := by
      by_cases same : ahead cursor 0 = ':'
      · obtain ⟨block, bare⟩ := colon same
        simp [block, bare]
      · simp [same, flowless]
    simp only [bind_apply, yields_bind, peek_apply, peekAt_apply, yields_ok, visible, goesOn.1,
      goesOn.2, Bool.false_eq_true, if_false]
    refine (Advances.takes cursor more).imp fun passed less => yields_forward fun enough _ behind => ?_
    refine yields_forward fun rest _ behind' => yields_pure.mpr ?_
    exact Nat.lt_of_le_of_lt (behind'.trans behind).length_le less
  refine first.imp fun reached less => yields_forward fun last _ behind => yields_pure.mpr ?_
  exact Nat.lt_of_le_of_lt behind.length_le less

/-- What a token takes, where the layout has settled what it is. -/
theorem plainScalar_takes {layout : Layout} (more : cursor.rest ≠ [])
    (hyphens : indicates cursor '-' = false) (dots : indicates cursor '.' = false)
    (starts : Lex.startsPlain (decide (1 < layout.keys.length)) (ahead cursor 0) (ahead cursor 1) = true) :
    Yields (Lex.plainScalar layout cursor) fun reached => reached.2.rest.length < cursor.rest.length := by
  unfold Lex.plainScalar
  simp only [bind_apply, yields_bind]
  have flow : (1 < (keyed layout cursor).keys.length) = (1 < layout.keys.length) := by
    unfold keyed
    split
    · cases layout.keys <;> simp
    · rfl
  refine yields_saveKey ?_
  rw [Lex.setKeyAllowed, modify_apply, yields_ok]
  simp only [inFlow_apply, yields_ok, get_apply, liftM_apply, yields_map, flow]
  have plain := readPlain_takes ((keyed layout cursor).indent + 1).toNat more hyphens dots starts
  refine plain.imp fun reached less => ?_
  have emits := (inferInstance : ForwardLex (Lex.emitToken reached.1.1)).moves
  refine ((emits _).keeps _).imp ?_
  rintro emitted ⟨-, behind⟩
  refine yields_ite (fun _ => ?_) (fun _ => ?_)
  · exact yields_ok.mpr (Nat.lt_of_le_of_lt behind.length_le less)
  · exact yields_pure.mpr (Nat.lt_of_le_of_lt behind.length_le less)

private theorem yields_token {lex : Yaml.Lex Unit} {condition : (Bool × Layout) × Cursor → Prop}
    (forward : Forward (lex layout))
    (takes : Yields (lex layout cursor) fun reached => reached.2.rest.length < cursor.rest.length)
    (later : ∀ reached : (Bool × Layout) × Cursor, reached.1.1 = false →
      reached.2.broken = cursor.broken → reached.2.rest <:+ cursor.rest →
      reached.2.rest.length < cursor.rest.length → condition reached) :
    Yields ((do
      lex
      Lex.dropStaleKeys
      return false : Yaml.Lex Bool) layout cursor) condition := by
  simp only [bind_apply, yields_bind]
  intro reached same
  obtain ⟨broken, behind⟩ := Forward.keeps cursor reached same
  have less := takes reached same
  have := (inferInstance : ForwardLex Lex.dropStaleKeys).moves reached.1.2
  refine yields_forward fun last broken' behind' => yields_pure.mpr ?_
  exact later _ rfl (broken'.trans broken) (behind'.trans behind)
    (Nat.lt_of_le_of_lt behind'.length_le less)

/-- A token takes characters. There are no more of them only where the source has ended. -/
theorem nextToken_takes (layout : Layout) (cursor : Cursor) :
    Yields (Lex.nextToken layout cursor) fun reached =>
      (reached.1.1 = false → reached.2.broken = cursor.broken ∧ reached.2.rest <:+ cursor.rest ∧
        reached.2.rest.length < cursor.rest.length) ∧
      (reached.1.1 = true → cursor.broken = none ∨ '\x00' ∈ cursor.rest) := by
  unfold Lex.nextToken
  simp only [bind_apply, yields_bind, liftM_apply, yields_map, remaining_apply, yields_ok, here_apply,
    yields_need, peek_apply, peekAt_apply, inFlow_apply]
  have := fun steps => (inferInstance : ForwardLex (Lex.skipToToken steps)).moves layout
  refine yields_forward fun visible broken behind => ?_
  have := (inferInstance : ForwardLex Lex.dropStaleKeys).moves visible.1.2
  refine yields_forward fun fresh broken' behind' => ?_
  have := (inferInstance : ForwardLex (Lex.closeBlocks fresh.2.mark.column)).moves fresh.1.2
  refine yields_forward fun closed broken'' behind'' enough => ?_
  have same : closed.2.broken = cursor.broken := broken''.trans (broken'.trans broken)
  have suffix : closed.2.rest <:+ cursor.rest := behind''.trans (behind'.trans behind)
  have ends : ∀ reached : (Bool × Layout) × Cursor, reached.1.1 = false →
      reached.2.broken = closed.2.broken → reached.2.rest <:+ closed.2.rest →
      reached.2.rest.length < closed.2.rest.length →
      (reached.1.1 = false → reached.2.broken = cursor.broken ∧ reached.2.rest <:+ cursor.rest ∧
        reached.2.rest.length < cursor.rest.length) ∧
      (reached.1.1 = true → cursor.broken = none ∨ '\x00' ∈ cursor.rest) := by
    intro reached goesOn broken behind less
    refine ⟨fun _ => ⟨broken.trans same, behind.trans suffix, ?_⟩, fun ended => ?_⟩
    · exact Nat.lt_of_lt_of_le less suffix.length_le
    · rw [goesOn] at ended
      cases ended
  refine yields_ite (fun atEnd => ?_) (fun goesOn => ?_)
  · have ended : cursor.broken = none ∨ '\x00' ∈ cursor.rest := by
      rw [← same]
      cases rest : closed.2.rest with
      | nil => exact Or.inl (enough.resolve_right (by simp [rest]))
      | cons c text =>
        rw [isEnd, ahead, rest] at atEnd
        refine Or.inr (suffix.subset ?_)
        rw [rest, ← beq_iff_eq.mp atEnd]
        exact List.mem_cons_self
    simp only [bind_apply, yields_bind]
    intro streamEnded _ fresh _
    exact yields_pure.mpr ⟨fun never => Bool.noConfusion never, fun _ => ended⟩
  have more : closed.2.rest ≠ [] := by
    intro none
    rw [ahead, none] at goesOn
    exact goesOn (by decide)
  have token : ∀ lex : Yaml.Lex Unit, AdvancesLex lex → _ := fun lex advances =>
    yields_token (advances.moves closed.1.2).toForward ((advances.moves closed.1.2).takes closed.2 more) ends
  refine yields_ite (fun _ => token _ inferInstance) (fun _ => ?_)
  simp only [bind_apply, yields_bind, liftM_apply, yields_map, atDocumentIndicator_apply, yields_ok]
  refine yields_ite (fun _ => token _ inferInstance) (fun hyphens => ?_)
  simp only [bind_apply, yields_bind, liftM_apply, yields_map, atDocumentIndicator_apply, yields_ok]
  refine yields_ite (fun _ => token _ inferInstance) (fun dots => ?_)
  iterate 15 refine yields_ite (fun _ => token _ inferInstance) (fun _ => ?_)
  refine yields_ite (fun starts => ?_) (fun _ => ?_)
  · exact yields_token ((inferInstance : ForwardLex Lex.plainScalar).moves _)
      (plainScalar_takes more (Bool.eq_false_iff.mpr hyphens) (Bool.eq_false_iff.mpr dots) starts) ends
  · simp only [bind_apply, yields_bind, liftM_apply, yields_map, here_apply, yields_ok, malformed_apply,
      yields_error]

theorem readTokens_fault {steps : Nat} (broken : cursor.broken ≠ none) (visible : '\x00' ∉ cursor.rest)
    (enough : cursor.rest.length < steps) : (readTokens steps layout cursor).fault ≠ none := by
  induction steps generalizing layout cursor with
  | zero => exact absurd enough (Nat.not_lt_zero _)
  | succ steps ih =>
    rw [readTokens]
    split
    next => exact Option.some_ne_none _
    next ended =>
      exact absurd ((nextToken_takes layout cursor _ ended).2 rfl) (not_or.mpr ⟨broken, visible⟩)
    next token =>
      obtain ⟨same, behind, less⟩ := (nextToken_takes layout cursor _ token).1 rfl
      exact ih (same ▸ broken) (fun null => visible (behind.subset null))
        (Nat.lt_of_lt_of_le less (Nat.le_of_lt_succ enough))

end MessagePress.Proofs.ScanProgress
