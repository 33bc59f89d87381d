import MessagePress.Proofs.ScannerSteps

/-! Tokens of a source that has a fault. None of them is the end of the stream: that one is added
last, and after it nothing can fail any more. -/

namespace MessagePress.Proofs.OpenStreams
open Yaml Yaml.Scan PartialRuns ScannerSteps

-- The instances below follow whole functions of the scanner, line by line.
set_option synthInstance.maxSize 5000

/-- No token tells the end of the stream. -/
def Unended (tokens : List Token) : Prop := ∀ token ∈ tokens, token.kind ≠ .streamEnd

variable {layout : Layout} {cursor : Cursor} {token : Token} {tokens : List Token}

theorem unended_insert {newer : Nat} (unended : Unended layout.tokens) (other : token.kind ≠ .streamEnd) :
    Unended (layout.insert newer token).tokens := by
  intro found member
  rcases List.mem_append.mp member with newest | oldest
  · exact unended _ (List.mem_of_mem_take newest)
  · rcases List.mem_cons.mp oldest with rfl | oldest
    · exact other
    · exact unended _ (List.mem_of_mem_drop oldest)

/-- A step that gives no end of the stream. -/
def GivesOther (kind : α → TokenKind) (scan : Scan α) : Prop :=
  ∀ cursor, Yields (scan cursor) fun reached => kind reached.1 ≠ .streamEnd

namespace GivesOther

variable {kind : α → TokenKind}

theorem pure {value : α} (other : kind value ≠ .streamEnd) : GivesOther kind (Pure.pure value) :=
  fun _ => yields_ok.mpr other

theorem bind {first : Scan β} {next : β → Scan α} (behind : ∀ value, GivesOther kind (next value)) :
    GivesOther kind (first >>= next) := by
  intro cursor
  rw [bind_apply, yields_bind]
  exact fun reached _ => behind _ _

theorem through {first : Scan TokenKind} {next : TokenKind → Scan α} (front : GivesOther id first)
    (behind : ∀ found, found ≠ .streamEnd → GivesOther kind (next found)) :
    GivesOther kind (first >>= next) := by
  intro cursor
  rw [bind_apply, yields_bind]
  exact (front cursor).imp fun reached other => behind _ other _

theorem ite {p : Prop} {_ : Decidable p} {first second : Scan α} (yes : GivesOther kind first)
    (no : GivesOther kind second) : GivesOther kind (if p then first else second) := by
  split
  · exact yes
  · exact no

theorem malformed (problem : Problem) (context : Option (Context × Mark)) :
    GivesOther kind (Scan.malformed problem context) := fun _ _ same => nomatch same

end GivesOther

theorem readQuoted_other (single : Bool) : GivesOther Token.kind (readQuoted single) := by
  unfold readQuoted
  repeat' first | exact .pure nofun | refine .bind fun _ => ?_

theorem readPlain_other (flow : Bool) (indent : Nat) :
    GivesOther (fun plain => plain.1.kind) (readPlain flow indent) := by
  unfold readPlain
  repeat' first | exact .pure nofun | refine .bind fun _ => ?_

theorem readBlock_other (literal : Bool) (parent : Int) : GivesOther Token.kind (readBlock literal parent) := by
  unfold readBlock
  dsimp only
  repeat' first | exact .pure nofun | exact .malformed _ _ | refine .ite ?_ ?_ | refine .bind fun _ => ?_

theorem readName_other (context : Context) (kind : List Char → TokenKind) (other : ∀ name, kind name ≠ .streamEnd) :
    GivesOther Token.kind (readName context kind) := by
  unfold readName
  repeat' first | exact .pure (other _) | exact .malformed _ _ | refine .ite ?_ ?_ | refine .bind fun _ => ?_

theorem readTag_other (flow : Bool) : GivesOther Token.kind (readTag flow) := by
  unfold readTag
  dsimp only
  repeat' first | exact .pure nofun | exact .malformed _ _ | refine .ite ?_ ?_ | refine .bind fun _ => ?_

theorem readVersionDirective_other (start : Mark) : GivesOther id (readVersionDirective start) := by
  unfold readVersionDirective
  repeat' first | exact .pure nofun | exact .malformed _ _ | refine .ite ?_ ?_ | refine .bind fun _ => ?_

theorem readTagDirective_other (start : Mark) : GivesOther id (readTagDirective start) := by
  unfold readTagDirective
  repeat' first | exact .pure nofun | exact .malformed _ _ | refine .ite ?_ ?_ | refine .bind fun _ => ?_

theorem readDirective_other : GivesOther Token.kind readDirective := by
  unfold readDirective
  dsimp only
  refine .bind fun start => .bind fun _ => .bind fun name => ?_
  refine .ite (.through (readVersionDirective_other start) fun kind other => ?_)
    (.ite (.through (readTagDirective_other start) fun kind other => ?_)
      (.through (.malformed _ _) fun kind other => ?_))
  all_goals
    repeat' first | exact .pure other | exact .malformed _ _ | refine .ite ?_ ?_ | refine .bind fun _ => ?_

/-- A step that adds no end of the stream. -/
class KeepsOpen (lex : Yaml.Lex α) : Prop where
  keeps : ∀ layout cursor, Unended layout.tokens → Yields (lex layout cursor) fun reached =>
    Unended reached.1.2.tokens

instance (value : α) : KeepsOpen (pure value : Yaml.Lex α) := ⟨fun _ _ unended => yields_pure.mpr unended⟩

instance {first : Yaml.Lex α} {next : α → Yaml.Lex β} [front : KeepsOpen first]
    [behind : ∀ value, KeepsOpen (next value)] : KeepsOpen (first >>= next) := by
  refine ⟨fun layout cursor unended => ?_⟩
  simp only [bind_apply, yields_bind]
  exact (front.keeps layout cursor unended).imp fun reached unended => (behind _).keeps _ _ unended

theorem KeepsOpen.behind {first : Yaml.Lex α} {next : α → Yaml.Lex β} [KeepsOpen first]
    (later : ∀ value, KeepsOpen (next value)) : KeepsOpen (first >>= next) := inferInstance

instance {p : Prop} {_ : Decidable p} {first second : Yaml.Lex α} [KeepsOpen first] [KeepsOpen second] :
    KeepsOpen (if p then first else second) := by
  split <;> assumption

instance (scan : Scan α) : KeepsOpen (liftM scan : Yaml.Lex α) := by
  refine ⟨fun layout cursor unended => ?_⟩
  rw [liftM_apply, yields_map]
  exact fun _ _ => unended

instance : KeepsOpen (get : Yaml.Lex Layout) := ⟨fun _ _ unended => yields_ok.mpr unended⟩

instance : KeepsOpen Lex.inFlow := ⟨fun _ _ unended => yields_ok.mpr unended⟩

theorem modify_open (change : Layout → Layout) (same : ∀ layout, (change layout).tokens = layout.tokens) :
    KeepsOpen (modify change : Yaml.Lex PUnit) :=
  ⟨fun layout _ unended => yields_ok.mpr ((same layout).symm ▸ unended)⟩

instance (allowed : Bool) : KeepsOpen (Lex.setKeyAllowed allowed) := modify_open _ fun _ => rfl

instance : KeepsOpen Lex.dropKey := ⟨fun _ _ unended => yields_dropKey unended⟩

instance : KeepsOpen Lex.saveKey := by
  refine ⟨fun layout cursor unended => yields_saveKey ?_⟩
  unfold keyed
  split <;> exact unended

theorem emit_open {kind : TokenKind} (other : kind ≠ .streamEnd) (start stop : Mark) :
    KeepsOpen (Lex.emit kind start stop) :=
  ⟨fun _ _ unended => yields_ok.mpr (unended_insert unended other)⟩

instance (number : Nat) (mark : Mark) : KeepsOpen (Lex.insertAt number .key mark) :=
  ⟨fun _ _ unended => yields_ok.mpr (unended_insert unended nofun)⟩

theorem openBlock_open (kind : TokenKind) (other : kind ≠ .streamEnd) (column : Nat) (number : Option Nat)
    (mark : Mark) : KeepsOpen (Lex.openBlock column number kind mark) := by
  refine ⟨fun layout cursor unended => ?_⟩
  unfold Lex.openBlock
  simp only [bind_apply, yields_bind, get_apply, inFlow_apply, yields_ok]
  refine yields_ite (fun _ => ?_) (fun _ => yields_pure.mpr unended)
  simp only [bind_apply, yields_bind, set_apply, yields_ok]
  cases number with
  | none => exact yields_ok.mpr (unended_insert unended other)
  | some number => exact yields_ok.mpr (unended_insert unended other)

instance (column : Int) : KeepsOpen (Lex.closeBlocks column) := by
  have closes : ∀ mark indents layout, Unended layout.tokens →
      Unended (Lex.closeDeeper column mark indents layout).tokens := by
    intro mark indents
    induction indents with
    | nil => exact fun _ unended => unended
    | cons outer indents ih =>
      intro layout unended
      rw [Lex.closeDeeper]
      split
      · exact ih _ (unended_insert unended nofun)
      · exact unended
  refine ⟨fun layout cursor unended => ?_⟩
  unfold Lex.closeBlocks
  simp only [bind_apply, yields_bind, inFlow_apply, yields_ok]
  refine yields_ite (fun _ => ?_) (fun _ => yields_pure.mpr unended)
  simp only [bind_apply, yields_bind, liftM_apply, here_apply, yields_map, yields_ok]
  exact yields_ok.mpr (closes _ _ _ unended)

instance : KeepsOpen Lex.dropStaleKeys := ⟨fun _ _ unended => yields_dropStaleKeys unended⟩

instance (steps : Nat) : KeepsOpen (Lex.skipToToken steps) := by
  induction steps with
  | zero => unfold Lex.skipToToken; infer_instance
  | succ steps ih => unfold Lex.skipToToken; dsimp only; infer_instance

theorem emitIndicator_open (kind : TokenKind) (other : kind ≠ .streamEnd) (length : Nat) :
    KeepsOpen (Lex.emitIndicator length kind) := by
  have := emit_open other
  unfold Lex.emitIndicator
  infer_instance

theorem reading_open {read : Scan Token} (other : GivesOther Token.kind read) :
    KeepsOpen (do Lex.emitToken (← read) : Yaml.Lex Unit) := by
  refine ⟨fun layout cursor unended => ?_⟩
  simp only [bind_apply, yields_bind, liftM_apply, yields_map]
  exact (other cursor).imp fun reached other => (emit_open other _ _).keeps _ _ unended

theorem keyToken_open {read : Scan Token} (other : GivesOther Token.kind read) :
    KeepsOpen (Lex.keyToken read) := by
  have := reading_open other
  unfold Lex.keyToken
  infer_instance

instance : KeepsOpen Lex.directive := by
  have := reading_open readDirective_other
  unfold Lex.directive
  infer_instance

instance (literal : Bool) : KeepsOpen (Lex.blockScalar literal) := by
  have := fun parent => reading_open (readBlock_other literal parent)
  unfold Lex.blockScalar
  infer_instance

instance : KeepsOpen Lex.plainScalar := by
  have reads : ∀ flow indent, KeepsOpen (do
      let (token, broken) ← readPlain flow indent
      Lex.emitToken token
      if broken then Lex.setKeyAllowed true : Yaml.Lex Unit) := by
    intro flow indent
    refine ⟨fun layout cursor unended => ?_⟩
    simp only [bind_apply, yields_bind, liftM_apply, yields_map]
    refine (readPlain_other flow indent cursor).imp fun reached other => ?_
    refine ((emit_open other _ _).keeps _ _ unended).imp fun reached unended => ?_
    split
    · exact yields_ok.mpr unended
    · exact yields_pure.mpr unended
  unfold Lex.plainScalar
  infer_instance

theorem documentIndicator_open (kind : TokenKind) (other : kind ≠ .streamEnd) :
    KeepsOpen (Lex.documentIndicator kind) := by
  have := emitIndicator_open _ other 3
  unfold Lex.documentIndicator
  infer_instance

theorem flowStart_open (kind : TokenKind) (other : kind ≠ .streamEnd) : KeepsOpen (Lex.flowStart kind) := by
  have := emitIndicator_open _ other 1
  have deeper := modify_open (fun layout =>
    { layout with keys := none :: layout.keys, keyAllowed := true }) fun _ => rfl
  unfold Lex.flowStart
  infer_instance

theorem flowEnd_open (kind : TokenKind) (other : kind ≠ .streamEnd) : KeepsOpen (Lex.flowEnd kind) := by
  have := emitIndicator_open _ other 1
  have outer := modify_open (fun layout => { layout with keys := layout.keys.drop 1 }) fun _ => rfl
  unfold Lex.flowEnd
  infer_instance

instance : KeepsOpen Lex.flowEntry := by
  have := emitIndicator_open .flowEntry nofun 1
  unfold Lex.flowEntry
  infer_instance

instance : KeepsOpen Lex.blockEntry := by
  have := emitIndicator_open .blockEntry nofun 1
  have := openBlock_open .blockSequenceStart nofun
  unfold Lex.blockEntry
  infer_instance

instance : KeepsOpen Lex.key := by
  have := emitIndicator_open .key nofun 1
  have := openBlock_open .blockMappingStart nofun
  unfold Lex.key
  infer_instance

instance : KeepsOpen Lex.value := by
  have := emitIndicator_open .value nofun 1
  have := openBlock_open .blockMappingStart nofun
  have keyless := fun rest => modify_open (fun layout =>
    { layout with keys := none :: rest, keyAllowed := false }) fun _ => rfl
  unfold Lex.value
  refine .behind fun _ => .behind fun _ => ?_
  split <;> infer_instance

theorem nextToken_open (unended : Unended layout.tokens) :
    Yields (Lex.nextToken layout cursor) fun reached =>
      reached.1.1 = false → Unended reached.1.2.tokens := by
  have token : ∀ lex : Yaml.Lex Unit, KeepsOpen lex → ∀ layout cursor, Unended layout.tokens →
      Yields ((do
        lex
        Lex.dropStaleKeys
        return false : Yaml.Lex Bool) layout cursor) fun reached =>
          reached.1.1 = false → Unended reached.1.2.tokens := by
    intro lex keeps layout cursor unended
    have whole : KeepsOpen (do
      lex
      Lex.dropStaleKeys
      return false : Yaml.Lex Bool) := inferInstance
    exact (whole.keeps layout cursor unended).imp fun _ unended _ => unended
  unfold Lex.nextToken
  simp only [bind_apply, yields_bind, liftM_apply, yields_map, remaining_apply, yields_ok, here_apply,
    yields_need, peek_apply, peekAt_apply, inFlow_apply]
  have skips : KeepsOpen (Lex.skipToToken (cursor.size - cursor.mark.index + 1)) := inferInstance
  refine (skips.keeps _ _ unended).imp fun visible unended => ?_
  refine yields_dropStaleKeys ?_
  have closes : KeepsOpen (Lex.closeBlocks visible.2.mark.column) := inferInstance
  refine (closes.keeps (freshened visible.1.2 visible.2.mark) _ unended).imp fun closed unended _ => ?_
  refine yields_ite (fun _ => ?_) (fun _ => ?_)
  · simp only [bind_apply, yields_bind]
    exact fun _ _ _ _ => yields_pure.mpr nofun
  refine yields_ite (fun _ => token _ inferInstance _ _ unended) (fun _ => ?_)
  simp only [bind_apply, yields_bind, liftM_apply, yields_map, atDocumentIndicator_apply, yields_ok]
  have starts := documentIndicator_open .documentStart nofun
  have ends := documentIndicator_open .documentEnd nofun
  have openArray := flowStart_open .flowSequenceStart nofun
  have openObject := flowStart_open .flowMappingStart nofun
  have closeArray := flowEnd_open .flowSequenceEnd nofun
  have closeObject := flowEnd_open .flowMappingEnd nofun
  have aliases := keyToken_open (readName_other .alias .alias nofun)
  have anchors := keyToken_open (readName_other .anchor .anchor nofun)
  have tags := fun flow => keyToken_open (readTag_other flow)
  have quoted := fun single => keyToken_open (readQuoted_other single)
  refine yields_ite (fun _ => token _ inferInstance _ _ unended) (fun _ => ?_)
  simp only [bind_apply, yields_bind, liftM_apply, yields_map, atDocumentIndicator_apply, yields_ok]
  iterate 17 refine yields_ite (fun _ => token _ inferInstance _ _ unended) (fun _ => ?_)
  simp only [bind_apply, yields_bind, liftM_apply, yields_map, here_apply, yields_ok, malformed_apply,
    yields_error]

/-- The tokens in front of a fault do not end the stream. -/
theorem readTokens_open {steps : Nat} (unended : Unended layout.tokens)
    (faulty : (readTokens steps layout cursor).fault ≠ none) :
    Unended (readTokens steps layout cursor).tokens := by
  induction steps generalizing layout cursor with
  | zero => exact absurd rfl faulty
  | succ steps ih =>
    rw [readTokens] at faulty ⊢
    split at faulty
    next failed =>
      intro token member
      unfold Layout.settled at member
      dsimp only at member
      split at member
      · exact unended _ (List.mem_reverse.mp (List.mem_of_mem_take member))
      · exact unended _ (List.mem_reverse.mp member)
    next => exact absurd rfl faulty
    next token => exact ih (nextToken_open unended _ token rfl) faulty

theorem ofSource_open {source : Source} (faulty : (TokenStream.ofSource source).fault ≠ none) :
    Unended (TokenStream.ofSource source).tokens :=
  readTokens_open (List.forall_mem_nil _) faulty

end MessagePress.Proofs.OpenStreams
