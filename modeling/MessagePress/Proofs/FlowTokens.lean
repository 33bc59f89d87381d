import MessagePress.Proofs.PlainScans
import MessagePress.Proofs.QuotedScans

/-! The tokens of a lexeme. Brackets, commas and colons are tokens of their own, and so are
strings, numbers and names; only a colon may put a second token in, the mark of the key in front
of it. -/

namespace MessagePress.Proofs.FlowTokens
open Yaml Yaml.Scan PartialRuns ScannerSteps PlainScans QuotedScans
open JsonSyntax hiding isBlank

variable {layout : Layout} {cursor : Cursor} {text : List Char} {more : List Lexeme} {depth : Nat}
  {kinds : List TokenKind} {c : Char}

/-- What is left of a text, as lexemes. -/
def Left (cursor : Cursor) (more : List Lexeme) : Prop :=
  ∃ text, Stands cursor text ∧ Written more text [] ∧ isUnfolded text = true

/-- The tokens so far, newest first, at a depth of brackets; no block is open. -/
structure Lays (layout : Layout) (depth : Nat) (kinds : List TokenKind) : Prop where
  kinds : layout.tokens.map (·.kind) = kinds
  count : layout.count = layout.tokens.length
  depth : layout.keys.length = depth
  bare : layout.indents = []

/-- The innermost possible key, if there is one, is such a key. -/
def Slot (layout : Layout) (known : PossibleKey → Prop) : Prop :=
  ∀ key, layout.keys.head? = some (some key) → known key

def Clear (layout : Layout) : Prop := Slot layout fun _ => False

/-- The last token is the only possible key. -/
def Keyed (layout : Layout) : Prop := Slot layout fun key => key.number + 1 = layout.count

theorem Lays.freshened (lays : Lays layout depth kinds) (mark : Mark) :
    Lays (freshened layout mark) depth kinds :=
  ⟨lays.kinds, lays.count, (List.length_map _).trans lays.depth, lays.bare⟩

theorem Slot.freshened {known : PossibleKey → Prop} (slot : Slot layout known) (mark : Mark) :
    Slot (freshened layout mark) known := by
  intro key head
  unfold ScannerSteps.freshened at head
  rw [List.head?_map, Option.map_eq_some_iff] at head
  obtain ⟨found, head, same⟩ := head
  cases found with
  | none => cases same
  | some found =>
    rw [Option.filter_eq_some_iff] at same
    obtain ⟨same, -⟩ := same
    exact slot key (same ▸ head)

theorem Lays.allowing (lays : Lays layout depth kinds) (allowed : Bool) :
    Lays (allowing layout allowed) depth kinds := ⟨lays.kinds, lays.count, lays.depth, lays.bare⟩

theorem Lays.keyless (lays : Lays layout depth kinds) : Lays (keyless layout) depth kinds :=
  ⟨lays.kinds, lays.count, (List.length_modifyHead).trans lays.depth, lays.bare⟩

theorem clear_keyless : Clear (keyless layout) := by
  intro key head
  unfold keyless at head
  cases keys : layout.keys with
  | nil => rw [keys] at head; cases head
  | cons found rest => rw [keys] at head; cases head

theorem Lays.keyed (lays : Lays layout depth kinds) (some : 1 ≤ depth) (cursor : Cursor) :
    Lays (keyed layout cursor) depth kinds := by
  unfold ScannerSteps.keyed
  split
  · refine ⟨lays.kinds, lays.count, ?_, lays.bare⟩
    have length := lays.depth
    rw [List.length_cons, List.length_drop]
    omega
  · exact lays

theorem Lays.emit (lays : Lays layout depth kinds) (token : Token) :
    Lays (layout.insert 0 token) depth (token.kind :: kinds) :=
  ⟨congrArg (token.kind :: ·) lays.kinds, congrArg (· + 1) lays.count, lays.depth, lays.bare⟩

theorem Lays.emitBehind {newest : TokenKind} (lays : Lays layout depth (newest :: kinds)) (token : Token) :
    Lays (layout.insert 1 token) depth (newest :: token.kind :: kinds) := by
  obtain ⟨last, tokens, same, rfl, rfl⟩ := List.map_eq_cons_iff.mp lays.kinds
  refine ⟨?_, ?_, lays.depth, lays.bare⟩
  · simp [Layout.insert, same]
  · have count := lays.count
    simp only [same, List.length_cons] at count
    simp [Layout.insert, same, count]

theorem yields_closeBlocks {column : Int} {condition : (Unit × Layout) × Cursor → Prop}
    (later : ∀ closed, (layout.indents = [] → closed = layout) → condition (((), closed), cursor)) :
    Yields (Lex.closeBlocks column layout cursor) condition := by
  unfold Lex.closeBlocks
  simp only [bind_apply, yields_bind, inFlow_apply, yields_ok]
  refine yields_ite (fun _ => ?_) (fun _ => yields_pure.mpr (later _ fun _ => rfl))
  simp only [bind_apply, yields_bind, liftM_apply, here_apply, yields_map, yields_ok, modify_apply]
  refine later _ fun bare => ?_
  rw [bare, Lex.closeDeeper]

theorem yields_emitIndicator {kind : TokenKind} {condition : (Unit × Layout) × Cursor → Prop}
    (stands : Stands cursor (c :: text))
    (later : ∀ start stop behind, Stands behind text →
      condition (((), layout.insert 0 ⟨kind, start, stop⟩), behind)) :
    Yields (Lex.emitIndicator 1 kind layout cursor) condition := by
  unfold Lex.emitIndicator
  simp only [bind_apply, yields_bind, liftM_apply, here_apply, yields_map, yields_ok]
  refine yields_pass stands fun behind stands => ?_
  exact yields_ok.mpr (later _ _ _ stands)

/-- The token of a character and the one behind it, where no document begins or ends. -/
def lexAt (flow : Bool) (c following : Char) : Yaml.Lex Unit :=
  if c = '[' then Lex.flowStart .flowSequenceStart
  else if c = '\x7b' then Lex.flowStart .flowMappingStart
  else if c = ']' then Lex.flowEnd .flowSequenceEnd
  else if c = '\x7d' then Lex.flowEnd .flowMappingEnd
  else if c = ',' then Lex.flowEntry
  else if c == '-' && isBlankOrEnd following then Lex.blockEntry
  else if c == '?' && (flow || isBlankOrEnd following) then Lex.key
  else if c == ':' && (flow || isBlankOrEnd following) then Lex.value
  else if c = '*' then Lex.keyToken (readName .alias .alias)
  else if c = '&' then Lex.keyToken (readName .anchor .anchor)
  else if c = '!' then Lex.keyToken (readTag flow)
  else if c == '|' && !flow then Lex.blockScalar true
  else if c == '>' && !flow then Lex.blockScalar false
  else if c = '\x27' then Lex.keyToken (readQuoted true)
  else if c = '"' then Lex.keyToken (readQuoted false)
  else if Lex.startsPlain flow c following then Lex.plainScalar
  else do malformed .cannotStartToken (some (.nextToken, ← here))

private theorem ite_then {p : Prop} [Decidable p] {first second : Yaml.Lex Unit} {next : Unit → Yaml.Lex Bool} :
    (if p then first else second) >>= next = if p then first >>= next else second >>= next := by
  split <;> rfl

/-- Characters that begin a token, but not a comment, and neither a directive nor the end of a
document. -/
def isLead (c : Char) : Bool := !(isBlankOrEnd c || c == '#' || c == '\ufeff' || c == '%' || c == '.')

/-- A text that begins with a token, which neither opens nor closes a document. -/
def Leads (text : List Char) : Prop :=
  ∃ c tail, text = c :: tail ∧ isLead c = true ∧ (c = '-' → tail.head? ≠ some '-')

theorem Leads.opens (leads : Leads text) : Opens text := by
  obtain ⟨c, tail, rfl, lead, -⟩ := leads
  simp only [isLead, Bool.not_eq_true', Bool.or_eq_false_iff, beq_eq_false_iff_ne] at lead
  exact opens_cons lead.1.1.1.1 lead.1.1.1.2 lead.1.1.2

/-- The place of a token, from what stood before the blanks in front of it. -/
structure Reaches (layout reached : Layout) (cursor : Cursor) (text : List Char) : Prop where
  lays : ∀ depth kinds, Lays layout depth kinds → Lays reached depth kinds
  slot : ∀ known, Slot layout known → Slot reached known
  stands : Stands cursor text

/-- In front of a token stand blanks only; a tab may stop the reading. -/
theorem yields_toToken {blanks : List Char} {next : Yaml.Lex Bool} {condition : (Bool × Layout) × Cursor → Prop}
    (bare : layout.indents = []) (blank : Blank blanks) (opens : Opens text)
    (stands : Stands cursor (blanks ++ text))
    (later : ∀ reached cursor, ahead cursor 0 = '\t' ∨ Reaches layout reached cursor text →
      Yields (next reached cursor) condition) :
    Yields ((do
      Lex.skipToToken ((← remaining) + 1)
      Lex.dropStaleKeys
      Lex.closeBlocks (← here).column
      need 4
      next : Yaml.Lex Bool) layout cursor) condition := by
  simp only [bind_apply, yields_bind, liftM_apply, yields_map]
  refine yields_remaining stands ((skipToToken_passes blank opens stands ?_).imp ?_)
  · rw [List.length_append]
    omega
  rintro ⟨⟨_, reached⟩, cursor⟩ place
  refine yields_dropStaleKeys ?_
  simp only [here_apply, yields_ok]
  refine yields_closeBlocks fun closed same => ?_
  rw [yields_need]
  intro _
  rcases place with tab | ⟨stands, allowed, rfl, -⟩
  · exact later _ _ (Or.inl tab)
  · obtain rfl := same bare
    refine later _ _ (Or.inr ⟨fun depth kinds lays => (lays.allowing allowed).freshened _,
      fun known slot => Slot.freshened slot _, stands⟩)

/-- Where neither the source nor a document ends, and none begins. -/
structure Inside (cursor : Cursor) : Prop where
  visible : isEnd (ahead cursor 0) = false
  percent : (ahead cursor 0 == '%') = false
  hyphens : indicates cursor '-' = false
  dots : indicates cursor '.' = false

theorem Leads.inside (leads : Leads text) (stands : Stands cursor text) : Inside cursor := by
  obtain ⟨c, tail, rfl, lead, hyphens⟩ := leads
  simp only [isLead, Bool.not_eq_true', Bool.or_eq_false_iff, isBlankOrEnd, isBreakOrEnd] at lead
  have first : ahead cursor 0 = c := stands.ahead 0
  have second : ahead cursor 1 = tail.headD '\x00' := stands.ahead 1
  have single : c = '-' → (tail.headD '\x00' == '-') = false := by
    intro same
    have apart := hyphens same
    cases tail with
    | nil => rfl
    | cons d tail => exact beq_eq_false_iff_ne.mpr fun same => apart (congrArg some same)
  refine ⟨first ▸ lead.1.1.1.1.2.2, first ▸ lead.1.2, ?_, ?_⟩
  · unfold indicates
    rw [first, second]
    cases same : c == '-' with
    | false => simp
    | true => rw [single (beq_iff_eq.mp same)]; simp
  · unfold indicates
    rw [first, lead.2]
    simp

theorem tab_inside (tab : ahead cursor 0 = '\t') : Inside cursor := by
  refine ⟨tab ▸ rfl, tab ▸ rfl, ?_, ?_⟩ <;> simp [indicates, tab]

theorem tab_stops {flow : Bool} {following : Char} {condition : (Unit × Layout) × Cursor → Prop} :
    Yields (lexAt flow '\t' following layout cursor) condition := by
  have plain : Lex.startsPlain flow '\t' following = false := by
    unfold Lex.startsPlain
    rw [show isBlankOrEnd '\t' = true by decide]
    simp
  simp [lexAt, plain, bind_apply, liftM_apply, here_apply, malformed_apply]

theorem yields_nextToken {blanks : List Char} {condition : (Bool × Layout) × Cursor → Prop}
    (bare : layout.indents = []) (blank : Blank blanks) (leads : text ≠ [] → Leads text)
    (stands : Stands cursor (blanks ++ text))
    (ended : text = [] → ∀ reached cursor, Reaches layout reached cursor text →
      Yields (Lex.streamEnd reached cursor) fun lexed =>
        condition ((true, freshened lexed.1.2 lexed.2.mark), lexed.2))
    (later : text ≠ [] → ∀ reached cursor, Reaches layout reached cursor text →
      Yields (lexAt (1 < reached.keys.length) (ahead cursor 0) (ahead cursor 1) reached cursor) fun lexed =>
        condition ((false, freshened lexed.1.2 lexed.2.mark), lexed.2)) :
    Yields (Lex.nextToken layout cursor) condition := by
  have opens : Opens text := by
    by_cases none : text = []
    · rw [none]; exact nofun
    · exact (leads none).opens
  unfold Lex.nextToken
  refine yields_toToken bare blank opens stands fun reached cursor place => ?_
  simp only [bind_apply, yields_bind, liftM_apply, yields_map, peek_apply, peekAt_apply, here_apply, inFlow_apply,
    yields_ok]
  by_cases none : text = [] ∧ Reaches layout reached cursor text
  · obtain ⟨rfl, reaches⟩ := none
    rw [show ahead cursor 0 = '\x00' from reaches.stands.ahead 0, if_pos (by decide)]
    simp only [bind_apply, yields_bind]
    refine (ended rfl reached cursor reaches).imp ?_
    rintro ⟨⟨_, layout⟩, cursor⟩ holds
    exact yields_dropStaleKeys (yields_pure.mpr holds)
  have lexed : Inside cursor ∧
      Yields ((lexAt (1 < reached.keys.length) (ahead cursor 0) (ahead cursor 1) >>= fun _ => do
        Lex.dropStaleKeys
        return false) reached cursor) condition := by
    simp only [bind_apply, yields_bind]
    rcases place with tab | reaches
    · rw [tab]
      exact ⟨tab_inside tab, tab_stops⟩
    · have some : text ≠ [] := fun empty => none ⟨empty, reaches⟩
      refine ⟨(leads some).inside reaches.stands, (later some reached cursor reaches).imp ?_⟩
      rintro ⟨⟨_, layout⟩, cursor⟩ holds
      exact yields_dropStaleKeys (yields_pure.mpr holds)
  obtain ⟨⟨visible, percent, hyphens, dots⟩, lexed⟩ := lexed
  simp only [lexAt, ite_then, bind_assoc] at lexed
  simp only [bind_apply, yields_bind, liftM_apply, yields_map, yields_ok, visible, percent, Bool.and_false,
    Bool.false_eq_true, if_false, atDocumentIndicator_apply, hyphens, dots]
  exact lexed

theorem isUnfolded_take {kept : List Char} (dropped : List Char) (unfolded : isUnfolded (kept ++ dropped) = true) :
    isUnfolded kept = true := by
  induction kept with
  | nil => rfl
  | cons c kept ih =>
    have later := ih (isUnfolded_tail unfolded)
    have head := isUnfolded_head unfolded
    cases kept with
    | nil => simpa [isUnfolded] using head
    | cons d kept =>
      have apart := isUnfolded_apart unfolded
      simp only [isUnfolded, later, Bool.and_true, Bool.and_eq_true, bne_iff_ne, Bool.not_eq_true',
        Bool.and_eq_false_iff, beq_eq_false_iff_ne]
      grind

private theorem alphanum_apart {d : Char} (alphanum : c.isAlphanum = true) (other : d.isAlphanum = false) :
    (c == d) = false :=
  beq_eq_false_iff_ne.mpr fun same => absurd (same ▸ alphanum) (Bool.eq_false_iff.mp other)

private theorem alphanum_leads (alphanum : c.isAlphanum = true) :
    isLead c = true ∧ isBlankOrEnd c = false ∧ Lex.isIndicator c = false ∧ isPlainChar c = true := by
  have visible : isBlankOrEnd c = false := by
    simp only [isBlankOrEnd, Yaml.isBlank, isBreakOrEnd, isBreak, isEnd, alphanum_apart alphanum, Bool.or_self,
      show ' '.isAlphanum = false by decide, show '\t'.isAlphanum = false by decide,
      show '\n'.isAlphanum = false by decide, show '\r'.isAlphanum = false by decide,
      show '\u0085'.isAlphanum = false by decide, show '\u2028'.isAlphanum = false by decide,
      show '\u2029'.isAlphanum = false by decide, show '\x00'.isAlphanum = false by decide]
  refine ⟨?_, visible, ?_, ?_⟩
  · simp only [isLead, visible, alphanum_apart alphanum, Bool.or_self, Bool.not_false,
      show '#'.isAlphanum = false by decide, show '\ufeff'.isAlphanum = false by decide,
      show '%'.isAlphanum = false by decide, show '.'.isAlphanum = false by decide]
  · have others : (['-', '?', ':', ',', '[', ']', '\x7b', '\x7d', '#', '&', '*', '!', '|', '>', '\x27', '"', '%',
        '@', '\x60'].all fun d => !d.isAlphanum) = true := rfl
    refine Bool.eq_false_iff.mpr fun indicator => ?_
    have plain := List.all_eq_true.mp others c (List.contains_iff_mem.mp indicator)
    rw [alphanum] at plain
    cases plain
  · simp only [isPlainChar, visible, isFlowIndicator, alphanum_apart alphanum, Bool.or_self, Bool.not_false,
      show ':'.isAlphanum = false by decide, show ','.isAlphanum = false by decide,
      show '['.isAlphanum = false by decide, show ']'.isAlphanum = false by decide,
      show '\x7b'.isAlphanum = false by decide, show '\x7d'.isAlphanum = false by decide]

theorem word_begins {word : List Char} (formed : (Lexeme.word word).Formed) :
    (∃ c tail, word = c :: tail ∧ c.isAlphanum = true) ∨
      ∃ c tail, word = '-' :: c :: tail ∧ c.isAlphanum = true := by
  rcases formed with named | ⟨⟨sign, digit, rest, rfl, signed, decimal⟩, -⟩
  · simp only [names, List.mem_cons, List.not_mem_nil, or_false] at named
    rcases named with rfl | rfl | rfl <;> exact Or.inl ⟨_, _, rfl, by decide⟩
  · have alphanum : digit.isAlphanum = true := by rw [Char.isAlphanum, decimal, Bool.or_true]
    rcases signed with rfl | rfl
    · exact Or.inl ⟨_, _, rfl, alphanum⟩
    · exact Or.inr ⟨_, _, rfl, alphanum⟩

theorem word_apart {word : List Char} (formed : (Lexeme.word word).Formed) : word.head? ≠ some '#' := by
  rcases word_begins formed with ⟨c, tail, rfl, alphanum⟩ | ⟨c, tail, rfl, -⟩
  · intro same
    obtain rfl : c = '#' := Option.some.inj same
    cases alphanum
  · exact fun same => absurd (Option.some.inj same) (by decide)

theorem word_plain {word : List Char} (formed : (Lexeme.word word).Formed) :
    ∀ c ∈ word, isPlainChar c = true := by
  rcases formed with named | ⟨-, spelled⟩
  · simp only [names, List.mem_cons, List.not_mem_nil, or_false] at named
    rcases named with rfl | rfl | rfl <;> exact List.all_eq_true.mp (by decide)
  · intro c member
    have numeral := spelled c member
    simp only [isNumeralChar, Bool.or_eq_true, beq_iff_eq] at numeral
    rcases numeral with ((((decimal | rfl) | rfl) | rfl) | rfl) | rfl
    · exact (alphanum_leads (by rw [Char.isAlphanum, decimal, Bool.or_true])).2.2.2
    all_goals decide

theorem leads_lexeme {lexeme : Lexeme} {behind : List Char} (formed : lexeme.Formed) :
    Leads (lexeme.text ++ behind) := by
  have apart {c : Char} (other : c ≠ '-') {P : Prop} : c = '-' → P := fun same => absurd same other
  cases lexeme with
  | word word =>
    rcases word_begins formed with ⟨c, tail, rfl, alphanum⟩ | ⟨c, tail, rfl, alphanum⟩
    · refine ⟨c, _, rfl, (alphanum_leads alphanum).1, apart ?_⟩
      rintro rfl
      cases alphanum
    · refine ⟨'-', _, rfl, by decide, fun _ same => ?_⟩
      obtain rfl : c = '-' := Option.some.inj same
      cases alphanum
  | _ => exact ⟨_, _, rfl, by decide, apart (by decide)⟩

theorem yields_lexeme {lexeme : Lexeme} {condition : (Bool × Layout) × Cursor → Prop}
    (lays : Lays layout depth kinds) (left : Left cursor (lexeme :: more))
    (later : ∀ reached cursor behind, Lays reached depth kinds →
      (∀ known, Slot layout known → Slot reached known) → lexeme.Formed →
      Stands cursor (lexeme.text ++ behind) → Written more behind [] →
      isUnfolded (lexeme.text ++ behind) = true →
      Yields (lexAt (1 < depth) (ahead cursor 0) (ahead cursor 1) reached cursor) fun lexed =>
        condition ((false, freshened lexed.1.2 lexed.2.mark), lexed.2)) :
    Yields (Lex.nextToken layout cursor) condition := by
  obtain ⟨text, stands, written, unfolded⟩ := left
  cases written with
  | @cons blanks behind _ _ _ blank formed written =>
    have leads : Leads (lexeme.text ++ behind) := leads_lexeme formed
    have some : lexeme.text ++ behind ≠ [] := List.append_ne_nil_of_left_ne_nil (Lexeme.text_ne_nil formed) _
    refine yields_nextToken lays.bare blank (fun _ => leads) stands (fun none => absurd none some)
      fun _ reached cursor reaches => ?_
    have lays := reaches.lays depth kinds lays
    rw [lays.depth]
    exact later reached cursor behind lays reaches.slot formed reaches.stands written (isUnfolded_append unfolded)

theorem Lays.reset (lays : Lays layout depth kinds) (allowed : Bool) {keys : List (Option PossibleKey)}
    {inner : Nat} (deep : keys.length = inner) :
    Lays { layout with keys := keys, keyAllowed := allowed } inner kinds :=
  ⟨lays.kinds, lays.count, deep, lays.bare⟩

theorem yields_flowStart {kind : TokenKind} (lays : Lays layout depth kinds) (some : 1 ≤ depth)
    (stands : Stands cursor (c :: text)) :
    Yields (Lex.flowStart kind layout cursor) fun lexed =>
      Lays lexed.1.2 (depth + 1) (kind :: kinds) ∧ Clear lexed.1.2 ∧ Stands lexed.2 text := by
  have opened := lays.keyed some cursor
  unfold Lex.flowStart
  simp only [bind_apply, yields_bind]
  refine yields_saveKey ?_
  simp only [modify_apply, yields_ok]
  refine yields_emitIndicator stands fun start stop behind stands => ⟨?_, ?_, stands⟩
  · exact (opened.reset true (congrArg (· + 1) opened.depth)).emit ⟨kind, start, stop⟩
  · rintro key ⟨⟩

theorem yields_flowEnd {kind : TokenKind} (lays : Lays layout (depth + 1) kinds) (some : 1 ≤ depth)
    (stands : Stands cursor (c :: text)) :
    Yields (Lex.flowEnd kind layout cursor) fun lexed =>
      Lays lexed.1.2 depth (kind :: kinds) ∧ Stands lexed.2 text := by
  have dropped := lays.keyless
  unfold Lex.flowEnd Lex.setKeyAllowed
  simp only [bind_apply, yields_bind]
  refine yields_dropKey ?_
  have flow : 1 < (keyless layout).keys.length := by
    rw [dropped.depth]
    omega
  simp only [inFlow_apply, yields_ok, decide_eq_true flow, if_true, bind_apply, yields_bind, modify_apply]
  refine yields_emitIndicator stands fun start stop behind stands => ⟨?_, stands⟩
  have outer : ((keyless layout).keys.drop 1).length = depth := by
    rw [List.length_drop, dropped.depth, Nat.add_sub_cancel]
  exact (dropped.reset false outer).emit ⟨kind, start, stop⟩

theorem yields_flowEntry (lays : Lays layout depth kinds) (stands : Stands cursor (c :: text)) :
    Yields (Lex.flowEntry layout cursor) fun lexed =>
      Lays lexed.1.2 depth (.flowEntry :: kinds) ∧ Clear lexed.1.2 ∧ Stands lexed.2 text := by
  have dropped := lays.keyless
  unfold Lex.flowEntry Lex.setKeyAllowed
  simp only [bind_apply, yields_bind]
  refine yields_dropKey ?_
  simp only [modify_apply, yields_ok]
  refine yields_emitIndicator stands fun start stop behind stands => ⟨?_, clear_keyless, stands⟩
  exact (dropped.reset true dropped.depth).emit ⟨.flowEntry, start, stop⟩

theorem yields_openBlock {column : Nat} {number : Option Nat} {kind : TokenKind} {mark : Mark}
    {condition : (Unit × Layout) × Cursor → Prop} (flow : 1 < layout.keys.length)
    (later : condition (((), layout), cursor)) :
    Yields (Lex.openBlock column number kind mark layout cursor) condition := by
  unfold Lex.openBlock
  simp only [bind_apply, yields_bind, get_apply, inFlow_apply, yields_ok, decide_eq_true flow]
  exact yields_pure.mpr later

/-- A colon makes a key of the token in front of it, if that is a possible one. -/
theorem yields_value {newest : TokenKind} (lays : Lays layout depth (newest :: kinds)) (flow : 2 ≤ depth)
    (last : Keyed layout) (stands : Stands cursor (c :: text)) :
    Yields (Lex.value layout cursor) fun lexed =>
      (∃ mark, (mark = [] ∨ mark = [.key]) ∧ Lays lexed.1.2 depth (.value :: newest :: (mark ++ kinds))) ∧
        Stands lexed.2 text := by
  have inside : 1 < layout.keys.length := by
    rw [lays.depth]
    omega
  unfold Lex.value
  simp only [bind_apply, yields_bind, inFlow_apply, get_apply, yields_ok, decide_eq_true inside]
  obtain ⟨tokens, count, indent, indents, keyAllowed, keys⟩ := layout
  rcases keys with _ | ⟨_ | key, rest⟩
  rotate_left 2
  · have newer : count - key.number = 1 := by
      have next : key.number + 1 = count := last key rfl
      omega
    simp only [Lex.insertAt, bind_apply, yields_bind, modify_apply, yields_ok, newer]
    refine yields_openBlock inside (yields_emitIndicator stands fun start stop behind stands => ?_)
    have marked := lays.emitBehind ⟨.key, key.mark, key.mark⟩
    have deep : (none :: rest).length = depth := lays.depth
    exact ⟨⟨[.key], Or.inr rfl, (marked.reset false deep).emit ⟨.value, start, stop⟩⟩, stands⟩
  all_goals
    simp only [Bool.not_true, Bool.false_eq_true, if_false, Lex.setKeyAllowed, bind_apply, yields_bind, modify_apply,
      yields_ok]
    refine yields_emitIndicator stands fun start stop behind stands => ⟨⟨[], Or.inl rfl, ?_⟩, stands⟩
    exact (lays.reset false lays.depth).emit ⟨.value, start, stop⟩

theorem keyed_keyed (clear : Clear layout) (token : Token) :
    Keyed ((allowing (keyed layout cursor) false).insert 0 token) := by
  unfold ScannerSteps.keyed
  intro key head
  split at head
  next allowed =>
    obtain rfl := Option.some.inj (Option.some.inj head)
    rw [if_pos allowed]
    rfl
  next => exact (clear key head).elim

theorem yields_scalar {read : Scan Token} {kind : TokenKind} {fact : Prop} (lays : Lays layout depth kinds)
    (some : 1 ≤ depth)
    (reads : Yields (read cursor) fun reached => reached.1.kind = kind ∧ fact ∧ Stands reached.2 text) :
    Yields (Lex.keyToken read layout cursor) fun lexed =>
      fact ∧ Lays lexed.1.2 depth (kind :: kinds) ∧ (Clear layout → Keyed lexed.1.2) ∧ Stands lexed.2 text := by
  unfold Lex.keyToken Lex.setKeyAllowed
  simp only [bind_apply, yields_bind]
  refine yields_saveKey ?_
  simp only [modify_apply, yields_ok, liftM_apply, yields_map]
  refine reads.imp ?_
  rintro ⟨token, cursor'⟩ ⟨rfl, fact, stands⟩
  have saved := lays.keyed some cursor
  exact yields_ok.mpr ⟨fact, (saved.allowing false).emit ⟨token.kind, token.start, token.stop⟩,
    fun clear => keyed_keyed clear _, stands⟩

theorem yields_plain {kind : TokenKind} (lays : Lays layout depth kinds) (flow : 2 ≤ depth)
    (reads : ∀ indent, Yields (readPlain true indent cursor) fun reached =>
      reached.1.1.kind = kind ∧ Stands reached.2 text) :
    Yields (Lex.plainScalar layout cursor) fun lexed =>
      Lays lexed.1.2 depth (kind :: kinds) ∧ Stands lexed.2 text := by
  have saved := (lays.keyed (Nat.le_of_succ_le flow) cursor).allowing false
  have inside : 1 < (allowing (keyed layout cursor) false).keys.length := by
    rw [saved.depth]
    omega
  unfold Lex.plainScalar Lex.setKeyAllowed
  simp only [bind_apply, yields_bind]
  refine yields_saveKey ?_
  generalize keyed layout cursor = marked at saved inside ⊢
  rw [modify_apply, yields_ok, inFlow_apply, yields_ok, get_apply, yields_ok]
  change Yields ((liftM (readPlain (decide (1 < (allowing marked false).keys.length)) _) : Yaml.Lex _) _ _) _
  rw [decide_eq_true inside, liftM_apply, yields_map]
  refine (reads _).imp ?_
  rintro ⟨⟨token, broken⟩, cursor'⟩ ⟨rfl, stands⟩
  have emitted := saved.emit ⟨token.kind, token.start, token.stop⟩
  unfold Lex.emitToken Lex.emit
  dsimp only
  rw [modify_apply, yields_ok]
  refine yields_ite (fun _ => ?_) (fun _ => ?_)
  · exact yields_ok.mpr ⟨emitted.allowing true, stands⟩
  · exact yields_ok.mpr ⟨emitted, stands⟩

theorem yields_streamEnd (lays : Lays layout depth kinds) :
    Yields (Lex.streamEnd layout cursor) fun lexed => Lays lexed.1.2 depth (.streamEnd :: kinds) := by
  have dropped := lays.keyless.allowing false
  unfold Lex.streamEnd Lex.setKeyAllowed
  simp only [bind_apply, yields_bind]
  refine yields_ok.mpr (yields_closeBlocks fun closed same => ?_)
  obtain rfl := same lays.bare
  refine yields_dropKey ?_
  simp only [modify_apply, yields_ok]
  unfold Lex.emitIndicator
  simp only [bind_apply, yields_bind, liftM_apply, here_apply, yields_map, yields_ok]
  exact yields_ok.mpr (yields_ok.mpr (dropped.emit _))

/-- The marks around a collection and their tokens. -/
inductive Brackets : (opener closer : Lexeme) → (start stop : TokenKind) → Prop
  | array : Brackets .openArray .closeArray .flowSequenceStart .flowSequenceEnd
  | object : Brackets .openObject .closeObject .flowMappingStart .flowMappingEnd

variable {opener closer : Lexeme} {start stop : TokenKind}

theorem opener_lexed (brackets : Brackets opener closer start stop) (lays : Lays layout depth kinds)
    (some : 1 ≤ depth) (left : Left cursor (opener :: more)) :
    Yields (Lex.nextToken layout cursor) fun reached => reached.1.1 = false ∧
      Lays reached.1.2 (depth + 1) (start :: kinds) ∧ Clear reached.1.2 ∧ Left reached.2 more := by
  refine yields_lexeme lays left fun reached cursor behind lays _ _ stands written unfolded => ?_
  cases brackets
  all_goals
    have first := stands.ahead 0
    rw [first]
    refine (yields_flowStart lays some stands).imp ?_
    rintro ⟨⟨_, layout⟩, cursor⟩ ⟨lays, clear, stands⟩
    exact ⟨rfl, lays.freshened _, clear.freshened _, behind, stands, written, isUnfolded_tail unfolded⟩

theorem closer_lexed (brackets : Brackets opener closer start stop) (lays : Lays layout (depth + 1) kinds)
    (some : 1 ≤ depth) (left : Left cursor (closer :: more)) :
    Yields (Lex.nextToken layout cursor) fun reached => reached.1.1 = false ∧
      Lays reached.1.2 depth (stop :: kinds) ∧ Left reached.2 more := by
  refine yields_lexeme lays left fun reached cursor behind lays _ _ stands written unfolded => ?_
  cases brackets
  all_goals
    have first := stands.ahead 0
    rw [first]
    refine (yields_flowEnd lays some stands).imp ?_
    rintro ⟨⟨_, layout⟩, cursor⟩ ⟨lays, stands⟩
    exact ⟨rfl, lays.freshened _, behind, stands, written, isUnfolded_tail unfolded⟩

theorem comma_lexed (lays : Lays layout depth kinds) (left : Left cursor (.comma :: more)) :
    Yields (Lex.nextToken layout cursor) fun reached => reached.1.1 = false ∧
      Lays reached.1.2 depth (.flowEntry :: kinds) ∧ Clear reached.1.2 ∧ Left reached.2 more := by
  refine yields_lexeme lays left fun reached cursor behind lays _ _ stands written unfolded => ?_
  have first := stands.ahead 0
  rw [first]
  refine (yields_flowEntry lays stands).imp ?_
  rintro ⟨⟨_, layout⟩, cursor⟩ ⟨lays, clear, stands⟩
  exact ⟨rfl, lays.freshened _, clear.freshened _, behind, stands, written, isUnfolded_tail unfolded⟩

theorem colon_lexed {newest : TokenKind} (lays : Lays layout depth (newest :: kinds)) (flow : 2 ≤ depth)
    (last : Keyed layout) (left : Left cursor (.colon :: more)) :
    Yields (Lex.nextToken layout cursor) fun reached => reached.1.1 = false ∧
      (∃ mark, (mark = [] ∨ mark = [.key]) ∧ Lays reached.1.2 depth (.value :: newest :: (mark ++ kinds))) ∧
        Left reached.2 more := by
  refine yields_lexeme lays left fun reached cursor behind lays' slot _ stands written unfolded => ?_
  have first := stands.ahead 0
  rw [first, decide_eq_true (show 1 < depth from flow)]
  have last : Keyed reached := by
    have counts : reached.count = layout.count := by
      rw [lays'.count, lays.count, ← List.length_map (·.kind), lays'.kinds, ← lays.kinds, List.length_map]
    unfold Keyed
    rw [counts]
    exact slot _ last
  refine (yields_value lays' flow last stands).imp ?_
  rintro ⟨⟨_, layout⟩, cursor⟩ ⟨⟨mark, marked, lays⟩, stands⟩
  exact ⟨rfl, ⟨mark, marked, lays.freshened _⟩, behind, stands, written, isUnfolded_tail unfolded⟩

theorem string_lexed {pieces : List Piece} (lays : Lays layout depth kinds) (some : 1 ≤ depth)
    (left : Left cursor (.string pieces :: more)) :
    Yields (Lex.nextToken layout cursor) fun reached => reached.1.1 = false ∧ Single pieces ∧
      Lays reached.1.2 depth (.scalar (content pieces) .doubleQuoted :: kinds) ∧
        (Clear layout → Keyed reached.1.2) ∧ Left reached.2 more := by
  refine yields_lexeme lays left fun reached cursor behind lays slot formed stands written' unfolded => ?_
  have first : ahead cursor 0 = '"' := stands.ahead 0
  have quoted : isUnfolded ('"' :: (written pieces ++ '"' :: behind)) = true := by
    simpa [Lexeme.text] using unfolded
  have inside : isUnfolded (written pieces) = true := isUnfolded_take _ (isUnfolded_tail quoted)
  rw [first]
  refine (yields_scalar lays some (readQuoted_scans formed inside stands)).imp ?_
  rintro ⟨⟨_, layout⟩, cursor⟩ ⟨single, lays, keyed, stands⟩
  exact ⟨rfl, single, lays.freshened _, fun clear => (keyed (slot _ clear)).freshened _, behind, stands, written',
    isUnfolded_append unfolded⟩

/-- Marks that may follow a value inside a collection. -/
inductive Follows : Lexeme → Prop
  | comma : Follows .comma
  | closer {opener closer : Lexeme} {start stop : TokenKind} (brackets : Brackets opener closer start stop) :
      Follows closer

theorem Follows.indicator {mark : Lexeme} (follows : Follows mark) :
    ∃ c, mark.text = [c] ∧ isFlowIndicator c = true := by
  cases follows with
  | comma => exact ⟨',', rfl, rfl⟩
  | closer brackets => cases brackets <;> exact ⟨_, rfl, rfl⟩

/-- A word is neither a mark nor a string to the scanner. -/
theorem lexAt_word {word : List Char} {flow : Bool} (formed : (Lexeme.word word).Formed)
    (stands : Stands cursor (word ++ text)) :
    lexAt flow (ahead cursor 0) (ahead cursor 1) = Lex.plainScalar := by
  rcases word_begins formed with ⟨c, tail, rfl, alphanum⟩ | ⟨c, tail, rfl, alphanum⟩
  · have first : ahead cursor 0 = c := stands.ahead 0
    obtain ⟨-, visible, indicator, -⟩ := alphanum_leads alphanum
    have apart := indicator
    simp only [Lex.isIndicator, List.contains_cons, List.contains_nil, Bool.or_eq_false_iff,
      beq_eq_false_iff_ne] at apart
    simp [first, lexAt, Lex.startsPlain, visible, indicator, apart]
  · have first : ahead cursor 0 = '-' := stands.ahead 0
    have second : ahead cursor 1 = c := stands.ahead 1
    obtain ⟨-, visible, -⟩ := alphanum_leads alphanum
    have blank : Yaml.isBlank c = false := (Bool.or_eq_false_iff.mp visible).1
    simp [first, second, lexAt, Lex.startsPlain, visible, blank]

theorem word_lexed {word : List Char} {mark : Lexeme} (lays : Lays layout depth kinds) (flow : 2 ≤ depth)
    (follows : Follows mark) (left : Left cursor (.word word :: mark :: more)) :
    Yields (Lex.nextToken layout cursor) fun reached => reached.1.1 = false ∧
      Lays reached.1.2 depth (.scalar word .plain :: kinds) ∧ Left reached.2 (mark :: more) := by
  refine yields_lexeme lays left fun reached cursor behind lays slot formed stands written unfolded => ?_
  have later : isUnfolded behind = true := isUnfolded_append unfolded
  have inside := (leads_lexeme formed).inside stands
  obtain ⟨c, single, indicator⟩ := follows.indicator
  rw [lexAt_word formed stands]
  cases written with
  | @cons blanks middle _ _ _ blank formed' written =>
    rw [single] at stands later
    have reads := fun indent => @readPlain_scans _ _ _ indent word c (Lexeme.text_ne_nil formed) (word_plain formed)
      (word_apart formed) inside.hyphens inside.dots blank indicator stands
    refine (yields_plain lays flow reads).imp ?_
    rintro ⟨⟨_, layout⟩, cursor⟩ ⟨lays, stands⟩
    refine ⟨rfl, lays.freshened _, c :: middle, stands, ?_, isUnfolded_append later⟩
    have whole := @Written.cons [] middle [] mark more (List.forall_mem_nil _) formed' written
    rwa [single] at whole

theorem end_lexed (lays : Lays layout depth kinds) (left : Left cursor []) :
    Yields (Lex.nextToken layout cursor) fun reached => reached.1.1 = true ∧
      Lays reached.1.2 depth (.streamEnd :: kinds) := by
  obtain ⟨text, stands, written, -⟩ := left
  cases written with
  | @nil blanks rest blank =>
    refine yields_nextToken lays.bare blank (fun some => absurd rfl some) stands (fun _ reached cursor reaches => ?_)
      fun some => absurd rfl some
    refine (yields_streamEnd (reaches.lays depth kinds lays)).imp ?_
    rintro ⟨⟨_, layout⟩, cursor⟩ lays
    exact ⟨rfl, lays.freshened _⟩

end MessagePress.Proofs.FlowTokens
