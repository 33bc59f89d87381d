import MessagePress.Proofs.FlowTokens
import MessagePress.Proofs.JsonCollections
import MessagePress.Proofs.ScanProgress

/-! The tokens of a whole text, tree by tree. If the scanner gets through, each tree has left its
tokens behind. -/

namespace MessagePress.Proofs.FlowRuns
open Yaml PartialRuns ScannerSteps FlowTokens JsonSyntax
open ScanProgress (nextToken_takes)
open JsonCollections (separator itemLexemes_cons memberLexemes_cons)

variable {tokens : List Token} {kinds : List TokenKind} {depth : Nat} {more : List Lexeme}

/-- The scanner goes on to these tokens without a fault. -/
def Finishes (tokens : List Token) (layout : Layout) (cursor : Cursor) : Prop :=
  ∃ steps, cursor.rest.length < steps ∧ readTokens steps layout cursor = ⟨tokens, none⟩

theorem Finishes.next {layout : Layout} {cursor : Cursor} {condition : (Bool × Layout) × Cursor → Prop}
    (finishes : Finishes tokens layout cursor) (yields : Yields (Lex.nextToken layout cursor) condition) :
    ∃ ended layout' cursor', condition ((ended, layout'), cursor') ∧
      (ended = true → tokens = layout'.tokens.reverse) ∧ (ended = false → Finishes tokens layout' cursor') := by
  obtain ⟨steps, enough, run⟩ := finishes
  cases steps with
  | zero => exact absurd enough (Nat.not_lt_zero _)
  | succ steps =>
    rw [readTokens] at run
    cases found : Lex.nextToken layout cursor with
    | error fault =>
      rw [StateT.run, found] at run
      cases run
    | ok reached =>
      obtain ⟨⟨ended, layout'⟩, cursor'⟩ := reached
      rw [StateT.run, found] at run
      refine ⟨ended, layout', cursor', yields _ found, ?_, ?_⟩
      · rintro rfl
        cases run
        rfl
      · rintro rfl
        obtain ⟨-, -, shorter⟩ := (nextToken_takes layout cursor _ found).1 rfl
        exact ⟨steps, Nat.lt_of_lt_of_le shorter (Nat.le_of_lt_succ enough), run⟩

/-- The scanner has come to a place, with these lexemes ahead and these tokens, newest first,
behind. -/
def Comes (state : Layout → Prop) (tokens : List Token) (depth : Nat) (kinds : List TokenKind)
    (more : List Lexeme) : Prop :=
  ∃ layout cursor, state layout ∧ Lays layout depth kinds ∧ Left cursor more ∧ Finishes tokens layout cursor

def Any (_ : Layout) : Prop := True

variable {state : Layout → Prop}

theorem Comes.any (comes : Comes state tokens depth kinds more) : Comes Any tokens depth kinds more := by
  obtain ⟨layout, cursor, -, there⟩ := comes
  exact ⟨layout, cursor, trivial, there⟩

theorem Comes.opener {opener closer : Lexeme} {start stop : TokenKind} (brackets : Brackets opener closer start stop)
    (some : 1 ≤ depth) (comes : Comes state tokens depth kinds (opener :: more)) :
    Comes Clear tokens (depth + 1) (start :: kinds) more := by
  obtain ⟨layout, cursor, -, lays, left, finishes⟩ := comes
  obtain ⟨_, layout, cursor, ⟨rfl, lays, clear, left⟩, -, next⟩ :=
    finishes.next (opener_lexed brackets lays some left)
  exact ⟨layout, cursor, clear, lays, left, next rfl⟩

theorem Comes.closer {opener closer : Lexeme} {start stop : TokenKind} (brackets : Brackets opener closer start stop)
    (some : 1 ≤ depth) (comes : Comes state tokens (depth + 1) kinds (closer :: more)) :
    Comes Any tokens depth (stop :: kinds) more := by
  obtain ⟨layout, cursor, -, lays, left, finishes⟩ := comes
  obtain ⟨_, layout, cursor, ⟨rfl, lays, left⟩, -, next⟩ :=
    finishes.next (closer_lexed brackets lays some left)
  exact ⟨layout, cursor, trivial, lays, left, next rfl⟩

theorem Comes.comma (comes : Comes state tokens depth kinds (.comma :: more)) :
    Comes Clear tokens depth (.flowEntry :: kinds) more := by
  obtain ⟨layout, cursor, -, lays, left, finishes⟩ := comes
  obtain ⟨_, layout, cursor, ⟨rfl, lays, clear, left⟩, -, next⟩ := finishes.next (comma_lexed lays left)
  exact ⟨layout, cursor, clear, lays, left, next rfl⟩

theorem Comes.word {word : List Char} {mark : Lexeme} (flow : 2 ≤ depth) (follows : Follows mark)
    (comes : Comes state tokens depth kinds (.word word :: mark :: more)) :
    Comes Any tokens depth (.scalar word .plain :: kinds) (mark :: more) := by
  obtain ⟨layout, cursor, -, lays, left, finishes⟩ := comes
  obtain ⟨_, layout, cursor, ⟨rfl, lays, left⟩, -, next⟩ := finishes.next (word_lexed lays flow follows left)
  exact ⟨layout, cursor, trivial, lays, left, next rfl⟩

theorem Comes.string {pieces : List Piece} (some : 1 ≤ depth)
    (comes : Comes state tokens depth kinds (.string pieces :: more)) :
    Single pieces ∧ Comes Any tokens depth (.scalar (content pieces) .doubleQuoted :: kinds) more := by
  obtain ⟨layout, cursor, -, lays, left, finishes⟩ := comes
  obtain ⟨_, layout, cursor, ⟨rfl, single, lays, -, left⟩, -, next⟩ := finishes.next (string_lexed lays some left)
  exact ⟨single, layout, cursor, trivial, lays, left, next rfl⟩

theorem Comes.name {pieces : List Piece} (flow : 2 ≤ depth)
    (comes : Comes Clear tokens depth kinds (.string pieces :: .colon :: more)) :
    Single pieces ∧ ∃ mark, (mark = [] ∨ mark = [.key]) ∧
      Comes Any tokens depth (.value :: .scalar (content pieces) .doubleQuoted :: (mark ++ kinds)) more := by
  obtain ⟨layout, cursor, clear, lays, left, finishes⟩ := comes
  obtain ⟨_, layout, cursor, ⟨rfl, single, lays, keyed, left⟩, -, next⟩ :=
    finishes.next (string_lexed lays (Nat.le_of_succ_le flow) left)
  obtain ⟨_, layout, cursor, ⟨rfl, ⟨mark, marked, lays⟩, left⟩, -, next⟩ :=
    (next rfl).next (colon_lexed lays flow (keyed clear) left)
  exact ⟨single, mark, marked, layout, cursor, trivial, lays, left, next rfl⟩

theorem Comes.ends (comes : Comes state tokens depth kinds []) :
    tokens.map (·.kind) = kinds.reverse ++ [.streamEnd] := by
  obtain ⟨layout, cursor, -, lays, left, finishes⟩ := comes
  obtain ⟨_, layout, cursor, ⟨rfl, lays⟩, ended, -⟩ := finishes.next (end_lexed lays left)
  rw [ended rfl, List.map_reverse, lays.kinds, List.reverse_cons]

def separatorKinds (first : Bool) : List TokenKind := if first then [] else [.flowEntry]

mutual

/-- The tokens of a tree. The mark of a key may be missing in front of a name. -/
def Shown : Tree → List TokenKind → Prop
  | .word word, kinds => kinds = [.scalar word .plain]
  | .string pieces, kinds => Single pieces ∧ kinds = [.scalar (content pieces) .doubleQuoted]
  | .array items, kinds =>
    ∃ inner, ItemsShown true items inner ∧ kinds = .flowSequenceStart :: (inner ++ [.flowSequenceEnd])
  | .object members, kinds =>
    ∃ inner, MembersShown true members inner ∧ kinds = .flowMappingStart :: (inner ++ [.flowMappingEnd])

def ItemsShown : (first : Bool) → List Tree → List TokenKind → Prop
  | _, [], kinds => kinds = []
  | first, item :: items, kinds => ∃ here later, Shown item here ∧ ItemsShown false items later ∧
      kinds = separatorKinds first ++ (here ++ later)

def MembersShown : (first : Bool) → List (List Piece × Tree) → List TokenKind → Prop
  | _, [], kinds => kinds = []
  | first, (name, value) :: members, kinds => Single name ∧ ∃ mark here later, (mark = [] ∨ mark = [.key]) ∧
      Shown value here ∧ MembersShown false members later ∧
      kinds = separatorKinds first ++ (mark ++ .scalar (content name) .doubleQuoted :: .value :: (here ++ later))

end

theorem Comes.separator {first : Bool} (clear : ∀ layout, Clear layout → state layout)
    (comes : Comes (fun layout => first = true → state layout) tokens depth kinds (separator first ++ more)) :
    Comes state tokens depth ((separatorKinds first).reverse ++ kinds) more := by
  cases first with
  | true =>
    obtain ⟨layout, cursor, holds, there⟩ := comes
    exact ⟨layout, cursor, holds rfl, there⟩
  | false =>
    obtain ⟨layout, cursor, holds, there⟩ := comes.comma
    exact ⟨layout, cursor, clear layout holds, there⟩

/-- Inside a collection a mark follows every value. -/
def Inner (more : List Lexeme) : Prop := ∃ mark rest, more = mark :: rest ∧ Follows mark

theorem inner_items {items : List Tree} {closer : Lexeme} (follows : Follows closer) :
    Inner (itemLexemes false items ++ closer :: more) := by
  cases items with
  | nil => exact ⟨closer, more, rfl, follows⟩
  | cons item items =>
    rw [itemLexemes_cons]
    exact ⟨.comma, _, rfl, .comma⟩

theorem inner_members {members : List (List Piece × Tree)} {closer : Lexeme} (follows : Follows closer) :
    Inner (memberLexemes false members ++ closer :: more) := by
  cases members with
  | nil => exact ⟨closer, more, rfl, follows⟩
  | cons member members =>
    rw [memberLexemes_cons]
    exact ⟨.comma, _, rfl, .comma⟩

mutual

/-- A tree is passed with its tokens; a word only inside a collection. -/
theorem tree_comes (tree : Tree) {state : Layout → Prop} {kinds : List TokenKind} {depth : Nat} {more : List Lexeme}
    (some : 1 ≤ depth) (inner : ∀ word, tree = .word word → 2 ≤ depth ∧ Inner more)
    (comes : Comes state tokens depth kinds (lexemes tree ++ more)) :
    ∃ shown, Shown tree shown ∧ Comes Any tokens depth (shown.reverse ++ kinds) more := by
  cases tree with
  | word word =>
    obtain ⟨flow, mark, rest, rfl, follows⟩ := inner word rfl
    rw [lexemes] at comes
    exact ⟨[_], by rw [Shown], comes.word flow follows⟩
  | string pieces =>
    rw [lexemes] at comes
    obtain ⟨single, comes⟩ := comes.string some
    exact ⟨[_], by rw [Shown]; exact ⟨single, rfl⟩, comes⟩
  | array items =>
    rw [lexemes, List.cons_append, List.append_assoc] at comes
    obtain ⟨shown, items, comes⟩ :=
      items_come items true (Nat.succ_le_succ some) (.closer .array) (comes.opener .array some).any
    refine ⟨_, by rw [Shown]; exact ⟨shown, items, rfl⟩, ?_⟩
    have closed := comes.closer .array some
    simpa using closed
  | object members =>
    rw [lexemes, List.cons_append, List.append_assoc] at comes
    obtain ⟨layout, cursor, clear, there⟩ := comes.opener .object some
    obtain ⟨shown, members, comes⟩ :=
      members_come members true (Nat.succ_le_succ some) (.closer .object) ⟨layout, cursor, fun _ => clear, there⟩
    refine ⟨_, by rw [Shown]; exact ⟨shown, members, rfl⟩, ?_⟩
    have closed := comes.closer .object some
    simpa using closed

theorem items_come (items : List Tree) (first : Bool) {kinds : List TokenKind} {depth : Nat}
    {closer : Lexeme} {more : List Lexeme} (flow : 2 ≤ depth) (follows : Follows closer)
    (comes : Comes Any tokens depth kinds (itemLexemes first items ++ closer :: more)) :
    ∃ shown, ItemsShown first items shown ∧ Comes Any tokens depth (shown.reverse ++ kinds) (closer :: more) := by
  cases items with
  | nil =>
    rw [itemLexemes] at comes
    exact ⟨[], by rw [ItemsShown], comes⟩
  | cons item items =>
    rw [itemLexemes_cons, List.append_assoc, List.append_assoc] at comes
    obtain ⟨layout, cursor, -, there⟩ := comes
    have comes : Comes Any tokens depth _ _ :=
      Comes.separator (fun _ _ => trivial) ⟨layout, cursor, fun _ => trivial, there⟩
    obtain ⟨here, shown, comes⟩ :=
      tree_comes item (Nat.le_of_succ_le flow) (fun _ _ => ⟨flow, inner_items follows⟩) comes
    obtain ⟨later, others, comes⟩ := items_come items false flow follows comes
    refine ⟨_, by rw [ItemsShown]; exact ⟨here, later, shown, others, rfl⟩, ?_⟩
    simpa using comes

theorem members_come (members : List (List Piece × Tree)) (first : Bool) {kinds : List TokenKind} {depth : Nat}
    {closer : Lexeme} {more : List Lexeme} (flow : 2 ≤ depth) (follows : Follows closer)
    (comes : Comes (fun layout => first = true → Clear layout) tokens depth kinds
      (memberLexemes first members ++ closer :: more)) :
    ∃ shown, MembersShown first members shown ∧
      Comes Any tokens depth (shown.reverse ++ kinds) (closer :: more) := by
  cases members with
  | nil =>
    rw [memberLexemes] at comes
    exact ⟨[], by rw [MembersShown], comes.any⟩
  | cons member members =>
    obtain ⟨name, value⟩ := member
    rw [memberLexemes_cons, List.append_assoc] at comes
    have comes := Comes.separator (fun _ clear => clear) comes
    rw [List.cons_append, List.cons_append, List.append_assoc] at comes
    obtain ⟨single, mark, marked, comes⟩ := comes.name flow
    obtain ⟨here, shown, comes⟩ :=
      tree_comes value (Nat.le_of_succ_le flow) (fun _ _ => ⟨flow, inner_members follows⟩) comes
    obtain ⟨later, others, comes⟩ := members_come members false flow follows (by
      obtain ⟨layout, cursor, -, there⟩ := comes
      exact ⟨layout, cursor, nofun, there⟩)
    refine ⟨_, by rw [MembersShown]; exact ⟨single, mark, here, later, marked, shown, others, rfl⟩, ?_⟩
    have same : mark.reverse = mark := by
      rcases marked with rfl | rfl <;> rfl
    simpa [same] using comes

end

theorem source_shown {source : Source} {tree : Tree} (root : ∀ word, tree ≠ .word word)
    (whole : source.broken = none) (written : Written (lexemes tree) source.chars [])
    (unfolded : QuotedScans.isUnfolded source.chars = true) (through : (TokenStream.ofSource source).fault = none) :
    ∃ shown, Shown tree shown ∧
      (TokenStream.ofSource source).tokens.map (·.kind) = shown ++ [.streamEnd] := by
  have stands : Stands source.start source.chars := ⟨rfl, whole, Nat.zero_add _⟩
  have start : Comes Any (TokenStream.ofSource source).tokens 1 [] (lexemes tree ++ []) := by
    rw [List.append_nil]
    refine ⟨{}, source.start, trivial, ⟨rfl, rfl, rfl, rfl⟩, ⟨_, stands, written, unfolded⟩, ?_⟩
    refine ⟨source.chars.length + 2, Nat.lt_succ_of_le (Nat.le_succ _), ?_⟩
    exact congrArg (TokenStream.mk _) through
  obtain ⟨shown, tokens, comes⟩ := tree_comes tree (Nat.le_refl 1) (fun word same => absurd same (root word)) start
  refine ⟨shown, tokens, ?_⟩
  simpa using comes.ends

end MessagePress.Proofs.FlowRuns
