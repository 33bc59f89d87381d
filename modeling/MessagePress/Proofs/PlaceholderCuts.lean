import MessagePress.Proofs.BracePairs
import MessagePress.Proofs.PartialRuns
import MessagePress.Proofs.Trimming
import MessagePress.Template.Render

/-! A text as plain pieces and the actions of its placeholders. Cutting a text gives its only
such form, and filling replaces the actions one by one. Both can be taken apart where a
character stands that no action holds. -/

namespace MessagePress.Proofs.PlaceholderCuts
open Template Text BracePairs Trimming PartialRuns

/-- A placeholder as it is written: its name, and the blanks in front of its dot and behind
its name. -/
structure Action where
  lead : List Char
  name : List Char
  trail : List Char

namespace Action

def body (action : Action) : List Char := action.lead ++ ('.' :: action.name ++ action.trail)

def text (action : Action) : List Char := '{' :: '{' :: (action.body ++ ['}', '}'])

structure WellFormed (action : Action) : Prop where
  lead : ∀ c ∈ action.lead, isAsciiBlank c = true
  trail : ∀ c ∈ action.trail, isAsciiBlank c = true
  named : action.name ≠ []
  legal : ∀ c ∈ action.name, isNameChar c = true

end Action

/-- A character of the action of some placeholder. -/
def isActionChar (c : Char) : Bool :=
  c == '{' || c == '}' || c == '.' || isAsciiBlank c || isNameChar c

theorem Action.WellFormed.body_char {action : Action} (formed : action.WellFormed) :
    ∀ c ∈ action.body, c = '.' ∨ isAsciiBlank c = true ∨ isNameChar c = true := by
  intro c member
  simp only [Action.body, List.mem_append, List.mem_cons] at member
  rcases member with member | (rfl | member) | member
  · exact Or.inr (Or.inl (formed.lead c member))
  · exact Or.inl rfl
  · exact Or.inr (Or.inr (formed.legal c member))
  · exact Or.inr (Or.inl (formed.trail c member))

theorem Action.WellFormed.text_char {action : Action} (formed : action.WellFormed) :
    ∀ c ∈ action.text, isActionChar c = true := by
  intro c member
  simp only [Action.text, List.mem_cons, List.mem_append, List.not_mem_nil, or_false] at member
  rcases member with rfl | rfl | member | rfl | rfl
  any_goals rfl
  rcases formed.body_char c member with rfl | blank | legal
  · rfl
  · simp [isActionChar, blank]
  · simp [isActionChar, legal]

private theorem nameChar_not_blank {c : Char} (legal : isNameChar c = true) :
    isAsciiBlank c = false := by
  by_contra blank
  simp only [isAsciiBlank, Bool.not_eq_false, Bool.or_eq_true, beq_iff_eq] at blank
  obtain (((rfl | rfl) | rfl) | rfl) | rfl := blank <;> exact absurd legal (by decide)

private theorem dotted_bare {name : List Char} (named : name ≠ [])
    (legal : ∀ c ∈ name, isNameChar c = true) : Bare isAsciiBlank ('.' :: name) := by
  refine ⟨?_, ?_⟩
  · rintro c ⟨⟩
    rfl
  · intro c last
    rw [List.getLast?_cons, List.getLast?_eq_some_getLast named] at last
    cases last
    exact nameChar_not_blank (legal _ (List.getLast_mem named))

theorem placeholderName_eq_ok {body name : List Char} :
    placeholderName body = .ok name ↔
      ∃ action : Action, action.WellFormed ∧ action.body = body ∧ action.name = name := by
  constructor
  · intro named
    obtain ⟨lead, trail, whole, leading, trailing⟩ := trim_cut isAsciiBlank body
    unfold placeholderName at named
    split at named
    next found inner =>
      split at named
      next legal =>
        cases named
        simp only [Bool.and_eq_true, Bool.not_eq_true', List.isEmpty_eq_false_iff,
          List.all_eq_true] at legal
        rw [inner] at whole
        exact ⟨⟨lead, name, trail⟩, ⟨leading, trailing, legal.1, legal.2⟩, whole.symm, rfl⟩
      next => cases named
    next => cases named
  · rintro ⟨action, formed, rfl, rfl⟩
    have inner : trim isAsciiBlank action.body = '.' :: action.name :=
      trim_eq (dotted_bare formed.named formed.legal) formed.lead formed.trail
    simp only [placeholderName, inner]
    rw [if_pos]
    simpa using ⟨formed.named, formed.legal⟩

/-- A piece of a cut text. -/
inductive Piece
  | text (content : List Char)
  | action (action : Action)

namespace Piece

def source : Piece → List Char
  | text content => content
  | action written => written.text

def segment : Piece → Segment
  | text content => .text content
  | action written => .placeholder written.name

end Piece

def textPiece (content : List Char) : List Piece := if content.isEmpty then [] else [.text content]

theorem textPiece_source (content : List Char) :
    (textPiece content).flatMap Piece.source = content := by
  cases content with
  | nil => rfl
  | cons c rest => simp [textPiece, Piece.source]

theorem textPiece_segment (content : List Char) :
    (textPiece content).map Piece.segment = textSegment content := by
  cases content with
  | nil => rfl
  | cons c rest => rfl

/-- The pieces of a text: each pair of opening braces met from the left opens an action. -/
inductive Cut : List Char → List Piece → Prop
  | plain {text} (free : PairFree '{' text) : Cut text (textPiece text)
  | action {before action after pieces} (first : PairFree '{' (before ++ ['{']))
      (formed : action.WellFormed) (rest : Cut after pieces) :
      Cut (before ++ (action.text ++ after)) (textPiece before ++ .action action :: pieces)

theorem Cut.source {text pieces} (cut : Cut text pieces) : pieces.flatMap Piece.source = text := by
  induction cut with
  | plain free => exact textPiece_source _
  | action first formed rest ih =>
    rw [List.flatMap_append, List.flatMap_cons, textPiece_source, ih, Piece.source]

theorem Cut.formed {text pieces} (cut : Cut text pieces) :
    ∀ action, .action action ∈ pieces → action.WellFormed := by
  have plain : ∀ {content : List Char} {action}, Piece.action action ∉ textPiece content := by
    intro content action
    cases content <;> simp [textPiece]
  induction cut with
  | plain free => exact fun action member => absurd member plain
  | @action before current after pieces first formed rest ih =>
    intro action member
    rcases List.mem_append.mp member with member | member
    · exact absurd member plain
    · rcases List.mem_cons.mp member with same | member
      · cases same; exact formed
      · exact ih action member

theorem Action.WellFormed.closed {action : Action} (formed : action.WellFormed) :
    PairFree '}' (action.body ++ ['}']) := by
  apply pairFree_concat
  intro member
  rcases formed.body_char _ member with same | blank | legal
  · exact absurd same (by decide)
  · exact absurd blank (by decide)
  · exact absurd legal (by decide)

theorem action_found {before : List Char} {action : Action}
    (first : PairFree '{' (before ++ ['{'])) (formed : action.WellFormed) (after : List Char) :
    splitPair? '{' (before ++ (action.text ++ after)) =
        some (before, action.body ++ '}' :: '}' :: after) ∧
      splitPair? '}' (action.body ++ '}' :: '}' :: after) = some (action.body, after) := by
  refine ⟨splitPair?_eq_some.mpr ⟨?_, first⟩, splitPair?_eq_some.mpr ⟨rfl, formed.closed⟩⟩
  simp [Action.text]

private theorem Cut.segmentsFrom {text pieces} (cut : Cut text pieces) (actions offset : Nat)
    (enough : text.length ≤ actions) :
    segmentsFrom actions offset text = .ok (pieces.map Piece.segment) := by
  induction cut generalizing actions offset with
  | @plain text free =>
    cases actions with
    | zero => rw [Template.segmentsFrom, textPiece_segment]
    | succ actions =>
      rw [Template.segmentsFrom, splitPair?_eq_none.mpr free, textPiece_segment]
  | @action before action after pieces first formed rest ih =>
    obtain ⟨opened, closed⟩ := action_found first formed after
    have named := placeholderName_eq_ok.mpr ⟨action, formed, rfl, rfl⟩
    cases actions with
    | zero => simp [Action.text] at enough
    | succ actions =>
      have shorter : after.length ≤ actions := by
        simp only [Action.text, List.length_append, List.length_cons] at enough
        omega
      simp only [Template.segmentsFrom, opened, closed, named, ih actions _ shorter]
      rw [List.map_append, List.map_cons, textPiece_segment, Piece.segment]

private theorem cut_of_segmentsFrom (actions offset : Nat) (text : List Char)
    (found : List Segment) (enough : text.length ≤ actions)
    (cut : segmentsFrom actions offset text = .ok found) :
    ∃ pieces, Cut text pieces ∧ pieces.map Piece.segment = found := by
  induction actions generalizing offset text found with
  | zero =>
    cases List.eq_nil_of_length_eq_zero (Nat.le_zero.mp enough)
    cases cut
    exact ⟨_, .plain (pairFree_nil _), rfl⟩
  | succ actions ih =>
    rw [segmentsFrom] at cut
    split at cut
    next missing =>
      cases cut
      exact ⟨_, .plain (splitPair?_eq_none.mp missing), textPiece_segment text⟩
    next before inside opened =>
      dsimp only at cut
      split at cut
      next => cases cut
      next body after closed =>
        split at cut
        next => cases cut
        next name named =>
          split at cut
          next => cases cut
          next segments later =>
            cases cut
            obtain ⟨action, formed, rfl, rfl⟩ := placeholderName_eq_ok.mp named
            obtain ⟨rfl, first⟩ := splitPair?_eq_some.mp opened
            obtain ⟨rfl, -⟩ := splitPair?_eq_some.mp closed
            have shorter : after.length ≤ actions := by
              simp only [List.length_append, List.length_cons] at enough
              omega
            obtain ⟨pieces, rest, rfl⟩ := ih _ after segments shorter later
            refine ⟨textPiece before ++ .action action :: pieces, ?_, ?_⟩
            · have whole := Cut.action first formed rest
              simpa [Action.text] using whole
            · rw [List.map_append, List.map_cons, textPiece_segment, Piece.segment]

/-- The segments of a text are those of its pieces, and a text without pieces has none. -/
theorem segments_eq_ok {text : List Char} {found : List Segment} :
    segments text = .ok found ↔ ∃ pieces, Cut text pieces ∧ pieces.map Piece.segment = found := by
  constructor
  · exact cut_of_segmentsFrom text.length 0 text found (Nat.le_refl _)
  · rintro ⟨pieces, cut, rfl⟩
    exact cut.segmentsFrom text.length 0 (Nat.le_refl _)

/-- A text with its actions replaced from left to right; what replaces one is not looked at
again. -/
inductive Rewritten (insertion : Action → Option (List Char)) : List Char → List Char → Prop
  | plain {text} (free : PairFree '{' text) : Rewritten insertion text text
  | action {before action after value result} (first : PairFree '{' (before ++ ['{']))
      (formed : action.WellFormed) (inserted : insertion action = some value)
      (rest : Rewritten insertion after result) :
      Rewritten insertion (before ++ (action.text ++ after)) (before ++ (value ++ result))

/-- What filling inserts for an action. -/
def filling (values : Json.Members) (action : Action) : Option (List Char) :=
  (values.get? (String.ofList action.name)).map fun value => Json.escape (insertedText value)

private theorem fill_textSegment (values : Json.Members) (content : List Char)
    (rest : List Segment) :
    fill values (textSegment content ++ rest) = (fill values rest).map (content ++ ·) := by
  cases content with
  | nil => cases h : fill values rest <;> simp [textSegment, h, Except.map]
  | cons c content =>
    cases h : fill values rest <;>
      simp [textSegment, fill, fillSegment, h, Except.map, bind, Except.bind, pure, Except.pure]

theorem Cut.rewritten {text pieces} (cut : Cut text pieces) {values : Json.Members}
    {result : List Char} (filled : fill values (pieces.map Piece.segment) = .ok result) :
    Rewritten (filling values) text result := by
  induction cut generalizing result with
  | @plain text free =>
    rw [textPiece_segment, ← List.append_nil (textSegment text), fill_textSegment] at filled
    simp only [fill, Except.map, List.append_nil, Except.ok.injEq] at filled
    subst filled
    exact .plain free
  | @action before action after pieces first formed rest ih =>
    rw [List.map_append, List.map_cons, textPiece_segment, fill_textSegment, Piece.segment, fill,
      fillSegment] at filled
    obtain ⟨whole, behind, rfl⟩ := of_map filled
    obtain ⟨content, inserted, behind⟩ := of_bind behind
    obtain ⟨inner, later, same⟩ := of_bind behind
    cases same
    cases value : values.get? (String.ofList action.name) with
    | none => rw [value] at inserted; cases inserted
    | some found =>
      rw [value] at inserted
      cases inserted
      exact .action first formed (by simp [filling, value]) (ih later)

variable {insertion : Action → Option (List Char)} {text rest result : List Char}

theorem Rewritten.empty (rewritten : Rewritten insertion [] result) : result = [] := by
  have none : ∀ {source}, Rewritten insertion source result → source = [] → result = [] := by
    intro source rewritten empty
    cases rewritten with
    | plain => exact empty
    | action => simp [Action.text] at empty
  exact none rewritten rfl

/-- A text in which no action can begin stays as it is, whatever follows it. -/
theorem Rewritten.behind (rewritten : Rewritten insertion (text ++ rest) result)
    (free : PairFree '{' (text ++ ['{'])) :
    ∃ later, result = text ++ later ∧ Rewritten insertion rest later := by
  generalize whole : text ++ rest = source at rewritten
  cases rewritten with
  | plain none => exact ⟨rest, whole.symm, .plain (whole ▸ none : PairFree '{' (text ++ rest)).right⟩
  | @action before action after value later first formed inserted remaining =>
    have opened : text ++ rest = before ++ '{' :: '{' :: (action.body ++ '}' :: '}' :: after) :=
      whole.trans (by simp [Action.text])
    obtain ⟨inner, rfl, rfl⟩ := pair_behind free opened
    refine ⟨inner ++ (value ++ later), List.append_assoc .., ?_⟩
    rw [List.append_assoc] at first
    simpa [Action.text] using Rewritten.action first.right formed inserted remaining

theorem Rewritten.prepend (rewritten : Rewritten insertion rest result)
    (free : PairFree '{' (text ++ ['{'])) :
    Rewritten insertion (text ++ rest) (text ++ result) := by
  cases rewritten with
  | plain none => exact .plain ((pairFree_append free).mpr none)
  | @action before action after value later first formed inserted remaining =>
    have first' : PairFree '{' ((text ++ before) ++ ['{']) := by
      rw [List.append_assoc]
      exact (pairFree_append free).mpr first
    simpa using Rewritten.action first' formed inserted remaining

/-- A character that no action holds parts a text: neither side is read with the other. -/
theorem Rewritten.separated {separator : Char} (outside : isActionChar separator = false)
    (rewritten : Rewritten insertion (text ++ separator :: rest) result) :
    ∃ front later, result = front ++ separator :: later ∧
      Rewritten insertion text front ∧ Rewritten insertion rest later := by
  have different : separator ≠ '{' := by
    rintro rfl
    exact absurd outside (by decide)
  generalize whole : text ++ separator :: rest = source at rewritten
  induction rewritten generalizing text with
  | plain none =>
    subst whole
    obtain ⟨front, later⟩ := (pairFree_separated different).mp none
    exact ⟨text, rest, rfl, .plain front, .plain later⟩
  | @action before action after value result first formed inserted remaining ih =>
    have absent : separator ∉ action.text := fun member => by
      simp [formed.text_char separator member] at outside
    rcases List.append_eq_append_iff.mp whole with ⟨inner, rfl, within⟩ | ⟨inner, rfl, within⟩
    · -- The action stands behind the separator.
      cases inner with
      | nil => cases within; exact absurd rfl different
      | cons c inner =>
        obtain ⟨rfl, rfl⟩ := List.cons.inj within
        rw [List.append_assoc, List.cons_append] at first
        obtain ⟨front, later⟩ := (pairFree_separated different).mp first
        exact ⟨text, inner ++ (value ++ result), by simp, .plain front,
          .action later formed inserted remaining⟩
    · have past : ∃ written, inner = action.text ++ written ∧ after = written ++ separator :: rest := by
        rcases List.append_eq_append_iff.mp within with ⟨written, same, tail⟩ | ⟨written, same, tail⟩
        · exact ⟨written, same, tail⟩
        · cases written with
          | nil => exact ⟨[], by simpa using same.symm, tail.symm⟩
          | cons c written =>
            obtain ⟨rfl, -⟩ := List.cons.inj tail
            exact absurd (by simp [same]) absent
      obtain ⟨written, rfl, rfl⟩ := past
      obtain ⟨front, later, rfl, before', after'⟩ := ih rfl
      exact ⟨before ++ (value ++ front), later, by simp,
        .action first formed inserted before', after'⟩

end MessagePress.Proofs.PlaceholderCuts
