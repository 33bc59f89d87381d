import MessagePress.Proofs.CallGrammar
import MessagePress.Proofs.PlaceholderCuts

/-! Segments and their text. A list of segments that could have been cut from a text is cut from every
text that it is printed as, with any blanks in its actions; so cutting loses nothing, and what is cut
could not be cut otherwise. -/

namespace MessagePress.Proofs.SegmentPrinting
open Template Text BracePairs PlaceholderCuts
open CallGrammar (Blanks)

/-- Segments that come from a cut: every text stands between two placeholders or at an end, has
something in it and no braces that open an action, not even with those of the placeholder behind it. -/
def Neat : List Segment → Prop
  | [] => True
  | .text content :: found =>
    content ≠ [] ∧ PairFree '{' content ∧ (∀ other, found.head? ≠ some (.text other)) ∧
      (∀ name, found.head? = some (.placeholder name) → content.getLast? ≠ some '{') ∧ Neat found
  | .placeholder name :: found => name ≠ [] ∧ (∀ c ∈ name, isNameChar c = true) ∧ Neat found

/-- What segments are printed as. Blanks may stand around the dot and the name of a placeholder. -/
inductive Printed : List Segment → List Char → Prop
  | nil : Printed [] []
  | text {content found text} (later : Printed found text) : Printed (.text content :: found) (content ++ text)
  | placeholder {lead name trail found text} (leading : Blanks lead) (trailing : Blanks trail)
      (later : Printed found text) :
      Printed (.placeholder name :: found) ('{' :: '{' :: (lead ++ '.' :: (name ++ (trail ++ '}' :: '}' :: text))))

variable {text content : List Char} {found : List Segment}

theorem Neat.textSegment (free : PairFree '{' content) (neat : Neat found)
    (apart : ∀ other, found.head? ≠ some (.text other))
    (closed : ∀ name, found.head? = some (.placeholder name) → content.getLast? ≠ some '{') :
    Neat (textSegment content ++ found) := by
  unfold Template.textSegment
  split
  · exact neat
  next some => exact ⟨List.isEmpty_eq_false_iff.mp (by simpa using some), free, apart, closed, neat⟩

theorem neat_of_cut {pieces : List Piece} (cut : Cut text pieces) : Neat (pieces.map Piece.segment) := by
  induction cut with
  | @plain text free =>
    rw [textPiece_segment, ← List.append_nil (Template.textSegment text)]
    exact Neat.textSegment free trivial (by simp) (by simp)
  | @action before action after pieces first formed rest ih =>
    obtain ⟨free, closed⟩ := pairFree_concat_iff.mp first
    rw [List.map_append, List.map_cons, textPiece_segment]
    exact Neat.textSegment free ⟨formed.named, formed.legal, ih⟩ (by simp [Piece.segment]) fun _ _ => closed

theorem Printed.textSegment (printed : Printed found text) :
    Printed (Template.textSegment content ++ found) (content ++ text) := by
  unfold Template.textSegment
  split
  next empty => rwa [List.isEmpty_iff.mp empty]
  next => exact .text printed

theorem printed_of_cut {pieces : List Piece} (cut : Cut text pieces) : Printed (pieces.map Piece.segment) text := by
  induction cut with
  | @plain text free =>
    have written : Printed (Template.textSegment text ++ []) (text ++ []) := Printed.nil.textSegment
    rwa [List.append_nil, List.append_nil, ← textPiece_segment] at written
  | @action before action after pieces first formed rest ih =>
    rw [List.map_append, List.map_cons, textPiece_segment]
    have written := @Printed.placeholder _ action.name _ _ _ formed.lead formed.trail ih
    refine Printed.textSegment ?_
    simpa [Action.text, Action.body, Piece.segment] using written

theorem cut_prepend {action : Action} {pieces : List Piece} (cut : Cut text (.action action :: pieces))
    (free : PairFree '{' (content ++ ['{'])) :
    Cut (content ++ text) (textPiece content ++ .action action :: pieces) := by
  generalize whole : Piece.action action :: pieces = others at cut
  cases cut with
  | plain free =>
    unfold textPiece at whole
    split at whole <;> cases whole
  | @action before first after later opened formed rest =>
    cases before with
    | nil =>
      cases whole
      exact .action free formed rest
    | cons c before => cases whole

/-- A neat list is cut from what it is printed as. -/
theorem cut_of_printed (printed : Printed found text) (neat : Neat found) :
    ∃ pieces, Cut text pieces ∧ pieces.map Piece.segment = found := by
  induction printed with
  | nil => exact ⟨[], .plain (pairFree_nil _), rfl⟩
  | @text content found text later ih =>
    obtain ⟨some, free, apart, closed, neat⟩ := neat
    obtain ⟨pieces, cut, rfl⟩ := ih neat
    have shown : textPiece content = [.text content] := by
      rw [textPiece, List.isEmpty_eq_false_iff.mpr some]
      rfl
    cases pieces with
    | nil =>
      have none : text = [] := by
        have source := cut.source
        rwa [List.flatMap_nil, eq_comm] at source
      rw [none, List.append_nil]
      exact ⟨_, .plain free, by rw [shown]; rfl⟩
    | cons piece pieces =>
      cases piece with
      | text other => exact absurd rfl (apart other)
      | action action =>
        refine ⟨_, cut_prepend cut (pairFree_concat_iff.mpr ⟨free, closed action.name rfl⟩), ?_⟩
        rw [shown]
        rfl
  | @placeholder lead name trail found text leading trailing later ih =>
    obtain ⟨named, legal, neat⟩ := neat
    obtain ⟨pieces, cut, rfl⟩ := ih neat
    have formed : Action.WellFormed ⟨lead, name, trail⟩ := ⟨leading, trailing, named, legal⟩
    refine ⟨.action ⟨lead, name, trail⟩ :: pieces, ?_, rfl⟩
    have whole := @Cut.action [] _ _ _ (pairFree_singleton _ _) formed cut
    simpa [Action.text, Action.body, textPiece] using whole

/-- Cutting and printing are inverse: what is cut from a text is neat and is printed as the text, with
the blanks that stood in it, and it is all that can be printed so. -/
theorem segments_printed (text : List Char) (found : List Segment) :
    (segments text = .ok found ↔ Neat found ∧ Printed found text) ∧
      (segments text = .ok found → ∀ others, Neat others → Printed others text → others = found) := by
  have inverse (found : List Segment) : segments text = .ok found ↔ Neat found ∧ Printed found text := by
    rw [segments_eq_ok]
    constructor
    · rintro ⟨pieces, cut, rfl⟩
      exact ⟨neat_of_cut cut, printed_of_cut cut⟩
    · rintro ⟨neat, printed⟩
      exact cut_of_printed printed neat
  refine ⟨inverse found, fun cut others neat printed => ?_⟩
  exact Except.ok.inj (((inverse others).mpr ⟨neat, printed⟩).symm.trans cut)

end MessagePress.Proofs.SegmentPrinting
