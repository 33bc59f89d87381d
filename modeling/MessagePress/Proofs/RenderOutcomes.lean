import MessagePress.Proofs.AcceptedBodies
import MessagePress.Proofs.CallGrammar
import MessagePress.Proofs.GenerationFaults
import MessagePress.Proofs.Utf8Coding

/-! How rendering ends. A body is read from the left up to the first action that is no placeholder,
whatever the values are; only a body without one is filled, and it lacks the first of its names that
has no value. -/

namespace MessagePress.Proofs.RenderOutcomes
open Template Text BracePairs Trimming PlaceholderCuts
open AcceptedBodies (fill_not_invalid)
open CallGrammar (Blanks)
open GenerationFaults (fault? fill_cons_fault error_of_fault? ok_of_fault? fault?_map)
open Text.Utf8 (encode)

variable {text before rest body : List Char} {offset : Nat} {fault : ActionFault}

/-- What is wrong with the body of an action, once the blanks around it are left out. -/
inductive Misnamed : List Char → ActionFault → Prop
  | notPlaceholder {lead core trail} (leading : Blanks lead) (trailing : Blanks trail)
      (bare : Bare isAsciiBlank core) (undotted : core.head? ≠ some '.') :
      Misnamed (lead ++ (core ++ trail)) (.notPlaceholder (String.ofList core))
  | invalidName {lead name trail} (leading : Blanks lead) (trailing : Blanks trail)
      (bare : Bare isAsciiBlank ('.' :: name)) (illegal : name = [] ∨ ∃ c ∈ name, isNameChar c = false) :
      Misnamed (lead ++ ('.' :: name ++ trail)) (.invalidName (String.ofList name))

/-- What is wrong with an action behind the braces that open it. -/
inductive Broken : List Char → ActionFault → Prop
  | unclosed {rest : List Char} (free : PairFree '}' rest) : Broken rest .unclosed
  | misnamed {body after : List Char} {fault : ActionFault} (closed : PairFree '}' (body ++ ['}']))
      (misnamed : Misnamed body fault) : Broken (body ++ '}' :: '}' :: after) fault

/-- The braces of an action are met behind a part of a text that is read from the left: no braces but
those of placeholders stand in that part. -/
inductive Meets : List Char → List Char → List Char → Prop
  | first {before rest : List Char} (free : PairFree '{' (before ++ ['{'])) :
      Meets (before ++ '{' :: '{' :: rest) before rest
  | behind {before after front rest : List Char} {action : Action} (free : PairFree '{' (before ++ ['{']))
      (formed : action.WellFormed) (meets : Meets after front rest) :
      Meets (before ++ (action.text ++ after)) (before ++ (action.text ++ front)) rest

theorem placeholderName_eq_error : placeholderName body = .error fault ↔ Misnamed body fault := by
  constructor
  · intro refused
    obtain ⟨lead, trail, whole, leading, trailing⟩ := trim_cut isAsciiBlank body
    have bare : Bare isAsciiBlank (trim isAsciiBlank body) := trim_bare body
    rw [whole]
    unfold placeholderName at refused
    split at refused
    next name dotted =>
      split at refused
      next => cases refused
      next illegal =>
        cases refused
        rw [dotted] at bare ⊢
        refine .invalidName leading trailing bare ?_
        simpa [or_iff_not_imp_left] using illegal
    next undotted =>
      cases refused
      refine .notPlaceholder leading trailing bare fun head => ?_
      obtain ⟨tail, dotted⟩ := List.head?_eq_some_iff.mp head
      exact undotted tail dotted
  · intro misnamed
    cases misnamed with
    | @notPlaceholder lead core trail leading trailing bare undotted =>
      rw [placeholderName, trim_eq bare leading trailing]
      split
      · exact absurd rfl undotted
      · rfl
    | @invalidName lead name trail leading trailing bare illegal =>
      have legal : ¬(!name.isEmpty && name.all isNameChar) = true := by
        simpa [or_iff_not_imp_left] using illegal
      rw [placeholderName, trim_eq bare leading trailing]
      exact if_neg legal

theorem byteLength_append (text other : List Char) :
    byteLength (text ++ other) = byteLength text + byteLength other := by
  induction text with
  | nil => exact (Nat.zero_add _).symm
  | cons c text ih => rw [List.cons_append, byteLength, byteLength, ih, Nat.add_assoc]

theorem byteLength_encode (text : List Char) : byteLength text = (encode text).length := by
  induction text with
  | nil => rfl
  | cons c text ih =>
    rw [byteLength, encode, List.flatMap_cons, List.length_append, String.length_utf8EncodeChar, ih]
    rfl

theorem byteLength_action (action : Action) : byteLength action.text = 2 + byteLength action.body + 2 := by
  have brace : '{'.utf8Size = 1 ∧ '}'.utf8Size = 1 := by decide
  rw [Action.text, byteLength, byteLength, byteLength_append, byteLength, byteLength, byteLength, brace.1, brace.2]
  omega

private theorem broken_of_segmentsFrom {actions start : Nat} (enough : text.length ≤ actions)
    (refused : segmentsFrom actions start text = .error ⟨offset, fault⟩) :
    ∃ before rest, Meets text before rest ∧ Broken rest fault ∧ offset = start + byteLength before := by
  induction actions generalizing start text with
  | zero => cases refused
  | succ actions ih =>
    rw [segmentsFrom] at refused
    split at refused
    next => cases refused
    next before rest opened =>
      obtain ⟨rfl, free⟩ := splitPair?_eq_some.mp opened
      dsimp only at refused
      split at refused
      next unclosed =>
        cases refused
        exact ⟨before, rest, .first free, .unclosed (splitPair?_eq_none.mp unclosed), rfl⟩
      next body after closed =>
        obtain ⟨rfl, bodyFree⟩ := splitPair?_eq_some.mp closed
        split at refused
        next fault' misnamed =>
          cases refused
          exact ⟨before, _, .first free, .misnamed bodyFree (placeholderName_eq_error.mp misnamed), rfl⟩
        next name named =>
          obtain ⟨action, formed, rfl, rfl⟩ := placeholderName_eq_ok.mp named
          split at refused
          next fault' later =>
            cases refused
            have shorter : after.length ≤ actions := by
              simp only [List.length_append, List.length_cons] at enough
              omega
            obtain ⟨front, rest, meets, broken, rfl⟩ := ih shorter later
            refine ⟨before ++ (action.text ++ front), rest, ?_, broken, ?_⟩
            · have whole := Meets.behind free formed meets
              simpa [Action.text] using whole
            · rw [byteLength_append, byteLength_append, byteLength_action]
              omega
          next => cases refused

private theorem segmentsFrom_of_broken {actions start : Nat} (enough : text.length ≤ actions)
    (meets : Meets text before rest) (broken : Broken rest fault) :
    segmentsFrom actions start text = .error ⟨start + byteLength before, fault⟩ := by
  induction meets generalizing actions start with
  | @first before rest free =>
    have opened : splitPair? '{' (before ++ '{' :: '{' :: rest) = some (before, rest) :=
      splitPair?_eq_some.mpr ⟨rfl, free⟩
    cases actions with
    | zero => simp at enough
    | succ actions =>
      cases broken with
      | unclosed bodyFree => simp only [segmentsFrom, opened, splitPair?_eq_none.mpr bodyFree]
      | @misnamed body after fault closed misnamed =>
        have ended : splitPair? '}' (body ++ '}' :: '}' :: after) = some (body, after) :=
          splitPair?_eq_some.mpr ⟨rfl, closed⟩
        simp only [segmentsFrom, opened, ended, placeholderName_eq_error.mpr misnamed]
  | @behind before after front rest action free formed meets ih =>
    obtain ⟨opened, closed⟩ := action_found free formed after
    cases actions with
    | zero => simp [Action.text] at enough
    | succ actions =>
      have shorter : after.length ≤ actions := by
        simp only [Action.text, List.length_append, List.length_cons] at enough
        omega
      have later := @ih actions (start + byteLength before + 2 + byteLength action.body + 2) shorter broken
      simp only [segmentsFrom, opened, closed, placeholderName_eq_ok.mpr ⟨action, formed, rfl, rfl⟩, later]
      rw [byteLength_append, byteLength_append, byteLength_action]
      simp only [Nat.add_assoc]

/-- A text is refused at the first action that is no placeholder. -/
theorem segments_eq_error : segments text = .error ⟨offset, fault⟩ ↔
    ∃ before rest, Meets text before rest ∧ Broken rest fault ∧ offset = (encode before).length := by
  constructor
  · intro refused
    obtain ⟨before, rest, meets, broken, rfl⟩ := broken_of_segmentsFrom (Nat.le_refl _) refused
    exact ⟨before, rest, meets, broken, by rw [Nat.zero_add, byteLength_encode]⟩
  · rintro ⟨before, rest, meets, broken, rfl⟩
    rw [segments, segmentsFrom_of_broken (Nat.le_refl _) meets broken, Nat.zero_add, byteLength_encode]

variable {values others : Json.Members} {found : List Segment} {name : String}

/-- The first of some names that has no value. -/
def lacking? (values : Json.Members) (names : List String) : Option String :=
  names.find? fun name => (values.get? name).isNone

theorem fill_lacking (values : Json.Members) (found : List Segment) :
    fault? (fill values found) = (lacking? values (placeholders found)).map .missingKey := by
  induction found with
  | nil => rfl
  | cons segment found ih =>
    rw [fill_cons_fault, ih]
    cases segment with
    | text content => rfl
    | placeholder name =>
      have names : placeholders (.placeholder name :: found) = String.ofList name :: placeholders found := rfl
      rw [names, fillSegment, lacking?, lacking?, List.find?_cons]
      cases values.get? (String.ofList name) <;> rfl

theorem fill_congr (same : ∀ name ∈ placeholders found, values.get? name = others.get? name) :
    fill values found = fill others found := by
  induction found with
  | nil => rfl
  | cons segment found ih =>
    cases segment with
    | text content =>
      rw [fill, fill, ih same]
      rfl
    | placeholder name =>
      have names : placeholders (.placeholder name :: found) = String.ofList name :: placeholders found := rfl
      rw [names, List.forall_mem_cons] at same
      rw [fill, fill, ih same.2, fillSegment, fillSegment, same.1]

theorem render_refused (body values : Json.Members) {cause : SegmentFault}
    (refused : segments (Json.object body).render = .error cause) : render body values = .error (.invalid cause) := by
  rw [render, refused]
  rfl

theorem render_cut (body values : Json.Members) (cut : segments (Json.object body).render = .ok found) :
    fault? (render body values) = (lacking? values (placeholders found)).map .missingKey := by
  have filled : render body values = (fill values found).map String.ofList := by
    rw [render, cut]
    rfl
  rw [filled, fault?_map, fill_lacking]

/-- A rendering fails for its text as cutting does, whatever the values are. -/
theorem render_invalid_iff {body values : Json.Members} {cause : SegmentFault} :
    render body values = .error (.invalid cause) ↔ segments (Json.object body).render = .error cause := by
  refine ⟨fun failed => ?_, render_refused body values⟩
  cases cut : segments (Json.object body).render with
  | error other =>
    rw [render_refused body values cut] at failed
    cases failed
    rfl
  | ok found =>
    have lacks := render_cut body values cut
    rw [failed] at lacks
    cases lacking : lacking? values (placeholders found) <;> rw [lacking] at lacks <;> cases lacks

theorem render_missingKey_iff {body values : Json.Members} :
    render body values = .error (.missingKey name) ↔
      ∃ found, segments (Json.object body).render = .ok found ∧ lacking? values (placeholders found) = some name := by
  constructor
  · intro failed
    cases cut : segments (Json.object body).render with
    | error cause =>
      rw [render_refused body values cut] at failed
      cases failed
    | ok found =>
      refine ⟨found, rfl, ?_⟩
      have lacks := render_cut body values cut
      rw [failed] at lacks
      obtain ⟨other, lacking, same⟩ := Option.map_eq_some_iff.mp lacks.symm
      cases same
      exact lacking
  · rintro ⟨found, cut, lacking⟩
    refine error_of_fault? ?_
    rw [render_cut body values cut, lacking]
    rfl

theorem render_ok_iff {body values : Json.Members} : (∃ message, render body values = .ok message) ↔
    ∃ found, segments (Json.object body).render = .ok found ∧ lacking? values (placeholders found) = none := by
  constructor
  · rintro ⟨message, rendered⟩
    cases cut : segments (Json.object body).render with
    | error cause =>
      rw [render_refused body values cut] at rendered
      cases rendered
    | ok found =>
      refine ⟨found, rfl, ?_⟩
      have lacks := render_cut body values cut
      rw [rendered] at lacks
      exact Option.map_eq_none_iff.mp lacks.symm
  · rintro ⟨found, cut, full⟩
    refine ok_of_fault? ?_
    rw [render_cut body values cut, full]
    rfl

/-- Rendering fails at the first action of a body that is no placeholder, or else for the first name
that has no value, and does not fail otherwise; and no values matter but those of the names. -/
theorem render_outcome (body values : Json.Members) :
    (∀ offset fault, render body values = .error (.invalid ⟨offset, fault⟩) ↔
      ∃ before rest, Meets (Json.object body).render before rest ∧ Broken rest fault ∧
        offset = (encode before).length) ∧
    (∀ name, render body values = .error (.missingKey name) ↔
      ∃ found earlier later, segments (Json.object body).render = .ok found ∧
        placeholders found = earlier ++ name :: later ∧ values.get? name = none ∧
          ∀ known ∈ earlier, values.get? known ≠ none) ∧
    ((∃ message, render body values = .ok message) ↔
      ∃ found, segments (Json.object body).render = .ok found ∧
        ∀ name ∈ placeholders found, values.get? name ≠ none) ∧
    ∀ others, (∀ found, segments (Json.object body).render = .ok found →
      ∀ name ∈ placeholders found, values.get? name = others.get? name) → render body values = render body others := by
  refine ⟨fun offset fault => ?_, fun name => ?_, ?_, fun others same => ?_⟩
  · exact render_invalid_iff.trans segments_eq_error
  · simp only [render_missingKey_iff, lacking?, List.find?_eq_some_iff_append, Option.isNone_iff_eq_none,
      Bool.not_eq_true', Option.isNone_eq_false_iff, ← Option.ne_none_iff_isSome]
    constructor
    · rintro ⟨found, cut, missing, earlier, later, names, known⟩
      exact ⟨found, earlier, later, cut, names, missing, known⟩
    · rintro ⟨found, earlier, later, cut, names, missing, known⟩
      exact ⟨found, cut, missing, earlier, later, names, known⟩
  · simp only [render_ok_iff, lacking?, List.find?_eq_none, Option.isNone_iff_eq_none, ne_eq]
  · cases cut : segments (Json.object body).render with
    | error cause => rw [render_refused body values cut, render_refused body others cut]
    | ok found =>
      rw [render, render, cut]
      change (fill values found).map String.ofList = (fill others found).map String.ofList
      rw [fill_congr (same found cut)]

/-- An action that is no placeholder counts before a name without a value, wherever that stands. -/
example : render [("a", .text "é\x7b\x7b.b\x7d\x7d\x7b\x7bc\x7d\x7d")] [] =
    .error (.invalid ⟨14, .notPlaceholder "c"⟩) := by decide +kernel

end MessagePress.Proofs.RenderOutcomes
