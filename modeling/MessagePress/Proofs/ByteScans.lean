import MessagePress.Proofs.ByteSlices
import MessagePress.Proofs.CallDiagnostics

/-! Scans of a text by its bytes. Calls and placeholders are looked for in slices between the places of
braces. Whatever characters stand around the braces, every slice is there, every round goes on by a
byte or by a whole action, and what is found is what is read of the text character by character. -/

namespace MessagePress.Proofs.ByteScans
open Text Template BracePairs Trimming CallGrammar ByteSlices
open CallDiagnostics (calls_iff readCall_eq_none)
open RenderOutcomes (byteLength_append byteLength_encode)

section
variable {text before inside rest after : List Char} {place start : ℕ}
  {outcome : Except CallFault (Option CallSpan)} {span : CallSpan}

/-- The byte of the first pair of equal characters. -/
def find? (c : Char) (text : List Char) : Option ℕ :=
  (splitPair? c text).map fun parts => byteLength parts.1

/-- Reads a call behind opening braces at byte `start`, from slices of the text. -/
def lexAt? (text : List Char) (start : ℕ) : Option (Except CallFault (Option CallSpan)) := do
  let rest ← sliceFrom? text (start + 2)
  match trimStart isAsciiBlank rest with
  | '@' :: _ =>
    match find? '}' rest with
    | none => return .error (.unterminated start)
    | some close =>
      let inside ← slice? rest 0 close
      let body ← sliceFrom? (trim isAsciiBlank inside) 1
      return (readBody body).map fun call => some ⟨call, start, start + 2 + close + 2⟩
  | _ => return .ok none

/-- One round from a byte on: the next opening braces, and what is read behind them. No slice of it
may be missing, and there is no round without opening braces. -/
def round? (text : List Char) (place : ℕ) :
    Option (Option (ℕ × Except CallFault (Option CallSpan))) := do
  let rest ← sliceFrom? text place
  match find? '{' rest with
  | none => return none
  | some offset => return some (place + offset, ← lexAt? text (place + offset))

theorem byteLength_braces (c : Char) (one : c.utf8Size = 1) (before after : List Char) :
    byteLength (before ++ c :: c :: after) = byteLength before + 2 + byteLength after := by
  rw [byteLength_append, byteLength, byteLength, one]
  omega

theorem sliceFrom?_braces (before rest : List Char) :
    sliceFrom? (before ++ '{' :: '{' :: rest) (byteLength before + 2) = some rest := by
  have sliced := sliceFrom?_append (before ++ ['{', '{']) rest
  rw [byteLength_braces '{' (by decide), byteLength, Nat.add_zero, List.append_assoc] at sliced
  exact sliced

/-- Where a call begins behind the blanks, its at sign is still there once the text has been cut at
the closing braces, and takes one byte. -/
theorem sliceFrom?_sign {behind : List Char}
    (started : trimStart isAsciiBlank (inside ++ '}' :: '}' :: after) = '@' :: behind) :
    sliceFrom? (trim isAsciiBlank inside) 1 = some ((trim isAsciiBlank inside).drop 1) := by
  obtain ⟨lead, rest_eq, leading⟩ := trimStart_cut isAsciiBlank (inside ++ '}' :: '}' :: after)
  rw [started] at rest_eq
  obtain ⟨inner, rfl⟩ := at_inside rfl leading rest_eq
  have sign : ∃ body, trim isAsciiBlank (lead ++ '@' :: inner) = '@' :: body := by
    have front : trimStart isAsciiBlank (lead ++ '@' :: inner) = '@' :: inner :=
      trimStart_eq leading (by simp [isAsciiBlank])
    obtain ⟨trail, whole, trailing⟩ := trimEnd_cut isAsciiBlank ('@' :: inner)
    rw [trim, front]
    cases kept : trimEnd isAsciiBlank ('@' :: inner) with
    | nil =>
      rw [kept, List.nil_append] at whole
      exact absurd (trailing '@' (whole ▸ List.mem_cons_self)) (by decide)
    | cons c body =>
      rw [kept] at whole
      cases whole
      exact ⟨body, rfl⟩
  obtain ⟨body, same⟩ := sign
  rw [same]
  exact sliceFrom?_append ['@'] body

theorem lexAt?_eq (before rest : List Char) :
    lexAt? (before ++ '{' :: '{' :: rest) (byteLength before) =
      some (readCall (byteLength before) rest) := by
  rw [lexAt?, sliceFrom?_braces]
  simp only [Option.bind_eq_bind, Option.bind_some]
  split
  next behind started =>
    simp only [readCall, started]
    rw [find?]
    cases cut : splitPair? '}' rest with
    | none => rfl
    | some parts =>
      obtain ⟨inside, after⟩ := parts
      obtain ⟨rfl, -⟩ := splitPair?_eq_some.mp cut
      simp only [Option.map_some, sliceTo?_append, Option.bind_some, sliceFrom?_sign started]
      rfl
  next foreign =>
    have none : readCall (byteLength before) rest = .ok none :=
      readCall_eq_none.mpr fun calls => (calls_iff.mp calls).elim foreign
    rw [none]
    rfl

theorem round?_eq (before after : List Char) :
    round? (before ++ after) (byteLength before) =
      some ((splitPair? '{' after).map fun parts =>
        (byteLength before + byteLength parts.1,
          readCall (byteLength before + byteLength parts.1) parts.2)) := by
  rw [round?, sliceFrom?_append]
  simp only [Option.bind_eq_bind, Option.bind_some, find?]
  cases opened : splitPair? '{' after with
  | none => rfl
  | some parts =>
    obtain ⟨front, rest⟩ := parts
    obtain ⟨rfl, -⟩ := splitPair?_eq_some.mp opened
    have lexed := lexAt?_eq (before ++ front) rest
    rw [byteLength_append, List.append_assoc] at lexed
    simp only [Option.map_some, lexed]
    rfl

theorem round?_found (found : round? text place = some (some (start, outcome))) :
    ∃ before rest, text = before ++ '{' :: '{' :: rest ∧ byteLength before = start ∧ place ≤ start ∧
      outcome = readCall start rest := by
  have sliced : ∃ after, sliceFrom? text place = some after := by
    rw [← Option.isSome_iff_exists, Option.isSome_iff_ne_none]
    intro missing
    rw [round?, missing] at found
    cases found
  obtain ⟨after, sliced⟩ := sliced
  obtain ⟨before, behind, rfl, rfl, -⟩ := slice?_eq_some.mp sliced
  rw [round?_eq, Option.some.injEq, Option.map_eq_some_iff] at found
  obtain ⟨⟨front, rest⟩, opened, same⟩ := found
  obtain ⟨opened, -⟩ := splitPair?_eq_some.mp opened
  cases same
  refine ⟨before ++ front, rest, ?_, byteLength_append .., Nat.le_add_right .., rfl⟩
  rw [opened, List.append_assoc]

theorem round?_advances (found : round? text place = some (some (start, outcome))) :
    place < start + 1 ∧ start + 1 < byteLength text := by
  obtain ⟨before, rest, rfl, rfl, later, -⟩ := round?_found found
  rw [byteLength_braces '{' (by decide)]
  omega

/-- Goes from round to round, one byte behind the opening braces of the last one, until a visit fails. -/
def scan? {σ ε : Type} (visit : σ → Except CallFault (Option CallSpan) → Except ε σ)
    (text : List Char) (place : ℕ) (state : σ) : Option (Except ε σ) :=
  match _found : round? text place with
  | none => none
  | some none => some (.ok state)
  | some (some (start, outcome)) =>
    match visit state outcome with
    | .error fault => some (.error fault)
    | .ok state => scan? visit text (start + 1) state
termination_by byteLength text - place
decreasing_by
  have advances := round?_advances _found
  omega

/-- Looks for the call that wins. Faults are passed over. -/
def findCall? (text : String) : Option (Option CallSpan) :=
  (scan? (fun best outcome => (.ok (winner best outcome) : Except Empty _)) text.toList 0 none).map
    fun | .ok best => best

/-- The call of a text, or else the first fault of a further scan. -/
def parseCall? (text : String) : Option (Except CallFault CallSpan) := do
  match ← findCall? text with
  | some span => return .ok span
  | none =>
    match ← scan? (fun () outcome => outcome.map fun _ => ()) text.toList 0 () with
    | .error fault => return .error fault
    | .ok () => return .error .noCall

theorem openings_free (start : ℕ) (free : PairFree '{' text) : openings start text = [] := by
  induction text generalizing start with
  | nil => rfl
  | cons c text ih =>
    obtain ⟨apart, free⟩ := pairFree_cons.mp free
    rw [openings, if_neg apart, ih _ free]

theorem openings_cut (start : ℕ) (free : PairFree '{' (before ++ ['{'])) :
    openings start (before ++ '{' :: '{' :: rest) =
      (start + byteLength before, rest) ::
        openings (start + byteLength before + 1) ('{' :: rest) := by
  induction before generalizing start with
  | nil => rfl
  | cons c before ih =>
    obtain ⟨apart, free⟩ := pairFree_cons.mp free
    have apart' : ¬(c = '{' ∧ (before ++ '{' :: '{' :: rest).head? = some '{') := by
      cases before <;> exact apart
    rw [List.cons_append, openings, if_neg apart', ih _ free, byteLength, Nat.add_assoc start]

section
variable {σ ε : Type} {visit : σ → Except CallFault (Option CallSpan) → Except ε σ} {state : σ}

theorem scan?_round {found : Option (ℕ × Except CallFault (Option CallSpan))} :
    round? text place = some found → scan? visit text place state =
      match found with
      | none => some (.ok state)
      | some (start, outcome) =>
        match visit state outcome with
        | .error fault => some (.error fault)
        | .ok state => scan? visit text (start + 1) state := by
  intro round
  rw [scan?]
  split
  next missing =>
    rw [round] at missing
    cases missing
  next done =>
    rw [round] at done
    cases done
    rfl
  next step =>
    rw [round] at step
    cases step
    rfl

/-- The rounds visit all openings in order. -/
theorem scan?_eq (before after : List Char) :
    scan? visit (before ++ after) (byteLength before) state =
      some ((readCallsFrom (byteLength before) after).foldlM visit state) := by
  rw [readCallsFrom_eq]
  -- A round goes on at the second brace: `after` loses all before it, at least the first brace.
  generalize size : after.length = length
  induction length using Nat.strong_induction_on generalizing before after state with
  | _ length ih =>
    have round := round?_eq before after
    cases opened : splitPair? '{' after with
    | none =>
      rw [opened] at round
      rw [scan?_round round, openings_free _ (splitPair?_eq_none.mp opened)]
      rfl
    | some parts =>
      obtain ⟨front, rest⟩ := parts
      rw [opened] at round
      obtain ⟨rfl, free⟩ := splitPair?_eq_some.mp opened
      rw [scan?_round round, openings_cut _ free, List.map_cons, List.foldlM_cons]
      dsimp only [Option.map_some]
      cases visit state (readCall (byteLength before + byteLength front) rest) with
      | error fault => rfl
      | ok state =>
        have later := @ih ('{' :: rest).length (by simp [← size]; omega) state
          (before ++ front ++ ['{']) ('{' :: rest) rfl
        rw [byteLength_append, byteLength_append, byteLength, byteLength, List.append_assoc,
          List.append_assoc] at later
        exact later

theorem scan?_whole (text : List Char) :
    scan? visit text 0 state = some ((readCallsFrom 0 text).foldlM visit state) :=
  scan?_eq [] text

end

theorem foldlM_winner (outcomes : List (Except CallFault (Option CallSpan))) (best : Option CallSpan) :
    outcomes.foldlM (fun best outcome => (.ok (winner best outcome) : Except Empty _)) best =
      .ok (outcomes.foldl winner best) := by
  induction outcomes generalizing best with
  | nil => rfl
  | cons outcome outcomes ih => exact ih (winner best outcome)

theorem foldlM_check (start : ℕ) (text : List Char) :
    (readCallsFrom start text).foldlM (fun () outcome => outcome.map fun _ => ()) () =
      checkCallsFrom start text := by
  induction text generalizing start with
  | nil => rfl
  | cons c text ih =>
    rw [readCallsFrom, checkCallsFrom]
    split
    next =>
      rw [List.foldlM_cons]
      cases readCall start (text.drop 1) with
      | error fault => rfl
      | ok found => exact ih _
    next => exact ih _

theorem findCall?_eq (text : String) : findCall? text = some (findCall text) := by
  rw [findCall?, scan?_whole, foldlM_winner]
  rfl

theorem parseCall?_eq (text : String) : parseCall? text = some (parseCall text) := by
  rw [parseCall?, findCall?_eq, parseCall, scan?_whole, foldlM_check]
  simp only [Option.bind_eq_bind, Option.bind_some]
  cases findCall text with
  | some span => rfl
  | none => cases checkCallsFrom 0 text.toList <;> rfl

end

section
variable {text rest : List Char} {offset : ℕ} {fault : SegmentFault}

/-- An action that was cut off a text together with what stands before it: their segments, their
bytes, and what is left of the text. -/
structure Cutting where
  segments : List Segment
  consumed : ℕ
  rest : List Char

/-- The text before an action, unless there is none. -/
def textBefore? (text : List Char) (opening : ℕ) : Option (List Segment) :=
  if 0 < opening then (slice? text 0 opening).map fun content => [.text content] else some []

/-- One round: cuts off the first action of a text that starts at byte `offset`. -/
def cut? (text : List Char) (offset : ℕ) : Option (Option (Except SegmentFault Cutting)) :=
  match find? '{' text with
  | none => return none
  | some opening => do
    let before ← textBefore? text opening
    let behind ← sliceFrom? text (opening + 2)
    match find? '}' behind with
    | none => return some (.error ⟨offset + opening, .unclosed⟩)
    | some close =>
      let body ← slice? behind 0 close
      match placeholderName body with
      | .error fault => return some (.error ⟨offset + opening, fault⟩)
      | .ok name =>
        let consumed := opening + 2 + close + 2
        let rest ← sliceFrom? text consumed
        return some (.ok ⟨before ++ [.placeholder name], consumed, rest⟩)

theorem textBefore?_eq (before after : List Char) :
    textBefore? (before ++ after) (byteLength before) = some (textSegment before) := by
  cases before with
  | nil => rfl
  | cons c before =>
    rw [textBefore?, if_pos (byteLength_pos c before), sliceTo?_append]
    rfl

theorem byteLength_braced (before body after : List Char) :
    byteLength (before ++ '{' :: '{' :: (body ++ '}' :: '}' :: after)) =
      byteLength before + 2 + byteLength body + 2 + byteLength after := by
  rw [byteLength_braces '{' (by decide), byteLength_braces '}' (by decide)]
  omega

theorem sliceFrom?_braced (before body after : List Char) :
    sliceFrom? (before ++ '{' :: '{' :: (body ++ '}' :: '}' :: after))
      (byteLength before + 2 + byteLength body + 2) = some after := by
  refine slice?_eq_some.mpr ⟨before ++ '{' :: '{' :: (body ++ ['}', '}']), [], by simp, ?_, ?_⟩
  · exact byteLength_braced before body []
  · exact (byteLength_braced before body after).symm

theorem cut?_eq (text : List Char) (offset : ℕ) : cut? text offset =
    some ((splitPair? '{' text).map fun opened =>
      match splitPair? '}' opened.2 with
      | none => .error ⟨offset + byteLength opened.1, .unclosed⟩
      | some closed =>
        match placeholderName closed.1 with
        | .error fault => .error ⟨offset + byteLength opened.1, fault⟩
        | .ok name => .ok ⟨textSegment opened.1 ++ [.placeholder name],
            byteLength opened.1 + 2 + byteLength closed.1 + 2, closed.2⟩) := by
  rw [cut?, find?]
  cases opened : splitPair? '{' text with
  | none => rfl
  | some parts =>
    obtain ⟨before, behind⟩ := parts
    obtain ⟨rfl, -⟩ := splitPair?_eq_some.mp opened
    simp only [Option.map_some, textBefore?_eq, Option.bind_eq_bind, Option.bind_some,
      sliceFrom?_braces, find?]
    cases closed : splitPair? '}' behind with
    | none => rfl
    | some parts =>
      obtain ⟨body, after⟩ := parts
      obtain ⟨rfl, -⟩ := splitPair?_eq_some.mp closed
      simp only [Option.map_some, sliceTo?_append, Option.bind_some]
      cases placeholderName body with
      | error fault => rfl
      | ok name =>
        simp only [sliceFrom?_braced, Option.bind_some]
        rfl

theorem cut?_cutting {cutting : Cutting} (cut : cut? text offset = some (some (.ok cutting))) :
    ∃ before body, text = before ++ '{' :: '{' :: (body ++ '}' :: '}' :: cutting.rest) ∧
      PairFree '{' (before ++ ['{']) ∧ PairFree '}' (body ++ ['}']) ∧
      cutting.consumed = byteLength before + 2 + byteLength body + 2 := by
  rw [cut?_eq, Option.some.injEq, Option.map_eq_some_iff] at cut
  obtain ⟨⟨before, behind⟩, opened, cut⟩ := cut
  obtain ⟨rfl, free⟩ := splitPair?_eq_some.mp opened
  split at cut
  next => cases cut
  next parts closed =>
    obtain ⟨body, after⟩ := parts
    obtain ⟨rfl, free'⟩ := splitPair?_eq_some.mp closed
    split at cut
    next => cases cut
    next =>
      cases cut
      exact ⟨before, body, rfl, free, free', rfl⟩

theorem cut?_fault (cut : cut? text offset = some (some (.error fault))) :
    ∃ before behind, text = before ++ '{' :: '{' :: behind ∧
      fault.offset = offset + byteLength before := by
  rw [cut?_eq, Option.some.injEq, Option.map_eq_some_iff] at cut
  obtain ⟨⟨before, behind⟩, opened, cut⟩ := cut
  obtain ⟨rfl, -⟩ := splitPair?_eq_some.mp opened
  refine ⟨before, behind, rfl, ?_⟩
  split at cut
  next => cases cut; rfl
  next =>
    split at cut
    next => cases cut; rfl
    next => cases cut

theorem cut?_advances {cutting : Cutting} (cut : cut? text offset = some (some (.ok cutting))) :
    4 ≤ cutting.consumed ∧ byteLength cutting.rest + cutting.consumed = byteLength text := by
  obtain ⟨before, body, rfl, -, -, consumed⟩ := cut?_cutting cut
  rw [byteLength_braced, consumed]
  omega

/-- Goes from action to action. -/
def segmentsFrom? (text : List Char) (offset : ℕ) : Option (Except SegmentFault (List Segment)) :=
  match _cut : cut? text offset with
  | none => none
  | some none => some (.ok (textSegment text))
  | some (some (.error fault)) => some (.error fault)
  | some (some (.ok cutting)) =>
    (segmentsFrom? cutting.rest (offset + cutting.consumed)).map fun found =>
      found.map (cutting.segments ++ ·)
termination_by byteLength text
decreasing_by
  have advances := cut?_advances _cut
  omega

theorem segmentsFrom?_round {found : Option (Except SegmentFault Cutting)} :
    cut? text offset = some found → segmentsFrom? text offset =
      match found with
      | none => some (.ok (textSegment text))
      | some (.error fault) => some (.error fault)
      | some (.ok cutting) =>
        (segmentsFrom? cutting.rest (offset + cutting.consumed)).map fun found =>
          found.map (cutting.segments ++ ·) := by
  intro round
  rw [segmentsFrom?]
  split
  next missing =>
    rw [round] at missing
    cases missing
  next done =>
    rw [round] at done
    cases done
    rfl
  next refused =>
    rw [round] at refused
    cases refused
    rfl
  next cut =>
    rw [round] at cut
    cases cut
    rfl

theorem segmentsFrom?_eq {actions : ℕ} (enough : text.length ≤ actions) :
    segmentsFrom? text offset = some (segmentsFrom actions offset text) := by
  induction actions generalizing text offset with
  | zero =>
    obtain rfl := List.eq_nil_of_length_eq_zero (Nat.le_zero.mp enough)
    rw [segmentsFrom?]
    rfl
  | succ actions ih =>
    have round := cut?_eq text offset
    rw [segmentsFrom]
    cases opened : splitPair? '{' text with
    | none =>
      rw [opened] at round
      exact segmentsFrom?_round round
    | some parts =>
      obtain ⟨before, behind⟩ := parts
      obtain ⟨rfl, -⟩ := splitPair?_eq_some.mp opened
      simp only [opened, Option.map_some] at round
      dsimp only
      cases closed : splitPair? '}' behind with
      | none =>
        rw [closed] at round
        exact segmentsFrom?_round round
      | some parts =>
        obtain ⟨body, after⟩ := parts
        obtain ⟨rfl, -⟩ := splitPair?_eq_some.mp closed
        simp only [closed] at round
        dsimp only
        cases named : placeholderName body with
        | error fault =>
          rw [named] at round
          exact segmentsFrom?_round round
        | ok name =>
          rw [named] at round
          have shorter : after.length ≤ actions := by
            simp only [List.length_append, List.length_cons] at enough
            omega
          have place : offset + (byteLength before + 2 + byteLength body + 2) =
              offset + byteLength before + 2 + byteLength body + 2 := by omega
          rw [segmentsFrom?_round round]
          dsimp only
          rw [ih shorter, place]
          cases segmentsFrom actions (offset + byteLength before + 2 + byteLength body + 2) after with
          | error fault => rfl
          | ok found =>
            simp only [Option.map_some, Except.map, List.append_assoc, List.singleton_append]

def inserted? (value : Json) : Option (List Char) :=
  let quoted := Json.quote (String.ofList (insertedText value))
  if 1 ≤ byteLength quoted then slice? quoted 1 (byteLength quoted - 1) else none

theorem inserted?_eq (value : Json) : inserted? value = some (Json.escape (insertedText value)) := by
  have quoted : Json.quote (String.ofList (insertedText value)) =
      ['"'] ++ (Json.escape (insertedText value) ++ ['"']) := by
    rw [Json.quote, String.toList_ofList]
    rfl
  have quote : byteLength ['"'] = 1 := by decide
  rw [inserted?, quoted, byteLength_append, byteLength_append, quote]
  rw [if_pos (by omega)]
  exact slice?_eq_some.mpr ⟨['"'], ['"'], rfl, quote, by omega⟩

end

/-- Opening braces begin at the byte. -/
def OpensAt (text : List Char) (start : ℕ) : Prop :=
  ∃ rest, sliceFrom? text start = some ('{' :: '{' :: rest)

/-- Between the bytes stand opening braces and what follows them, with the first closing braces. -/
def Encloses (text : List Char) (start stop : ℕ) : Prop :=
  ∃ inside, slice? text start stop = some ('{' :: '{' :: (inside ++ ['}', '}'])) ∧
    PairFree '}' (inside ++ ['}'])

section
variable {text : String} {span : CallSpan} {start : ℕ}

theorem opensAt_append (before rest : List Char) :
    OpensAt (before ++ '{' :: '{' :: rest) (byteLength before) := ⟨rest, sliceFrom?_append ..⟩

theorem encloses_append (before after : List Char) {inside : List Char}
    (free : PairFree '}' (inside ++ ['}'])) :
    Encloses (before ++ '{' :: '{' :: (inside ++ '}' :: '}' :: after)) (byteLength before)
      (byteLength before + 2 + byteLength inside + 2) := by
  refine ⟨inside, slice?_eq_some.mpr ⟨before, after, by simp, rfl, ?_⟩, free⟩
  have length := byteLength_braced [] inside []
  rw [List.nil_append, byteLength] at length
  rw [length]
  omega

theorem winner_mem {best : Option CallSpan} {outcomes : List (Except CallFault (Option CallSpan))}
    (won : outcomes.foldl winner best = some span) : best = some span ∨ .ok (some span) ∈ outcomes := by
  induction outcomes generalizing best with
  | nil => exact Or.inl won
  | cons outcome outcomes ih =>
    rcases ih won with held | later
    · rcases outcome with fault | _ | other
      · exact Or.inl held
      · exact Or.inl held
      · cases best with
        | none =>
          cases held
          exact Or.inr List.mem_cons_self
        | some current =>
          rw [winner] at held
          by_cases wins : other.call.rank < current.call.rank
          · rw [if_pos wins] at held
            cases held
            exact Or.inr List.mem_cons_self
          · rw [if_neg wins] at held
            exact Or.inl held
    · exact Or.inr (List.mem_cons_of_mem _ later)

theorem findCall_encloses (found : findCall text = some span) :
    Encloses text.toList span.start span.stop := by
  obtain none | member := winner_mem found
  · cases none
  · have written : Written text span :=
      mem_spans_readCalls.mp (List.mem_filterMap.mpr ⟨_, member, rfl⟩)
    obtain ⟨before, inside, after, whole, free, -, starts, stops⟩ := written
    rw [whole, stops, starts, ← byteLength_eq, ← byteLength_eq]
    exact encloses_append before after free

theorem parseCall_encloses (parsed : parseCall text = .ok span) :
    Encloses text.toList span.start span.stop := by
  rw [CallDiagnostics.parseCall_eq] at parsed
  cases found : findCall text with
  | none => rw [found] at parsed; cases parsed
  | some other =>
    rw [found] at parsed
    cases parsed
    exact findCall_encloses found

theorem unterminated_place {place : ℕ} {rest : List Char}
    (malformed : CallDiagnostics.Malformed place rest (.unterminated start)) :
    start = place ∧ PairFree '}' rest := by
  cases malformed with
  | unterminated calls free => exact ⟨rfl, free⟩
  | refused after closed parted refused => cases refused

theorem parseCall_opens (refused : parseCall text = .error (.unterminated start)) :
    OpensAt text.toList start := by
  rw [CallDiagnostics.parseCall_eq] at refused
  cases found : findCall text with
  | some other => rw [found] at refused; cases refused
  | none =>
    rw [found] at refused
    cases listed : (CallDiagnostics.failures text).head? with
    | none => rw [listed] at refused; cases refused
    | some failure =>
      obtain ⟨place, fault⟩ := failure
      rw [listed] at refused
      cases refused
      obtain ⟨rest, opens, malformed⟩ := CallDiagnostics.mem_failures.mp (List.mem_of_head? listed)
      obtain ⟨before, whole, rfl, -⟩ := opens
      rw [whole, (unterminated_place malformed).1, ← byteLength_eq]
      exact opensAt_append before rest

end

/-- The scans for calls. From any boundary on a round has its slices, and the next one starts at a
boundary at least one byte behind it, still in the text. -/
structure CallScans (text : String) : Prop where
  begins : isBoundary text.toList 0
  sliced : ∀ place, isBoundary text.toList place → ∃ found, round? text.toList place = some found
  advances : ∀ place start outcome, round? text.toList place = some (some (start, outcome)) →
    place < start + 1 ∧ start + 1 < byteLength text.toList ∧ isBoundary text.toList (start + 1)
  opened : ∀ place start outcome, round? text.toList place = some (some (start, outcome)) →
    ∃ rest, sliceFrom? text.toList start = some ('{' :: '{' :: rest) ∧ outcome = readCall start rest
  token : ∀ place start span, round? text.toList place = some (some (start, .ok (some span))) →
    span.start = start ∧ Encloses text.toList span.start span.stop
  unterminated : ∀ place start offset,
    round? text.toList place = some (some (start, .error (.unterminated offset))) →
      offset = start ∧ OpensAt text.toList offset
  shown : ∀ start stop part, slice? text.toList start stop = some part →
    slice text start stop = String.ofList part
  found : findCall? text = some (findCall text)
  parsed : parseCall? text = some (parseCall text)
  foundToken : ∀ span, findCall text = some span → Encloses text.toList span.start span.stop
  parsedToken : ∀ span, parseCall text = .ok span → Encloses text.toList span.start span.stop
  parsedOffset : ∀ start, parseCall text = .error (.unterminated start) → OpensAt text.toList start

theorem callScans (text : String) : CallScans text where
  begins := boundary_iff.mpr ⟨[], _, rfl, rfl⟩
  sliced := by
    intro place boundary
    obtain ⟨before, after, whole, rfl⟩ := boundary_iff.mp boundary
    rw [whole]
    exact ⟨_, round?_eq before after⟩
  advances := by
    intro place start outcome round
    obtain ⟨before, rest, whole, rfl, -⟩ := round?_found round
    refine ⟨(round?_advances round).1, (round?_advances round).2, boundary_iff.mpr ?_⟩
    exact ⟨before ++ ['{'], '{' :: rest, by rw [whole, List.append_assoc]; rfl, byteLength_append ..⟩
  opened := by
    intro place start outcome round
    obtain ⟨before, rest, whole, rfl, -, read⟩ := round?_found round
    rw [whole]
    exact ⟨rest, sliceFrom?_append .., read⟩
  token := by
    intro place start span round
    obtain ⟨before, rest, whole, rfl, -, read⟩ := round?_found round
    obtain ⟨inside, after, rfl, free, -, starts, stops⟩ := readCall_eq_ok.mp read.symm
    refine ⟨starts, ?_⟩
    rw [whole, starts, stops]
    exact encloses_append before after free
  unterminated := by
    intro place start offset round
    obtain ⟨before, rest, whole, rfl, -, read⟩ := round?_found round
    obtain ⟨rfl, -⟩ := unterminated_place (CallDiagnostics.readCall_eq_error.mp read.symm)
    rw [whole]
    exact ⟨rfl, opensAt_append before rest⟩
  shown := fun _ _ _ => slice_eq
  found := findCall?_eq text
  parsed := parseCall?_eq text
  foundToken := fun _ => findCall_encloses
  parsedToken := fun _ => parseCall_encloses
  parsedOffset := fun _ => parseCall_opens

/-- The scan for placeholders, which goes on with what is left of its text. A round has its slices,
and takes off a whole action with what stands before it. -/
structure ActionScans (text : List Char) : Prop where
  sliced : ∀ offset, ∃ found, cut? text offset = some found
  advances : ∀ offset cutting, cut? text offset = some (some (.ok cutting)) →
    ∃ before body, text = before ++ '{' :: '{' :: (body ++ '}' :: '}' :: cutting.rest) ∧
      PairFree '{' (before ++ ['{']) ∧ PairFree '}' (body ++ ['}']) ∧
      cutting.consumed = byteLength before + 2 + byteLength body + 2
  left : ∀ front cutting, cut? text (byteLength front) = some (some (.ok cutting)) →
    sliceFrom? (front ++ text) (byteLength front + cutting.consumed) = some cutting.rest
  refused : ∀ front fault, cut? text (byteLength front) = some (some (.error fault)) →
    OpensAt (front ++ text) fault.offset
  cut : segmentsFrom? text 0 = some (segments text)
  offset : ∀ fault, segments text = .error fault → OpensAt text fault.offset

theorem meets_whole {text before rest : List Char} (meets : RenderOutcomes.Meets text before rest) :
    text = before ++ '{' :: '{' :: rest := by
  induction meets with
  | first free => rfl
  | behind free formed meets ih => simp only [ih, List.append_assoc]

theorem actionScans (text : List Char) : ActionScans text where
  sliced := fun offset => ⟨_, cut?_eq text offset⟩
  advances := fun _ _ => cut?_cutting
  left := by
    intro front cutting cut
    obtain ⟨before, body, rfl, -, -, consumed⟩ := cut?_cutting cut
    have sliced := sliceFrom?_braced (front ++ before) body cutting.rest
    rw [byteLength_append, List.append_assoc] at sliced
    rw [consumed, ← sliced]
    congr 1
    omega
  refused := by
    intro front fault cut
    obtain ⟨before, behind, rfl, offset⟩ := cut?_fault cut
    rw [offset, ← byteLength_append, ← List.append_assoc]
    exact opensAt_append (front ++ before) behind
  cut := segmentsFrom?_eq (Nat.le_refl _)
  offset := by
    rintro ⟨offset, fault⟩ refused
    obtain ⟨before, rest, meets, -, rfl⟩ := RenderOutcomes.segments_eq_error.mp refused
    rw [meets_whole meets, ← byteLength_encode]
    exact opensAt_append before rest

/-- Whatever characters a text has, its scans find all the slices they take, come to their ends, and
tell bytes where the text can be sliced: at opening braces, and behind the first closing ones. -/
theorem slices_defined (text : String) (value : Json) :
    CallScans text ∧ ActionScans text.toList ∧
      inserted? value = some (Json.escape (insertedText value)) :=
  ⟨callScans text, actionScans text.toList, inserted?_eq value⟩

/-- A byte inside a character is no place to slice, and the braces behind it are found beyond it. -/
example : slice? "é\x7b\x7b@guid\x7d\x7d".toList 1 3 = none ∧
    findCall? "é\x7b\x7b\x7b@guid\x7d\x7d" = some (some ⟨.guid, 3, 12⟩) := by
  decide +kernel

end MessagePress.Proofs.ByteScans
