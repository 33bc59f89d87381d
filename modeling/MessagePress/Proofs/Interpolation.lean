import MessagePress.Proofs.JsonLayout
import MessagePress.Proofs.PlaceholderCuts

/-! Rendering as a walk over the body. The text of a body is cut and filled without a look at
its structure, yet the result is the text of the body with every key and every string
interpolated on its own: no placeholder reaches beyond the string that it begins in. -/

namespace MessagePress.Proofs.Interpolation
open Template Text BracePairs PlaceholderCuts StringEscapes NumberTexts JsonLayout PartialRuns
open Json (escape)

/-- The name of the placeholder that a string begins with, and what follows it. -/
def leadingPlaceholder? : List Char → Option (List Char × List Char)
  | '{' :: '{' :: inside =>
    match inside.dropWhile (· == ' ') with
    | '.' :: named =>
      match (named.dropWhile isNameChar).dropWhile (· == ' ') with
      | '}' :: '}' :: after =>
        if named.takeWhile isNameChar = [] then none
        else some (named.takeWhile isNameChar, after)
      | _ => none
    | _ => none
  | _ => none

theorem leadingPlaceholder?_shorter {text name after : List Char}
    (found : leadingPlaceholder? text = some (name, after)) : after.length < text.length := by
  unfold leadingPlaceholder? at found
  split at found
  next inside =>
    split at found
    next named dotted =>
      split at found
      next rest closed =>
        split at found
        · cases found
        · cases found
          have first := List.length_dropWhile_le (· == ' ') inside
          have second := List.length_dropWhile_le isNameChar named
          have third := List.length_dropWhile_le (· == ' ') (named.dropWhile isNameChar)
          rw [dotted] at first
          rw [closed] at third
          simp only [List.length_cons] at *
          omega
      next => cases found
    next => cases found
  next => cases found

/-- What a value shows in place of its placeholder: a text itself, another value its compact
text. -/
def shown : Json → String
  | .text content => content
  | value => value.compact

/-- A string with its placeholders replaced in one pass from left to right. What was inserted
is not looked at again; there is no result where a name has no value. -/
def interpolate (values : Json.Members) : List Char → Option (List Char)
  | [] => some []
  | c :: rest =>
    match _leading : leadingPlaceholder? (c :: rest) with
    | none => (interpolate values rest).map (c :: ·)
    | some (name, after) => do
      let value ← values.get? (String.ofList name)
      let later ← interpolate values after
      return (shown value).toList ++ later
termination_by text => text.length
decreasing_by
  · simp
  · exact leadingPlaceholder?_shorter _leading

def interpolateText (values : Json.Members) (text : String) : Option String :=
  (interpolate values text.toList).map String.ofList

mutual

def interpolateValue (values : Json.Members) : Json → Option Json
  | .null => some .null
  | .bool value => some (.bool value)
  | .number value => some (.number value)
  | .text content => (interpolateText values content).map .text
  | .array items => (interpolateItems values items).map .array
  | .object members => (interpolateMembers values members).map .object

def interpolateItems (values : Json.Members) : List Json → Option (List Json)
  | [] => some []
  | item :: rest => do
    let item ← interpolateValue values item
    let rest ← interpolateItems values rest
    return item :: rest

def interpolateMembers (values : Json.Members) :
    List (String × Json) → Option (List (String × Json))
  | [] => some []
  | (name, value) :: rest => do
    let name ← interpolateText values name
    let value ← interpolateValue values value
    let rest ← interpolateMembers values rest
    return (name, value) :: rest

end

variable {values : Json.Members}

private theorem leading_of_pair {c : Char} {rest : List Char} {found}
    (leading : leadingPlaceholder? (c :: rest) = some found) :
    c = '{' ∧ rest.head? = some '{' := by
  unfold leadingPlaceholder? at leading
  split at leading
  next same =>
    obtain ⟨rfl, rfl⟩ := List.cons.inj same
    exact ⟨rfl, rfl⟩
  next => cases leading

theorem interpolate_free {text : List Char} (free : PairFree '{' text) :
    interpolate values text = some text := by
  induction text with
  | nil => rw [interpolate]
  | cons c rest ih =>
    obtain ⟨apart, free⟩ := pairFree_cons.mp free
    rw [interpolate]
    split
    next => simp [ih free]
    next found => exact absurd (leading_of_pair found) apart

theorem interpolate_behind {text rest : List Char} (free : PairFree '{' (text ++ ['{'])) :
    interpolate values (text ++ rest) = (interpolate values rest).map (text ++ ·) := by
  induction text with
  | nil => simp
  | cons c text ih =>
    obtain ⟨apart, free⟩ := pairFree_cons.mp free
    rw [List.cons_append, interpolate]
    split
    next => simp [ih free, Function.comp_def]
    next found =>
      obtain ⟨rfl, next⟩ := leading_of_pair found
      refine absurd ⟨rfl, ?_⟩ apart
      cases text with
      | nil => rfl
      | cons second text => exact next

theorem plain_blank {c : Char} (plain : IsPlain c) (blank : isAsciiBlank c = true) :
    c = ' ' := by
  simp only [isAsciiBlank, Bool.or_eq_true, beq_iff_eq] at blank
  obtain (((rfl | rfl) | rfl) | rfl) | rfl := blank
  · rfl
  all_goals exact absurd plain.2.2 (by decide)

theorem leadingPlaceholder?_action {action : Action} (formed : action.WellFormed)
    (plain : ∀ c ∈ action.text, IsPlain c) (after : List Char) :
    leadingPlaceholder? (action.text ++ after) = some (action.name, after) := by
  have body : ∀ c ∈ action.body, IsPlain c := fun c member => plain c (by simp [Action.text, member])
  have lead : ∀ c ∈ action.lead, (c == ' ') = true := fun c member => by
    simpa using plain_blank (body c (by simp [Action.body, member])) (formed.lead c member)
  have trail : ∀ c ∈ action.trail, (c == ' ') = true := fun c member => by
    simpa using plain_blank (body c (by simp [Action.body, member])) (formed.trail c member)
  have dotted : (action.body ++ '}' :: '}' :: after).dropWhile (· == ' ') =
      '.' :: (action.name ++ (action.trail ++ '}' :: '}' :: after)) := by
    rw [Action.body, List.append_assoc, List.dropWhile_append_of_pos lead]
    simp
  have stop : isNameChar ((action.trail ++ ['}']).headD '}') = false := by
    cases blanks : action.trail with
    | nil => rfl
    | cons c rest =>
      have space : c = ' ' := by simpa using trail c (by simp [blanks])
      subst space
      rfl
  have named : (action.name ++ (action.trail ++ '}' :: '}' :: after)).takeWhile isNameChar =
      action.name := by
    rw [List.takeWhile_append_of_pos formed.legal]
    cases blanks : action.trail <;> simp_all
  have unnamed : (action.name ++ (action.trail ++ '}' :: '}' :: after)).dropWhile isNameChar =
      action.trail ++ '}' :: '}' :: after := by
    rw [List.dropWhile_append_of_pos formed.legal]
    cases blanks : action.trail <;> simp_all
  have closed : (action.trail ++ '}' :: '}' :: after).dropWhile (· == ' ') = '}' :: '}' :: after := by
    rw [List.dropWhile_append_of_pos trail]
    simp
  have text : action.text ++ after = '{' :: '{' :: (action.body ++ '}' :: '}' :: after) := by
    simp [Action.text]
  simp only [text, leadingPlaceholder?, dotted, unnamed, closed, named]
  rw [if_neg formed.named]

private theorem insertedText_eq (value : Json) : insertedText value = (shown value).toList := by
  cases value <;> simp [insertedText, shown, Json.compact]

theorem interpolate_action {action : Action} (formed : action.WellFormed)
    (plain : ∀ c ∈ action.text, IsPlain c) {value : Json}
    (known : values.get? (String.ofList action.name) = some value) (after : List Char) :
    interpolate values (action.text ++ after) =
      (interpolate values after).map ((shown value).toList ++ ·) := by
  have leading := leadingPlaceholder?_action formed plain after
  rw [Action.text, List.cons_append] at leading ⊢
  rw [interpolate]
  split
  next missing => rw [leading] at missing; cases missing
  next name rest found =>
    rw [leading] at found
    cases found
    cases interpolate values after <;> simp [known]

theorem unescaped_action {text before after : List Char} {action : Action}
    (formed : action.WellFormed) (same : escape text = before ++ (action.text ++ after)) :
    ∃ front back, text = front ++ (action.text ++ back) ∧ escape front = before ∧
      escape back = after ∧ ∀ c ∈ action.text, IsPlain c := by
  obtain ⟨front, behind, rfl, rfl, inside⟩ := escape_brace same
  have bare : '\\' ∉ '{' :: (action.body ++ ['}', '}']) := fun member =>
    absurd (formed.text_char '\\' (List.mem_cons_of_mem _ member)) (by decide)
  obtain ⟨back, rfl, rfl, plain⟩ := escape_front bare inside
  refine ⟨front, back, rfl, rfl, rfl, List.forall_mem_cons.mpr ⟨?_, plain⟩⟩
  exact ⟨by decide, by decide, by decide⟩

/-- An escaped string is filled as the string itself is interpolated. -/
theorem interpolate_of_rewritten {text result : List Char}
    (rewritten : Rewritten (filling values) (escape text) result) :
    ∃ filled, interpolate values text = some filled ∧ result = escape filled := by
  generalize whole : escape text = source at rewritten
  induction rewritten generalizing text with
  | plain free =>
    subst whole
    exact ⟨text, interpolate_free (pairFree_of_escape free), rfl⟩
  | @action before action after value result first formed inserted rest ih =>
    obtain ⟨front, back, rfl, rfl, rfl, plain⟩ := unescaped_action formed whole
    obtain ⟨filled, interpolated, rfl⟩ := ih rfl
    obtain ⟨found, known, rfl⟩ := Option.map_eq_some_iff.mp inserted
    have free : PairFree '{' (front ++ ['{']) := by
      apply pairFree_of_escape
      simpa [Json.escapeChar] using first
    refine ⟨front ++ ((shown found).toList ++ filled), ?_, by simp [insertedText_eq]⟩
    rw [interpolate_behind free, interpolate_action formed plain known, interpolated]
    rfl

variable {rest result : List Char}

private theorem rewritten_quote {text : String}
    (rewritten : Rewritten (filling values) (Json.quote text ++ rest) result) :
    ∃ filled later, interpolateText values text = some filled ∧
      result = Json.quote filled ++ later ∧ Rewritten (filling values) rest later := by
  have opened : Json.quote text ++ rest = ['"'] ++ (escape text.toList ++ '"' :: rest) := by
    simp [Json.quote]
  rw [opened] at rewritten
  obtain ⟨inner, rfl, remaining⟩ := rewritten.behind (by simp [pairFree_cons])
  have outside : isActionChar '"' = false := by decide
  obtain ⟨front, later, rfl, inside, behind⟩ := remaining.separated outside
  obtain ⟨filled, interpolated, rfl⟩ := interpolate_of_rewritten inside
  exact ⟨String.ofList filled, later, by simp [interpolateText, interpolated],
    by simp [Json.quote], behind⟩

private theorem rewritten_marks {marks : List Char} (absent : '{' ∉ marks)
    (rewritten : Rewritten (filling values) (marks ++ rest) result) :
    ∃ later, result = marks ++ later ∧ Rewritten (filling values) rest later :=
  rewritten.behind (pairFree_concat absent)

private theorem rewritten_brace
    (rewritten : Rewritten (filling values) ('{' :: '"' :: rest) result) :
    ∃ later, result = '{' :: later ∧ Rewritten (filling values) ('"' :: rest) later := by
  have opened : '{' :: '"' :: rest = ['{', '"'] ++ rest := rfl
  rw [opened] at rewritten
  obtain ⟨later, rfl, behind⟩ := rewritten.behind (by simp [pairFree_cons])
  have quoted : Rewritten (filling values) (['"'] ++ rest) (['"'] ++ later) :=
    behind.prepend (by simp [pairFree_cons])
  exact ⟨'"' :: later, rfl, quoted⟩

private theorem members_quoted (member : String × Json) (rest : List (String × Json)) :
    ∃ text, Json.commaSeparated (Json.renderMembers (member :: rest)) = '"' :: text := by
  obtain ⟨name, value⟩ := member
  cases rest with
  | nil => exact ⟨_, rfl⟩
  | cons next rest => exact ⟨_, rfl⟩

private theorem interpolateItems_cons {item : Json} {items filled : List Json}
    (interpolated : interpolateItems values (item :: items) = some filled) :
    ∃ first others, filled = first :: others := by
  simp only [interpolateItems, Option.bind_eq_bind, Option.bind_eq_some_iff] at interpolated
  obtain ⟨first, -, others, -, same⟩ := interpolated
  cases same
  exact ⟨first, others, rfl⟩

private theorem interpolateMembers_cons {member : String × Json}
    {members filled : List (String × Json)}
    (interpolated : interpolateMembers values (member :: members) = some filled) :
    ∃ first others, filled = first :: others := by
  obtain ⟨name, value⟩ := member
  simp only [interpolateMembers, Option.bind_eq_bind, Option.bind_eq_some_iff] at interpolated
  obtain ⟨name, -, value, -, others, -, same⟩ := interpolated
  cases same
  exact ⟨(name, value), others, rfl⟩

mutual

/-- Filling goes through a value and leaves what follows it to itself. -/
theorem rewritten_value : (value : Json) → {rest result : List Char} →
    Rewritten (filling values) (value.render ++ rest) result →
    ∃ filled later, interpolateValue values value = some filled ∧
      result = filled.render ++ later ∧ Rewritten (filling values) rest later
  | .null, rest, result, rewritten => by
    obtain ⟨later, rfl, behind⟩ := rewritten_marks (by decide) rewritten
    exact ⟨.null, later, rfl, rfl, behind⟩
  | .bool value, rest, result, rewritten => by
    obtain ⟨later, rfl, behind⟩ := rewritten_marks (by cases value <;> decide) rewritten
    exact ⟨.bool value, later, rfl, rfl, behind⟩
  | .number value, rest, result, rewritten => by
    obtain ⟨later, rfl, behind⟩ := rewritten_marks (number_braceless value) rewritten
    exact ⟨.number value, later, rfl, rfl, behind⟩
  | .text content, rest, result, rewritten => by
    obtain ⟨filled, later, interpolated, rfl, behind⟩ := rewritten_quote rewritten
    exact ⟨.text filled, later, by simp [interpolateValue, interpolated], rfl, behind⟩
  | .array items, rest, result, rewritten => by
    have opened : (Json.array items).render ++ rest = ['['] ++
        (Json.commaSeparated (Json.renderItems items) ++ ([']'] ++ rest)) := by
      simp [Json.render]
    rw [opened] at rewritten
    obtain ⟨inner, rfl, inside⟩ := rewritten_marks (by decide) rewritten
    obtain ⟨filled, later, interpolated, rfl, closing⟩ := rewritten_items items inside
    obtain ⟨behind, rfl, remaining⟩ := rewritten_marks (by decide) closing
    exact ⟨.array filled, behind, by simp [interpolateValue, interpolated],
      by simp [Json.render], remaining⟩
  | .object [], rest, result, rewritten => by
    have opened : (Json.object []).render ++ rest = ['{', '}'] ++ rest := rfl
    rw [opened] at rewritten
    obtain ⟨later, rfl, behind⟩ := rewritten.behind (by simp [pairFree_cons])
    exact ⟨.object [], later, rfl, rfl, behind⟩
  | .object (member :: members), rest, result, rewritten => by
    obtain ⟨text, quoted⟩ := members_quoted member members
    have opened : (Json.object (member :: members)).render ++ rest =
        '{' :: '"' :: (text ++ (['}'] ++ rest)) := by
      simp [Json.render, quoted]
    rw [opened] at rewritten
    obtain ⟨inner, rfl, inside⟩ := rewritten_brace rewritten
    rw [← List.cons_append, ← quoted] at inside
    obtain ⟨filled, later, interpolated, rfl, closing⟩ :=
      rewritten_members (member :: members) inside
    obtain ⟨behind, rfl, remaining⟩ := rewritten_marks (by decide) closing
    exact ⟨.object filled, behind, by simp [interpolateValue, interpolated],
      by simp [Json.render], remaining⟩

theorem rewritten_items : (items : List Json) → {rest result : List Char} →
    Rewritten (filling values) (Json.commaSeparated (Json.renderItems items) ++ rest) result →
    ∃ filled later, interpolateItems values items = some filled ∧
      result = Json.commaSeparated (Json.renderItems filled) ++ later ∧
      Rewritten (filling values) rest later
  | [], rest, result, rewritten => ⟨[], result, rfl, rfl, rewritten⟩
  | [item], rest, result, rewritten => by
    obtain ⟨filled, later, interpolated, rfl, behind⟩ := rewritten_value item rewritten
    exact ⟨[filled], later, by simp [interpolateItems, interpolated], rfl, behind⟩
  | item :: next :: items, rest, result, rewritten => by
    have parted : Json.commaSeparated (Json.renderItems (item :: next :: items)) ++ rest =
        item.render ++ ([','] ++
          (Json.commaSeparated (Json.renderItems (next :: items)) ++ rest)) := by
      simp [Json.renderItems, Json.commaSeparated]
    rw [parted] at rewritten
    obtain ⟨filled, inner, interpolated, rfl, comma⟩ := rewritten_value item rewritten
    obtain ⟨inner, rfl, inside⟩ := rewritten_marks (by decide) comma
    obtain ⟨others, later, interpolated', rfl, behind⟩ := rewritten_items (next :: items) inside
    obtain ⟨first, others, rfl⟩ := interpolateItems_cons interpolated'
    refine ⟨filled :: first :: others, later, ?_, ?_, behind⟩
    · rw [interpolateItems, interpolated, interpolated']
      rfl
    · simp [Json.renderItems, Json.commaSeparated]

theorem rewritten_member : (member : String × Json) → {rest result : List Char} →
    Rewritten (filling values) (Json.quote member.1 ++ ':' :: (member.2.render ++ rest)) result →
    ∃ name filled later, interpolateText values member.1 = some name ∧
      interpolateValue values member.2 = some filled ∧
      result = Json.quote name ++ ':' :: (filled.render ++ later) ∧
      Rewritten (filling values) rest later
  | (name, value), rest, result, rewritten => by
    obtain ⟨named, inner, interpolated, rfl, colon⟩ := rewritten_quote rewritten
    rw [← List.singleton_append] at colon
    obtain ⟨inner, rfl, inside⟩ := rewritten_marks (by decide) colon
    obtain ⟨filled, later, interpolated', rfl, behind⟩ := rewritten_value value inside
    exact ⟨named, filled, later, interpolated, interpolated', rfl, behind⟩

theorem rewritten_members : (members : List (String × Json)) → {rest result : List Char} →
    Rewritten (filling values) (Json.commaSeparated (Json.renderMembers members) ++ rest) result →
    ∃ filled later, interpolateMembers values members = some filled ∧
      result = Json.commaSeparated (Json.renderMembers filled) ++ later ∧
      Rewritten (filling values) rest later
  | [], rest, result, rewritten => ⟨[], result, rfl, rfl, rewritten⟩
  | [member], rest, result, rewritten => by
    have parted : Json.commaSeparated (Json.renderMembers [member]) ++ rest =
        Json.quote member.1 ++ ':' :: (member.2.render ++ rest) := by
      simp [Json.renderMembers, Json.commaSeparated]
    rw [parted] at rewritten
    obtain ⟨name, filled, later, named, interpolated, rfl, behind⟩ :=
      rewritten_member member rewritten
    refine ⟨[(name, filled)], later, ?_, ?_, behind⟩
    · simp [interpolateMembers, named, interpolated]
    · simp [Json.renderMembers, Json.commaSeparated]
  | member :: next :: members, rest, result, rewritten => by
    have parted : Json.commaSeparated (Json.renderMembers (member :: next :: members)) ++ rest =
        Json.quote member.1 ++ ':' :: (member.2.render ++ ([','] ++
          (Json.commaSeparated (Json.renderMembers (next :: members)) ++ rest))) := by
      simp [Json.renderMembers, Json.commaSeparated]
    rw [parted] at rewritten
    obtain ⟨name, filled, inner, named, interpolated, rfl, comma⟩ :=
      rewritten_member member rewritten
    obtain ⟨inner, rfl, following⟩ := rewritten_marks (by decide) comma
    obtain ⟨others, later, interpolated', rfl, behind⟩ :=
      rewritten_members (next :: members) following
    obtain ⟨first, others, rfl⟩ := interpolateMembers_cons interpolated'
    refine ⟨(name, filled) :: first :: others, later, ?_, ?_, behind⟩
    · rw [interpolateMembers, named, interpolated, interpolated']
      rfl
    · simp [Json.renderMembers, Json.commaSeparated]

end

theorem interpolated_of_render {body : Json.Members} {message : String}
    (rendered : render body values = .ok message) :
    ∃ filled, interpolateMembers values body = some filled ∧
      message = Json.compact (.object filled) := by
  obtain ⟨found, segmented, rendered⟩ := of_bind rendered
  obtain ⟨result, filled, same⟩ := of_bind rendered
  cases same
  obtain ⟨pieces, cut, rfl⟩ := segments_eq_ok.mp (of_mapError segmented)
  have rewritten := cut.rewritten filled
  rw [← List.append_nil (Json.render _)] at rewritten
  obtain ⟨value, later, interpolated, rfl, behind⟩ := rewritten_value (Json.object body) rewritten
  obtain ⟨members, known, rfl⟩ := Option.map_eq_some_iff.mp interpolated
  cases behind.empty
  exact ⟨members, known, by simp [Json.compact]⟩

/-- Every action in the text of a value stands inside one of its string literals. -/
theorem placeholders_inside {value : Json} {pieces : List Piece}
    (cut : Cut value.render pieces) {before after : List Piece} {action : Action}
    (placed : pieces = before ++ .action action :: after) :
    ∃ left content right front back,
      layout value = left ++ .literal content :: right ∧
      escape content.toList = front ++ (action.text ++ back) ∧
      before.flatMap Piece.source = partsText left ++ '"' :: front ∧
      after.flatMap Piece.source = back ++ '"' :: partsText right := by
  have formed := cut.formed action (by simp [placed])
  have quoteless : '"' ∉ action.text := fun member =>
    absurd (formed.text_char '"' member) (by decide)
  have occurs : partsText (layout value) = before.flatMap Piece.source ++
      '{' :: '{' :: ((action.body ++ ['}', '}']) ++ after.flatMap Piece.source) := by
    rw [layout_text, ← cut.source, placed]
    simp [Piece.source, Action.text]
  exact inside_literal (layout_laid value) quoteless occurs

/-- Rendering is a walk over the body that interpolates each key and each string on its own and
prints the rest as it is. Whenever the text of a body is cut into segments, each placeholder
lies inside one string literal of that text, between two of its characters or its quotes. -/
theorem render_interpolates (body values : Json.Members) :
    (∀ message, render body values = .ok message →
      ∃ filled, interpolateMembers values body = some filled ∧
        message = Json.compact (.object filled)) ∧
    ∀ found, segments (Json.object body).render = .ok found →
      partsText (layout (.object body)) = (Json.object body).render ∧
      ∃ pieces : List Piece, pieces.map Piece.segment = found ∧
        pieces.flatMap Piece.source = (Json.object body).render ∧
        ∀ before action after, pieces = before ++ .action action :: after →
          ∃ left content right front back,
            layout (.object body) = left ++ .literal content :: right ∧
            escape content.toList = front ++ (action.text ++ back) ∧
            before.flatMap Piece.source = partsText left ++ '"' :: front ∧
            after.flatMap Piece.source = back ++ '"' :: partsText right := by
  refine ⟨fun message rendered => interpolated_of_render rendered, fun found segmented => ?_⟩
  obtain ⟨pieces, cut, rfl⟩ := segments_eq_ok.mp segmented
  exact ⟨layout_text _, pieces, rfl, cut.source, fun _ _ _ placed => placeholders_inside cut placed⟩

/-- A quote is inserted next to a closing brace, and text with braces into a key. -/
theorem render_interpolates_quote :
    let body : Json.Members := [("\x7b\x7b.k\x7d\x7d", .text "\x7b\x7b  .n \x7d\x7d\x7d")]
    let values : Json.Members := [("k", .array [.text "\x7b\x7b.n\x7d\x7d"]), ("n", .text "\"")]
    let message := "\x7b\"[\\\"\x7b\x7b.n\x7d\x7d\\\"]\":\"\\\"\x7d\"\x7d"
    render body values = .ok message ∧
      ∃ filled, interpolateMembers values body = some filled ∧
        message = Json.compact (.object filled) := by
  intro body values message
  have rendered : render body values = .ok message := by decide +kernel
  exact ⟨rendered, (render_interpolates body values).1 message rendered⟩

end MessagePress.Proofs.Interpolation
