import MessagePress.Proofs.Interpolation

/-! Which bodies can be cut into segments. A body is cut as one text, but its quotes part that
text for good: it is accepted when each of its strings is, whatever stands next to it. Strings
are cut as they are written, with their blanks but the space escaped, so the space is the only
blank that an action in a body may hold. -/

namespace MessagePress.Proofs.AcceptedBodies
open Template Text BracePairs PlaceholderCuts StringEscapes JsonLayout Interpolation
open Json (escape)

/-- A text that can be cut into segments. -/
def Accepted (text : List Char) : Prop := ∃ found, segments text = .ok found

/-- The actions among some pieces hold no blanks but spaces. -/
def Spaced (pieces : List Piece) : Prop :=
  ∀ action, .action action ∈ pieces → ∀ c ∈ action.lead ++ action.trail, c = ' '

variable {text rest : List Char} {pieces : List Piece}

theorem accepted_iff_cut : Accepted text ↔ ∃ pieces, Cut text pieces := by
  simp only [Accepted, segments_eq_ok]
  exact ⟨fun ⟨_, pieces, cut, _⟩ => ⟨pieces, cut⟩, fun ⟨pieces, cut⟩ => ⟨_, pieces, cut, rfl⟩⟩

private def kept (action : Action) : Option (List Char) := some action.text

private theorem accepted_iff_rewritten : Accepted text ↔ ∃ result, Rewritten kept text result := by
  rw [accepted_iff_cut]
  constructor
  · rintro ⟨pieces, cut⟩
    induction cut with
    | plain free => exact ⟨_, .plain free⟩
    | action first formed rest ih =>
      obtain ⟨result, later⟩ := ih
      exact ⟨_, .action first formed rfl later⟩
  · rintro ⟨result, rewritten⟩
    induction rewritten with
    | plain free => exact ⟨_, .plain free⟩
    | action first formed inserted rest ih =>
      obtain ⟨pieces, later⟩ := ih
      exact ⟨_, .action first formed later⟩

theorem accepted_behind (free : PairFree '{' (text ++ ['{'])) :
    Accepted (text ++ rest) ↔ Accepted rest := by
  rw [accepted_iff_rewritten, accepted_iff_rewritten]
  constructor
  · rintro ⟨result, rewritten⟩
    obtain ⟨later, -, behind⟩ := rewritten.behind free
    exact ⟨later, behind⟩
  · rintro ⟨result, rewritten⟩
    exact ⟨_, rewritten.prepend free⟩

private theorem Rewritten.joined {separator : Char} {front later : List Char}
    (different : separator ≠ '{') (left : Rewritten kept text front)
    (right : Rewritten kept rest later) :
    Rewritten kept (text ++ separator :: rest) (front ++ separator :: later) := by
  induction left with
  | @plain text free =>
    have behind : PairFree '{' ((text ++ [separator]) ++ ['{']) := by
      rw [List.append_assoc, List.singleton_append]
      exact (pairFree_separated different).mpr ⟨free, pairFree_singleton _ _⟩
    simpa using right.prepend behind
  | @action before action after value result first formed inserted remaining ih =>
    simpa using Rewritten.action first formed inserted ih

/-- A character that no action holds parts a text: each side is accepted on its own. -/
theorem accepted_separated {separator : Char} (outside : isActionChar separator = false) :
    Accepted (text ++ separator :: rest) ↔ Accepted text ∧ Accepted rest := by
  have different : separator ≠ '{' := by
    rintro rfl
    exact absurd outside (by decide)
  simp only [accepted_iff_rewritten]
  constructor
  · rintro ⟨result, rewritten⟩
    obtain ⟨front, later, -, left, right⟩ := rewritten.separated outside
    exact ⟨⟨front, left⟩, later, right⟩
  · rintro ⟨⟨front, left⟩, later, right⟩
    exact ⟨_, Rewritten.joined different left right⟩

private theorem accepted_literal {content : String} :
    Accepted (Json.quote content ++ rest) ↔ Accepted (escape content.toList) ∧ Accepted rest := by
  have outside : isActionChar '"' = false := by decide
  have opened : Json.quote content ++ rest = [] ++ '"' :: (escape content.toList ++ '"' :: rest) := by
    simp [Json.quote]
  have empty : Accepted [] := ⟨[], rfl⟩
  rw [opened, accepted_separated outside, accepted_separated outside, and_iff_right empty]

private theorem accepted_brace {content : String} :
    Accepted ('{' :: (Json.quote content ++ rest)) ↔ Accepted (Json.quote content ++ rest) := by
  have outside : isActionChar '"' = false := by decide
  have opened : '{' :: (Json.quote content ++ rest) =
      ['{'] ++ '"' :: (escape content.toList ++ '"' :: rest) := by
    simp [Json.quote]
  have brace : Accepted ['{'] := ⟨[.text ['{']], rfl⟩
  rw [accepted_literal, opened, accepted_separated outside, accepted_separated outside,
    and_iff_right brace]

/-- The text of a layout is accepted if and only if all its literals are. -/
theorem accepted_layout {parts : List Part} (laid : Laid parts) :
    Accepted (partsText parts) ↔
      ∀ content, .literal content ∈ parts → Accepted (escape content.toList) := by
  induction laid with
  | nil =>
    have empty : Accepted [] := ⟨[], rfl⟩
    simpa using empty
  | @literal content rest laid ih =>
    refine accepted_literal.trans ((and_congr_right fun _ => ih).trans ?_)
    simp
  | @marks content rest free laid ih =>
    refine (accepted_behind free).trans (ih.trans ?_)
    simp
  | @brace content rest laid ih =>
    refine accepted_brace.trans (ih.trans ?_)
    simp

theorem pairFree_escape (free : PairFree '{' text) : PairFree '{' (escape text) := by
  rintro ⟨front, back, same⟩
  have opened : escape text = front ++ '{' :: ('{' :: back) := by rw [← same]; simp
  obtain ⟨before, behind, rfl, -, inside⟩ := escape_brace opened
  obtain ⟨after, rfl, -, -⟩ := @escape_front _ ['{'] _ (by decide) inside
  exact free ⟨before, after, by simp⟩

private theorem action_notMem_textPiece {content : List Char} {action : Action} :
    Piece.action action ∉ textPiece content := by
  cases content <;> simp [textPiece]

theorem spaced_textPiece (content : List Char) : Spaced (textPiece content) :=
  fun _ member => absurd member action_notMem_textPiece

theorem spaced_cons {before : List Char} {action : Action} :
    Spaced (textPiece before ++ .action action :: pieces) ↔
      (∀ c ∈ action.lead ++ action.trail, c = ' ') ∧ Spaced pieces := by
  constructor
  · intro spaced
    exact ⟨spaced action (by simp), fun other member => spaced other (by simp [member])⟩
  · rintro ⟨first, later⟩ other member
    rcases List.mem_append.mp member with found | found
    · exact absurd found action_notMem_textPiece
    · rcases List.mem_cons.mp found with same | behind
      · cases same; exact first
      · exact later other behind

private theorem nameChar_plain {c : Char} (legal : isNameChar c = true) : IsPlain c := by
  refine ⟨?_, ?_, ?_⟩
  · rintro rfl
    exact absurd legal (by decide)
  · rintro rfl
    exact absurd legal (by decide)
  · by_contra control
    have each : ∀ code : Fin 32, isNameChar (Char.ofNat code) = false := by decide
    have same := each ⟨c.toNat, Nat.not_le.mp control⟩
    rw [Char.ofNat_toNat] at same
    rw [same] at legal
    cases legal

private theorem escape_action {action : Action} (formed : action.WellFormed)
    (spaces : ∀ c ∈ action.lead ++ action.trail, c = ' ') : escape action.text = action.text := by
  have plain : ∀ c ∈ action.text, IsPlain c := by
    intro c member
    have parts : c = '{' ∨ c ∈ action.lead ∨ c = '.' ∨ c ∈ action.name ∨ c ∈ action.trail ∨ c = '}' := by
      simpa [Action.text, Action.body] using member
    have space : IsPlain ' ' := ⟨by decide, by decide, by decide⟩
    rcases parts with rfl | lead | rfl | named | trail | rfl
    · exact ⟨by decide, by decide, by decide⟩
    · rwa [spaces c (List.mem_append_left _ lead)]
    · exact ⟨by decide, by decide, by decide⟩
    · exact nameChar_plain (formed.legal c named)
    · rwa [spaces c (List.mem_append_right _ trail)]
    · exact ⟨by decide, by decide, by decide⟩
  generalize action.text = written at plain
  induction written with
  | nil => rfl
  | cons c written ih =>
    obtain ⟨first, later⟩ := List.forall_mem_cons.mp plain
    rw [escape_cons_plain first, ih later]

theorem escape_accepted :
    Accepted (escape text) ↔ ∃ pieces, Cut text pieces ∧ Spaced pieces := by
  rw [accepted_iff_cut]
  constructor
  · rintro ⟨pieces, cut⟩
    generalize whole : escape text = source at cut
    induction cut generalizing text with
    | plain free =>
      subst whole
      exact ⟨_, .plain (pairFree_of_escape free), spaced_textPiece text⟩
    | @action before action after pieces first formed rest ih =>
      obtain ⟨front, back, rfl, rfl, rfl, plain⟩ := unescaped_action formed whole
      obtain ⟨pieces, cut, spaced⟩ := ih rfl
      have free : PairFree '{' (front ++ ['{']) := by
        apply pairFree_of_escape
        simpa [Json.escapeChar] using first
      refine ⟨_, .action free formed cut, spaced_cons.mpr ⟨fun c member => ?_, spaced⟩⟩
      have inside : c ∈ action.text := by
        rcases List.mem_append.mp member with lead | trail
        · simp [Action.text, Action.body, lead]
        · simp [Action.text, Action.body, trail]
      exact plain_blank (plain c inside)
        ((List.mem_append.mp member).elim (formed.lead c) (formed.trail c))
  · rintro ⟨pieces, cut, spaced⟩
    induction cut with
    | plain free => exact ⟨_, .plain (pairFree_escape free)⟩
    | @action before action after pieces first formed rest ih =>
      obtain ⟨spaces, spaced⟩ := spaced_cons.mp spaced
      obtain ⟨pieces, cut⟩ := ih spaced
      have free : PairFree '{' (escape before ++ ['{']) := by
        simpa [Json.escapeChar] using pairFree_escape first
      rw [escape_append, escape_append, escape_action formed spaces]
      exact ⟨_, .action free formed cut⟩

mutual

/-- The keys and the strings of a value, at any depth. -/
def texts : Json → List String
  | .null | .bool _ | .number _ => []
  | .text content => [content]
  | .array items => itemTexts items
  | .object members => memberTexts members

def itemTexts : List Json → List String
  | [] => []
  | item :: rest => texts item ++ itemTexts rest

def memberTexts : List (String × Json) → List String
  | [] => []
  | (name, value) :: rest => name :: texts value ++ memberTexts rest

end

mutual

theorem literal_mem_layout {content : String} : (value : Json) →
    (.literal content ∈ layout value ↔ content ∈ texts value)
  | .null => by simp [layout, texts]
  | .bool value => by simp [layout, texts]
  | .number value => by simp [layout, texts]
  | .text other => by simp [layout, texts]
  | .array items => by simp [layout, texts, literal_mem_layoutItems items]
  | .object [] => by simp [layout, texts, memberTexts]
  | .object (member :: rest) => by simp [layout, texts, literal_mem_layoutMembers (member :: rest)]

theorem literal_mem_layoutItems {content : String} : (items : List Json) →
    (.literal content ∈ layoutItems items ↔ content ∈ itemTexts items)
  | [] => by simp [layoutItems, itemTexts]
  | [item] => by simp [layoutItems, itemTexts, literal_mem_layout item]
  | item :: next :: rest => by
    have later := @literal_mem_layoutItems content (next :: rest)
    rw [itemTexts]
    simp [layoutItems, literal_mem_layout item, later]

theorem literal_mem_layoutMembers {content : String} : (members : List (String × Json)) →
    (.literal content ∈ layoutMembers members ↔ content ∈ memberTexts members)
  | [] => by simp [layoutMembers, memberTexts]
  | [(name, value)] => by simp [layoutMembers, memberTexts, literal_mem_layout value]
  | (name, value) :: next :: rest => by
    have later := @literal_mem_layoutMembers content (next :: rest)
    rw [memberTexts]
    simp [layoutMembers, literal_mem_layout value, later]

end

theorem fill_not_invalid {values : Json.Members} {found : List Segment} {fault : SegmentFault} :
    fill values found ≠ .error (.invalid fault) := by
  intro failed
  induction found with
  | nil => cases failed
  | cons segment found ih =>
    rw [fill] at failed
    cases first : fillSegment values segment with
    | error cause =>
      rw [first] at failed
      cases failed
      unfold fillSegment at first
      split at first
      · cases first
      · split at first <;> cases first
    | ok content =>
      rw [first] at failed
      cases later : fill values found with
      | error cause => rw [later] at failed ih; cases failed; exact ih rfl
      | ok others => rw [later] at failed; cases failed

theorem render_invalid (body values : Json.Members) :
    (∃ fault, render body values = .error (.invalid fault)) ↔ ¬Accepted (Json.object body).render := by
  unfold render Accepted
  cases segments (Json.object body).render with
  | error cause => exact iff_of_true ⟨cause, rfl⟩ fun ⟨_, same⟩ => nomatch same
  | ok found =>
    refine iff_of_false ?_ fun rejected => rejected ⟨found, rfl⟩
    rintro ⟨fault, failed⟩
    change (fill values found).map String.ofList = _ at failed
    cases filled : fill values found with
    | error cause => rw [filled] at failed; cases failed; exact fill_not_invalid filled
    | ok content => rw [filled] at failed; cases failed

/-- A body is accepted if and only if each of its keys and strings is on its own, with no blanks
but spaces in its actions. A string by itself may have any ASCII blanks there; written into a
body it is escaped first, and accepted when all of them are spaces. -/
theorem body_accepted (body : Json.Members) :
    (Accepted (Json.object body).render ↔
      ∀ text ∈ texts (.object body), ∃ pieces, Cut text.toList pieces ∧ Spaced pieces) ∧
    (∀ values, (∃ fault, render body values = .error (.invalid fault)) ↔
      ¬Accepted (Json.object body).render) ∧
    ∀ text : List Char, (Accepted text ↔ ∃ pieces, Cut text pieces) ∧
      (Accepted (escape text) ↔ ∃ pieces, Cut text pieces ∧ Spaced pieces) := by
  refine ⟨?_, fun values => render_invalid body values, fun text => ⟨accepted_iff_cut, escape_accepted⟩⟩
  rw [← layout_text, accepted_layout (layout_laid _)]
  simp only [literal_mem_layout, escape_accepted]

/-- A tab in an action is accepted in a string by itself, but not in a body. -/
theorem tab_refused : ¬∀ body : Json.Members, Accepted (Json.object body).render ↔
    ∀ text ∈ texts (.object body), Accepted text.toList := by
  intro same
  let tabbed := "\x7b\x7b\t.x\x7d\x7d"
  have alone : ∀ text ∈ texts (.object [("a", .text tabbed)]), Accepted text.toList := by
    intro text member
    have listed : text = "a" ∨ text = tabbed := by simpa [texts, memberTexts] using member
    rcases listed with rfl | rfl
    · exact ⟨[.text ['a']], by decide +kernel⟩
    · exact ⟨[.placeholder ['x']], by decide +kernel⟩
  obtain ⟨found, accepted⟩ := (same _).mpr alone
  have refused : (segments (Json.object [("a", .text tabbed)]).render).toOption = none := by
    decide +kernel
  rw [accepted] at refused
  cases refused

end MessagePress.Proofs.AcceptedBodies
