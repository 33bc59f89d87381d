import MessagePress.Proofs.JsonCollections
import MessagePress.Template.JsonDocument

/-! The written form of templates: what a template was read from is a tree, and its sections are
what the members of that tree say. -/

namespace MessagePress.Proofs.TemplateForms
open Json Json.Reader PartialRuns JsonSyntax JsonStrings JsonForms JsonCollections
open Template (Sections readSection readMember readSections readItemIfAny readArrayEnd readTemplate)
open Text.Utf8 (encode)

variable {chars : List Char} {cursor : Cursor}

/-- What a member of a template changes in its sections. -/
def SectionMeans (name : String) (tree : Tree) (sections later : Sections) : Prop :=
  if name = "substitution" then
    sections.substitution = none ∧
      ∃ members, ObjectMeans tree members ∧ later = { sections with substitution := some members }
  else if name = "template" then
    sections.body = none ∧ ∃ members, ObjectMeans tree members ∧ later = { sections with body := some members }
  else later = sections

/-- What the members of a template change in its sections. -/
inductive SectionsMean : List (List Piece × Tree) → Sections → Sections → Prop
  | nil (sections : Sections) : SectionsMean [] sections sections
  | cons {pieces : List Piece} {tree : Tree} {members : List (List Piece × Tree)} {name : String}
      {sections middle later : Sections} (named : Names pieces name)
      (first : SectionMeans name tree sections middle) (others : SectionsMean members middle later) :
      SectionsMean ((pieces, tree) :: members) sections later

/-- What a document was read as. -/
inductive TemplateMeans : Tree → Template → Prop
  | object {members : List (List Piece × Tree)} {sections : Sections}
      (meant : SectionsMean members .none sections) : TemplateMeans (.object members) sections.template
  | array (items : List Tree) (template : Template) : TemplateMeans (.array items) template

theorem readSection_takes (place : cursor.rest = encode chars) :
    Yields (readSection cursor) fun reached => ∃ tree,
      Took (lexemes tree) chars reached.2 ∧ ObjectMeans tree reached.1 := by
  unfold readSection
  rw [bind_apply, yields_bind]
  refine yields_peekToken place (fun _ _ _ => yields_failAtNext) fun c rest cursor place _ blank => ?_
  dsimp only
  split
  next brace =>
    obtain rfl := (lead_eq (by decide)).mp brace
    refine (readObject_takes (readValue_takes _) place).imp ?_
    rintro ⟨members, cursor⟩ ⟨tree, took, meant⟩
    exact ⟨tree, took.after blank, meant⟩
  next =>
    rw [Template.failUnexpected, bind_apply, yields_bind]
    exact fun _ _ => yields_fail

private theorem yields_failDuplicate {name : String} {condition : α × Cursor → Prop} :
    Yields ((Template.failDuplicate name : Reader α) cursor) condition := by
  unfold Template.failDuplicate
  simp only [bind_apply, yields_bind]
  intro _ _
  split
  · rw [bind_apply, yields_bind]
    exact fun _ _ => yields_fail
  · exact yields_fail

theorem readMember_takes {sections : Sections} {name : String} (place : cursor.rest = encode chars) :
    Yields (readMember sections name cursor) fun reached => ∃ tree,
      Took (.colon :: lexemes tree) chars reached.2 ∧ SectionMeans name tree sections reached.1 := by
  unfold readMember
  split
  · split
    · exact yields_failDuplicate
    next fresh =>
      simp only [bind_apply, yields_bind]
      refine (readColon_takes place).imp ?_
      rintro ⟨_, cursor⟩ ⟨middle, place, colon⟩
      refine (readSection_takes place).imp ?_
      rintro ⟨members, cursor⟩ ⟨tree, took, meant⟩
      refine yields_pure.mpr ⟨tree, took.after colon, ?_⟩
      rw [SectionMeans, if_pos rfl]
      exact ⟨Option.not_isSome_iff_eq_none.mp fresh, members, meant, rfl⟩
  · split
    · exact yields_failDuplicate
    next fresh =>
      simp only [bind_apply, yields_bind]
      refine (readColon_takes place).imp ?_
      rintro ⟨_, cursor⟩ ⟨middle, place, colon⟩
      refine (readSection_takes place).imp ?_
      rintro ⟨members, cursor⟩ ⟨tree, took, meant⟩
      refine yields_pure.mpr ⟨tree, took.after colon, ?_⟩
      rw [SectionMeans, if_neg (by decide), if_pos rfl]
      exact ⟨Option.not_isSome_iff_eq_none.mp fresh, members, meant, rfl⟩
  next noSubstitution noBody =>
    simp only [bind_apply, yields_bind]
    refine (readColon_takes place).imp ?_
    rintro ⟨_, cursor⟩ ⟨middle, place, colon⟩
    refine (skipValue_takes _ _ place).imp ?_
    rintro ⟨_, cursor⟩ ⟨tree, took⟩
    refine yields_pure.mpr ⟨tree, took.after colon, ?_⟩
    rw [SectionMeans, if_neg noSubstitution, if_neg noBody]

theorem readSections_takes {steps : Nat} {first : Bool} {sections : Sections}
    (place : cursor.rest = encode chars) (enough : chars.length < steps) :
    Yields (readSections steps first sections cursor) fun reached => ∃ members,
      Took (memberLexemes first members ++ [.closeObject]) chars reached.2 ∧
        SectionsMean members sections reached.1 := by
  induction steps generalizing cursor chars first sections with
  | zero => exact absurd enough (Nat.not_lt_zero _)
  | succ steps ih =>
    rw [readSections, bind_apply, yields_bind]
    refine (anotherMember_takes place).imp ?_
    rintro ⟨more, cursor⟩ ⟨rest, place, another, closes⟩
    cases more with
    | false =>
      obtain ⟨-, behind, rfl, blank⟩ := closes rfl
      dsimp only
      rw [if_neg Bool.false_ne_true, bind_apply, yields_bind]
      refine yields_skip place (by decide) fun last place => yields_pure.mpr ⟨[], ?_, .nil _⟩
      exact ⟨behind, place, blank.append (.one .closeObject trivial)⟩
    | true =>
      obtain ⟨⟨inside, rfl, separated⟩, -⟩ := another rfl
      dsimp only
      rw [if_pos rfl]
      simp only [bind_apply, yields_bind]
      refine (readKey_takes place).imp ?_
      rintro ⟨name, cursor⟩ ⟨pieces, ⟨middle, place, named⟩, contents⟩
      refine (readMember_takes place).imp ?_
      rintro ⟨later, cursor⟩ ⟨tree, ⟨rest', place, taken⟩, meant⟩
      have less := taken.length_lt (List.cons_ne_nil _ _)
      have most := separated.length_le
      have most' := named.length_le
      refine (ih place (by omega)).imp ?_
      rintro ⟨last, cursor⟩ ⟨members, took, others⟩
      refine ⟨(pieces, tree) :: members, ?_, .cons contents meant others⟩
      rw [memberLexemes_cons, List.append_assoc, List.cons_append, List.cons_append, List.append_assoc]
      exact (took.after taken |>.after named).after separated

theorem itemLexemes_append (first : Bool) (items others : List Tree) :
    itemLexemes first (items ++ others) =
      itemLexemes first items ++ itemLexemes (first && items.isEmpty) others := by
  induction items generalizing first with
  | nil => rw [List.nil_append, itemLexemes, List.nil_append, List.isEmpty_nil, Bool.and_true]
  | cons item items ih =>
    rw [List.cons_append, itemLexemes_cons, itemLexemes_cons, ih]
    simp

theorem readItemIfAny_takes {first : Bool} (place : cursor.rest = encode chars) :
    Yields (readItemIfAny first cursor) fun reached => ∃ items,
      Took (itemLexemes first items) chars reached.2 ∧ reached.1.isNone = items.isEmpty := by
  unfold readItemIfAny
  rw [bind_apply, yields_bind]
  refine (anotherItem_takes place).imp ?_
  rintro ⟨more, cursor⟩ ⟨rest, place, another, closes⟩
  cases more with
  | false =>
    obtain ⟨-, behind, -, blank⟩ := closes rfl
    exact yields_pure.mpr ⟨[], ⟨rest, place, blank⟩, rfl⟩
  | true =>
    obtain ⟨separated, -⟩ := another rfl
    dsimp only
    rw [if_pos rfl, bind_apply, yields_bind]
    refine (readSection_takes place).imp ?_
    rintro ⟨members, cursor⟩ ⟨tree, took, -⟩
    refine yields_pure.mpr ⟨[tree], ?_, rfl⟩
    rw [itemLexemes_cons, itemLexemes, List.append_nil]
    exact took.after separated

theorem readArrayEnd_takes (place : cursor.rest = encode chars) :
    Yields (readArrayEnd cursor) fun reached => Took [.closeArray] chars reached.2 := by
  unfold readArrayEnd
  rw [bind_apply, yields_bind]
  refine yields_peekToken place (fun _ _ _ => yields_failAtNext) fun c rest cursor place _ blank => ?_
  dsimp only
  split
  next closes =>
    obtain rfl := (lead_eq (by decide)).mp closes
    exact yields_skip place (by decide) fun last place =>
      ⟨rest, place, blank.append (.one .closeArray trivial)⟩
  split
  · simp only [bind_apply, yields_bind]
    intro _ _ _ _
    split <;> exact yields_failAtNext
  · exact yields_failAtNext

theorem readTemplate_takes (place : cursor.rest = encode chars) :
    Yields (readTemplate cursor) fun reached => ∃ tree,
      Took (lexemes tree) chars reached.2 ∧ TemplateMeans tree reached.1 := by
  unfold readTemplate
  rw [bind_apply, yields_bind]
  refine yields_peekToken place (fun _ _ _ => yields_failAtNext) fun c rest cursor place _ blank => ?_
  have enough := length_le_encode rest
  dsimp only
  split
  next brace =>
    obtain rfl := (lead_eq (by decide)).mp brace
    simp only [bind_apply, yields_bind]
    refine yields_skip place (by decide) fun behind place => yields_ok.mpr ?_
    rw [← place] at enough
    refine (readSections_takes place (Nat.lt_succ_of_le enough)).imp ?_
    rintro ⟨sections, cursor⟩ ⟨members, took, meant⟩
    refine yields_pure.mpr ⟨.object members, ?_, .object meant⟩
    rw [lexemes]
    exact (took.after (.one .openObject trivial)).after blank
  split
  next bracket =>
    obtain rfl := (lead_eq (by decide)).mp bracket
    simp only [bind_apply, yields_bind]
    refine yields_skip place (by decide) fun behind place => ?_
    refine (readItemIfAny_takes place).imp ?_
    rintro ⟨substitution, cursor⟩ ⟨items, ⟨middle, place, taken⟩, same⟩
    refine (readItemIfAny_takes place).imp ?_
    rintro ⟨body, cursor⟩ ⟨others, ⟨middle', place, taken'⟩, -⟩
    refine (readArrayEnd_takes place).imp ?_
    rintro ⟨_, cursor⟩ took
    refine yields_pure.mpr ⟨.array (items ++ others), ?_, .array _ _⟩
    dsimp only at same taken'
    rw [same] at taken'
    rw [lexemes, itemLexemes_append, Bool.true_and, List.append_assoc]
    exact ((took.after taken').after taken |>.after (.one .openArray trivial)).after blank
  next =>
    rw [Template.failUnexpected, bind_apply, yields_bind]
    exact fun _ _ => yields_fail

/-- What is read as a template is the written form of a tree that it is the meaning of. -/
theorem template_written (chars : List Char) :
    Yields (readDocument readTemplate (encode chars)) fun template => ∃ tree,
      Written (lexemes tree) chars [] ∧ TemplateMeans tree template := by
  unfold readDocument
  rw [yields_bind]
  simp only [bind_apply, yields_bind]
  refine (readTemplate_takes rfl).imp ?_
  rintro ⟨template, cursor⟩ ⟨tree, ⟨rest, place, taken⟩, meant⟩
  unfold readEnd
  rw [bind_apply, yields_bind]
  refine yields_peekToken place (fun _ _ blank => ?_) fun _ _ _ _ _ _ => yields_failAtNext
  refine yields_pure.mpr (yields_pure.mpr (yields_pure.mpr ⟨tree, ?_, meant⟩))
  have whole := taken.append blank
  rwa [List.append_nil] at whole

end MessagePress.Proofs.TemplateForms
