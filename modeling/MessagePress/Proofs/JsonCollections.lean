import MessagePress.Proofs.JsonForms

/-! The written form of arrays and objects, whether they are read or passed over. What follows a
value inside of them ends a number, so each value is what its own text says. -/

namespace MessagePress.Proofs.JsonCollections
open Json Json.Reader ReaderSteps PartialRuns JsonSyntax JsonStrings NumeralSpans JsonForms
open Text.Utf8 (encode)

variable {chars rest : List Char} {cursor : Cursor}

def separator (first : Bool) : List Lexeme := if first then [] else [.comma]

theorem itemLexemes_cons (first : Bool) (item : Tree) (items : List Tree) :
    itemLexemes first (item :: items) = separator first ++ (lexemes item ++ itemLexemes false items) := by
  rw [itemLexemes, separator, List.append_assoc]

theorem memberLexemes_cons (first : Bool) (name : List Piece) (value : Tree)
    (members : List (List Piece × Tree)) :
    memberLexemes first ((name, value) :: members) =
      separator first ++ (.string name :: .colon :: (lexemes value ++ memberLexemes false members)) := by
  rw [memberLexemes, separator]
  simp

theorem lexemes_ne_nil (tree : Tree) : lexemes tree ≠ [] := by cases tree <;> simp [lexemes]

private theorem written_comma (blank : Written [] chars (',' :: rest)) (behind : Written [] rest chars') :
    Written (separator false) chars chars' :=
  blank.append ((Written.one .comma trivial).append behind)

theorem anotherItem_takes {first : Bool} (place : cursor.rest = encode chars) :
    Yields (anotherItem first cursor) fun reached => ∃ rest, reached.2.rest = encode rest ∧
      (reached.1 = true → Written (separator first) chars rest ∧
        (first = false → Stops (encode chars).head?)) ∧
      (reached.1 = false → Stops (encode chars).head? ∧
        ∃ behind, rest = ']' :: behind ∧ Written [] chars rest) := by
  unfold anotherItem
  rw [bind_apply, yields_bind]
  refine yields_peekToken place (fun _ _ _ => yields_failAtNext) fun c rest cursor place _ blank => ?_
  dsimp only
  split
  next closes =>
    obtain rfl := (lead_eq (by decide)).mp closes
    exact yields_pure.mpr ⟨_, place, nofun, fun _ => ⟨stops_of_written blank (by decide), rest, rfl, blank⟩⟩
  split
  next isFirst =>
    refine yields_pure.mpr ⟨_, place, fun _ => ⟨?_, fun later => ?_⟩, nofun⟩
    · rwa [separator, if_pos isFirst]
    · rw [later] at isFirst
      cases isFirst
  next notFirst =>
    obtain rfl := Bool.eq_false_iff.mpr notFirst
    split
    next comma =>
      obtain rfl := (lead_eq (by decide)).mp comma
      simp only [bind_apply, yields_bind]
      refine yields_skip place (by decide) fun behind place => ?_
      refine yields_peekToken place (fun _ _ _ => yields_failAtNext) fun d rest' cursor place _ blank' => ?_
      dsimp only
      split
      · exact yields_failAtNext
      · exact yields_pure.mpr ⟨_, place, fun _ => ⟨written_comma blank blank', fun _ =>
          stops_of_written blank (by decide)⟩, nofun⟩
    next => exact yields_failAtNext

theorem anotherMember_takes {first : Bool} (place : cursor.rest = encode chars) :
    Yields (anotherMember first cursor) fun reached => ∃ rest, reached.2.rest = encode rest ∧
      (reached.1 = true → (∃ behind, rest = '"' :: behind ∧ Written (separator first) chars rest) ∧
        (first = false → Stops (encode chars).head?)) ∧
      (reached.1 = false → Stops (encode chars).head? ∧
        ∃ behind, rest = '\x7d' :: behind ∧ Written [] chars rest) := by
  unfold anotherMember
  rw [bind_apply, yields_bind]
  refine yields_peekToken place (fun _ _ _ => yields_failAtNext) fun c rest cursor place _ blank => ?_
  dsimp only
  split
  next closes =>
    obtain rfl := (lead_eq (by decide)).mp closes
    exact yields_pure.mpr ⟨_, place, nofun, fun _ => ⟨stops_of_written blank (by decide), rest, rfl, blank⟩⟩
  split
  next isFirst =>
    split
    next quote =>
      obtain rfl := (lead_eq (by decide)).mp quote
      refine yields_pure.mpr ⟨_, place, fun _ => ⟨⟨rest, rfl, ?_⟩, fun later => ?_⟩, nofun⟩
      · rwa [separator, if_pos isFirst]
      · rw [later] at isFirst
        cases isFirst
    next => exact yields_failAtNext
  next notFirst =>
    obtain rfl := Bool.eq_false_iff.mpr notFirst
    split
    next comma =>
      obtain rfl := (lead_eq (by decide)).mp comma
      simp only [bind_apply, yields_bind]
      refine yields_skip place (by decide) fun behind place => ?_
      refine yields_peekToken place (fun _ _ _ => yields_failAtNext) fun d rest' cursor place _ blank' => ?_
      dsimp only
      split
      next quote =>
        obtain rfl := (lead_eq (by decide)).mp quote
        exact yields_pure.mpr ⟨_, place, fun _ => ⟨⟨rest', rfl, written_comma blank blank'⟩, fun _ =>
          stops_of_written blank (by decide)⟩, nofun⟩
      · split <;> exact yields_failAtNext
    next => exact yields_failAtNext

theorem written_quoted {pieces : List Piece} (formed : ∀ piece ∈ pieces, piece.Formed) :
    Written [.string pieces] ('"' :: (written pieces ++ '"' :: rest)) rest := by
  have string : Written [.string pieces] (Lexeme.text (.string pieces) ++ rest) rest := .one _ formed
  simpa [Lexeme.text] using string

theorem readKey_takes (place : cursor.rest = encode ('"' :: chars)) :
    Yields (readKey cursor) fun reached => ∃ pieces, Took [.string pieces] ('"' :: chars) reached.2 ∧
      Names pieces reached.1 := by
  unfold readKey
  rw [bind_apply, yields_bind]
  refine yields_skip place (by decide) fun behind place => (readString_takes place).imp ?_
  rintro ⟨name, cursor⟩ ⟨pieces, rest, rfl, place', formed, contents⟩
  exact ⟨pieces, ⟨rest, place', written_quoted formed⟩, contents⟩

theorem readColon_takes (place : cursor.rest = encode chars) :
    Yields (readColon cursor) fun reached => Took [.colon] chars reached.2 := by
  unfold readColon
  rw [bind_apply, yields_bind]
  refine yields_peekToken place (fun _ _ _ => yields_failAtNext) fun c rest cursor place _ blank => ?_
  dsimp only
  split
  next colon =>
    obtain rfl := (lead_eq (by decide)).mp colon
    exact yields_skip place (by decide) fun behind place =>
      ⟨rest, place, blank.append (.one .colon trivial)⟩
  next => exact yields_failAtNext

theorem length_le_encode (chars : List Char) : chars.length ≤ (encode chars).length :=
  flatMap_length chars encodeChar_ne_nil

def TakesValues (item : Reader Json) : Prop :=
  ∀ chars cursor, cursor.rest = encode chars → Yields (item cursor) (TookValue chars)

theorem readItems_takes {item : Reader Json} (values : TakesValues item) {steps : Nat} {first : Bool}
    (place : cursor.rest = encode chars) (enough : chars.length < steps) :
    Yields (readItems item steps first cursor) fun reached => ∃ items,
      Took (itemLexemes first items ++ [.closeArray]) chars reached.2 ∧ ItemsMean items reached.1 ∧
        (first = false → Stops (encode chars).head?) := by
  induction steps generalizing cursor chars first with
  | zero => exact absurd enough (Nat.not_lt_zero _)
  | succ steps ih =>
    rw [readItems, bind_apply, yields_bind]
    refine (anotherItem_takes place).imp ?_
    rintro ⟨more, cursor⟩ ⟨rest, place, another, closes⟩
    cases more with
    | false =>
      obtain ⟨stops, behind, rfl, blank⟩ := closes rfl
      dsimp only
      rw [if_neg Bool.false_ne_true, bind_apply, yields_bind]
      refine yields_skip place (by decide) fun last place => yields_pure.mpr ⟨[], ?_, ?_, fun _ => stops⟩
      · exact ⟨behind, place, blank.append (.one .closeArray trivial)⟩
      · rw [ItemsMean]
    | true =>
      obtain ⟨separated, stops⟩ := another rfl
      dsimp only
      rw [if_pos rfl, bind_apply, yields_bind]
      refine (values _ _ place).imp ?_
      rintro ⟨value, cursor⟩ ⟨tree, ⟨rest', place, taken⟩, meant⟩
      have less := taken.length_lt (lexemes_ne_nil tree)
      have most := separated.length_le
      rw [bind_apply, yields_bind]
      refine (ih place (by omega)).imp ?_
      rintro ⟨others, cursor⟩ ⟨items, took, related, stop⟩
      refine yields_pure.mpr ⟨tree :: items, ?_, ?_, stops⟩
      · rw [itemLexemes_cons, List.append_assoc, List.append_assoc]
        exact took.after taken |>.after separated
      · rw [ItemsMean]
        dsimp only at meant
        rw [place] at meant
        exact ⟨value, others, rfl, meant (stop rfl), related⟩

theorem readMembers_takes {item : Reader Json} (values : TakesValues item) {steps : Nat} {first : Bool}
    (place : cursor.rest = encode chars) (enough : chars.length < steps) :
    Yields (readMembers item steps first cursor) fun reached => ∃ members,
      Took (memberLexemes first members ++ [.closeObject]) chars reached.2 ∧
        MembersMean members reached.1 ∧ (first = false → Stops (encode chars).head?) := by
  induction steps generalizing cursor chars first with
  | zero => exact absurd enough (Nat.not_lt_zero _)
  | succ steps ih =>
    rw [readMembers, bind_apply, yields_bind]
    refine (anotherMember_takes place).imp ?_
    rintro ⟨more, cursor⟩ ⟨rest, place, another, closes⟩
    cases more with
    | false =>
      obtain ⟨stops, behind, rfl, blank⟩ := closes rfl
      dsimp only
      rw [if_neg Bool.false_ne_true, bind_apply, yields_bind]
      refine yields_skip place (by decide) fun last place => yields_pure.mpr ⟨[], ?_, ?_, fun _ => stops⟩
      · exact ⟨behind, place, blank.append (.one .closeObject trivial)⟩
      · rw [MembersMean]
    | true =>
      obtain ⟨⟨inside, rfl, separated⟩, stops⟩ := another rfl
      dsimp only
      rw [if_pos rfl]
      simp only [bind_apply, yields_bind]
      refine (readKey_takes place).imp ?_
      rintro ⟨name, cursor⟩ ⟨pieces, ⟨middle, place, named⟩, contents⟩
      refine (readColon_takes place).imp ?_
      rintro ⟨_, cursor⟩ ⟨middle', place, colon⟩
      refine (values _ _ place).imp ?_
      rintro ⟨value, cursor⟩ ⟨tree, ⟨rest', place, taken⟩, meant⟩
      have less := taken.length_lt (lexemes_ne_nil tree)
      have most := separated.length_le
      have most' := named.length_le
      have most'' := colon.length_le
      refine (ih place (by omega)).imp ?_
      rintro ⟨others, cursor⟩ ⟨members, took, related, stop⟩
      refine yields_pure.mpr ⟨(pieces, tree) :: members, ?_, ?_, stops⟩
      · rw [memberLexemes_cons, List.append_assoc, List.cons_append, List.cons_append, List.append_assoc]
        exact (took.after taken |>.after (named.append colon)).after separated
      · rw [MembersMean]
        dsimp only at meant
        rw [place] at meant
        exact ⟨name, value, others, rfl, contents, meant (stop rfl), related⟩

theorem readArray_takes {item : Reader Json} (values : TakesValues item)
    (place : cursor.rest = encode ('[' :: chars)) :
    Yields ((Json.array <$> readArray item) cursor) (TookValue ('[' :: chars)) := by
  rw [map_eq_pure_bind, bind_apply, yields_bind, readArray]
  simp only [bind_apply, yields_bind]
  refine yields_skip place (by decide) fun behind place => yields_ok.mpr ?_
  have enough := length_le_encode chars
  rw [← place] at enough
  refine (readItems_takes values place (Nat.lt_succ_of_le enough)).imp ?_
  rintro ⟨read, cursor⟩ ⟨items, took, related, -⟩
  refine yields_pure.mpr ⟨.array items, ?_, fun _ => ?_⟩
  · rw [lexemes]
    exact took.after (.one .openArray trivial)
  · rw [Means]
    exact ⟨read, rfl, related⟩

/-- A tree is an object, and was read as these members. -/
def ObjectMeans (tree : Tree) (members : Members) : Prop :=
  ∃ inside pairs, tree = .object inside ∧ members = Members.ofList pairs ∧ MembersMean inside pairs

theorem readObject_takes {item : Reader Json} (values : TakesValues item)
    (place : cursor.rest = encode ('\x7b' :: chars)) :
    Yields (readObject item cursor) fun reached => ∃ tree,
      Took (lexemes tree) ('\x7b' :: chars) reached.2 ∧ ObjectMeans tree reached.1 := by
  unfold readObject
  simp only [bind_apply, yields_bind]
  refine yields_skip place (by decide) fun behind place => yields_ok.mpr ?_
  have enough := length_le_encode chars
  rw [← place] at enough
  refine (readMembers_takes values place (Nat.lt_succ_of_le enough)).imp ?_
  rintro ⟨read, cursor⟩ ⟨members, took, related, -⟩
  refine yields_pure.mpr ⟨.object members, ?_, ?_⟩
  · rw [lexemes]
    exact took.after (.one .openObject trivial)
  · exact ⟨members, read, rfl, rfl, related⟩

theorem readValue_takes (depth : Nat) : TakesValues (readValue depth) := by
  induction depth with
  | zero =>
    exact fun chars cursor place =>
      readWith_takes (fun _ _ _ => yields_failAtNext) (fun _ _ _ => yields_failAtNext) place
  | succ depth ih =>
    refine fun chars cursor place =>
      readWith_takes (fun _ _ place => readArray_takes ih place) (fun _ _ place => ?_) place
    rw [map_eq_pure_bind, bind_apply, yields_bind]
    refine (readObject_takes ih place).imp ?_
    rintro ⟨members, cursor⟩ ⟨tree, took, inside, pairs, rfl, rfl, related⟩
    refine yields_pure.mpr ⟨.object inside, took, fun _ => ?_⟩
    rw [Means]
    exact ⟨pairs, rfl, related⟩

def PassesValues (item : Reader Unit) : Prop :=
  ∀ chars cursor, cursor.rest = encode chars →
    Yields (item cursor) fun reached => TookTree chars reached.2

theorem yields_separator {first : Bool} {cause : Cause} {c : Char} {later : Reader Unit}
    {condition : Unit × Cursor → Prop} (place : cursor.rest = encode (c :: rest))
    (blank : Written [] chars (c :: rest))
    (behind : ∀ middle cursor, cursor.rest = encode middle → Written (separator first) chars middle →
      Yields (later cursor) condition) :
    Yields ((do
      if !first then
        if lead c = byteOf ',' then skip else failAtNext cause
      later : Reader Unit) cursor) condition := by
  cases first with
  | true => exact behind _ _ place blank
  | false =>
    dsimp only
    rw [Bool.not_false, if_pos rfl]
    split
    next comma =>
      obtain rfl := (lead_eq (by decide)).mp comma
      rw [bind_apply, yields_bind]
      exact yields_skip place (by decide) fun after place =>
        behind _ _ place (blank.append (.one .comma trivial))
    next =>
      rw [bind_apply, yields_bind]
      exact yields_failAtNext

theorem skipItems_takes {item : Reader Unit} (values : PassesValues item) {steps : Nat} {first : Bool}
    (place : cursor.rest = encode chars) (enough : chars.length < steps) :
    Yields (skipItems item steps first cursor) fun reached => ∃ items,
      Took (itemLexemes first items ++ [.closeArray]) chars reached.2 := by
  induction steps generalizing cursor chars first with
  | zero => exact absurd enough (Nat.not_lt_zero _)
  | succ steps ih =>
    rw [skipItems, bind_apply, yields_bind]
    refine yields_peekToken place (fun _ _ _ => yields_failAtNext) fun c rest cursor place _ blank => ?_
    dsimp only
    split
    next closes =>
      obtain rfl := (lead_eq (by decide)).mp closes
      exact yields_skip place (by decide) fun last place =>
        ⟨[], rest, place, blank.append (.one .closeArray trivial)⟩
    next =>
      refine yields_separator place blank fun middle cursor place separated => ?_
      rw [bind_apply, yields_bind]
      refine (values _ _ place).imp ?_
      rintro ⟨_, cursor⟩ ⟨tree, rest', place, taken⟩
      have less := taken.length_lt (lexemes_ne_nil tree)
      have most := separated.length_le
      refine (ih place (by omega)).imp ?_
      rintro ⟨_, cursor⟩ ⟨items, took⟩
      refine ⟨tree :: items, ?_⟩
      rw [itemLexemes_cons, List.append_assoc, List.append_assoc]
      exact took.after taken |>.after separated

theorem skipName_takes (place : cursor.rest = encode chars) :
    Yields (skipName cursor) fun reached => ∃ pieces, Took [.string pieces, .colon] chars reached.2 := by
  unfold skipName
  rw [bind_apply, yields_bind]
  refine yields_peekToken place (fun _ _ _ => yields_failAtNext) fun c rest cursor place _ blank => ?_
  dsimp only
  split
  next quote =>
    obtain rfl := (lead_eq (by decide)).mp quote
    simp only [bind_apply, yields_bind]
    refine yields_skip place (by decide) fun behind place => ?_
    refine (skipString_takes place).imp ?_
    rintro ⟨_, cursor⟩ ⟨pieces, rest, rfl, place', formed⟩
    refine (readColon_takes place').imp fun reached colon => ⟨pieces, ?_⟩
    exact (colon.after (written_quoted formed)).after blank
  next => exact yields_failAtNext

theorem skipMembers_takes {item : Reader Unit} (values : PassesValues item) {steps : Nat} {first : Bool}
    (place : cursor.rest = encode chars) (enough : chars.length < steps) :
    Yields (skipMembers item steps first cursor) fun reached => ∃ members,
      Took (memberLexemes first members ++ [.closeObject]) chars reached.2 := by
  induction steps generalizing cursor chars first with
  | zero => exact absurd enough (Nat.not_lt_zero _)
  | succ steps ih =>
    rw [skipMembers, bind_apply, yields_bind]
    refine yields_peekToken place (fun _ _ _ => yields_failAtNext) fun c rest cursor place _ blank => ?_
    dsimp only
    split
    next closes =>
      obtain rfl := (lead_eq (by decide)).mp closes
      exact yields_skip place (by decide) fun last place =>
        ⟨[], rest, place, blank.append (.one .closeObject trivial)⟩
    next =>
      refine yields_separator place blank fun middle cursor place separated => ?_
      simp only [bind_apply, yields_bind]
      refine (skipName_takes place).imp ?_
      rintro ⟨_, cursor⟩ ⟨pieces, middle', place, named⟩
      refine (values _ _ place).imp ?_
      rintro ⟨_, cursor⟩ ⟨tree, rest', place, taken⟩
      have less := taken.length_lt (lexemes_ne_nil tree)
      have most := separated.length_le
      have most' := named.length_le
      refine (ih place (by omega)).imp ?_
      rintro ⟨_, cursor⟩ ⟨members, took⟩
      refine ⟨(pieces, tree) :: members, ?_⟩
      rw [memberLexemes_cons, List.append_assoc, List.cons_append, List.cons_append, List.append_assoc]
      exact (took.after taken |>.after named).after separated

private theorem took_spelled (word : List Char) (formed : (Lexeme.word word).Formed)
    (place : cursor.rest = encode rest) : TookTree (word ++ rest) cursor :=
  ⟨.word word, rest, place, .one _ formed⟩

private theorem name_passed {first : Char} {word : List Char} (place : cursor.rest = encode (first :: rest))
    (ascii : ∀ c ∈ first :: word, c.toNat < 0x80) (named : first :: word ∈ names) :
    Yields ((do
      skip
      readIdent word : Reader Unit) cursor) fun reached => TookTree (first :: rest) reached.2 := by
  obtain ⟨small, others⟩ := List.forall_mem_cons.mp ascii
  simp only [bind_apply, yields_bind]
  refine yields_skip place small fun behind place => (readIdent_takes others place).imp ?_
  rintro ⟨_, cursor⟩ ⟨rest, rfl, place'⟩
  exact took_spelled _ (Or.inl named) place'

theorem skipWith_takes {item : Reader Unit} (values : PassesValues item) : PassesValues (skipWith item) := by
  intro chars cursor place
  unfold skipWith
  rw [bind_apply, yields_bind]
  refine yields_peekToken place (fun _ _ _ => yields_failAtNext) fun c rest cursor place _ blank => ?_
  suffices Yields _ fun reached : Unit × Cursor => TookTree (c :: rest) reached.2 from
    this.imp fun _ ⟨tree, took⟩ => ⟨tree, took.after blank⟩
  have enough := length_le_encode rest
  dsimp only
  split
  next null =>
    obtain rfl := (lead_eq (by decide)).mp null
    exact name_passed place (by simp) (by decide)
  split
  next true =>
    obtain rfl := (lead_eq (by decide)).mp true
    exact name_passed place (by simp) (by decide)
  split
  next false =>
    obtain rfl := (lead_eq (by decide)).mp false
    exact name_passed place (by simp) (by decide)
  split
  next minus =>
    obtain rfl := (lead_eq (by decide)).mp minus
    rw [bind_apply, yields_bind]
    refine yields_skip place (by decide) fun behind place => (number_takes skipNumber_local place).imp ?_
    rintro ⟨_, cursor⟩ ⟨digit, text, rest, rfl, decimal, numeral, place', -⟩
    refine took_spelled ('-' :: digit :: text) (Or.inr ?_) place'
    exact ⟨⟨['-'], digit, text, rfl, Or.inr rfl, decimal⟩, List.forall_mem_cons.mpr ⟨rfl, numeral⟩⟩
  split
  next digit =>
    refine (number_takes skipNumber_local place).imp ?_
    rintro ⟨_, cursor⟩ ⟨digit, text, rest, same, decimal, numeral, place', -⟩
    obtain ⟨rfl, rfl⟩ := List.cons.inj same
    refine took_spelled (c :: text) (Or.inr ?_) place'
    exact ⟨⟨[], c, text, rfl, Or.inl rfl, decimal⟩, numeral⟩
  split
  next quote =>
    obtain rfl := (lead_eq (by decide)).mp quote
    rw [bind_apply, yields_bind]
    refine yields_skip place (by decide) fun behind place => (skipString_takes place).imp ?_
    rintro ⟨_, cursor⟩ ⟨pieces, rest, rfl, place', formed⟩
    exact ⟨.string pieces, rest, place', written_quoted formed⟩
  split
  next bracket =>
    obtain rfl := (lead_eq (by decide)).mp bracket
    simp only [bind_apply, yields_bind]
    refine yields_skip place (by decide) fun behind place => yields_ok.mpr ?_
    rw [← place] at enough
    refine (skipItems_takes values place (Nat.lt_succ_of_le enough)).imp ?_
    rintro ⟨_, cursor⟩ ⟨items, took⟩
    refine ⟨.array items, ?_⟩
    rw [lexemes]
    exact took.after (.one .openArray trivial)
  split
  next brace =>
    obtain rfl := (lead_eq (by decide)).mp brace
    simp only [bind_apply, yields_bind]
    refine yields_skip place (by decide) fun behind place => yields_ok.mpr ?_
    rw [← place] at enough
    refine (skipMembers_takes values place (Nat.lt_succ_of_le enough)).imp ?_
    rintro ⟨_, cursor⟩ ⟨members, took⟩
    refine ⟨.object members, ?_⟩
    rw [lexemes]
    exact took.after (.one .openObject trivial)
  next => exact yields_failAtNext

theorem skipLevels_takes (levels : Nat) : PassesValues (skipLevels levels) := by
  induction levels with
  | zero => exact skipWith_takes fun _ _ _ => yields_fail
  | succ levels ih => exact skipWith_takes ih

theorem skipValue_takes : PassesValues skipValue := by
  intro chars cursor place
  unfold skipValue
  rw [bind_apply, yields_bind]
  exact yields_ok.mpr (skipLevels_takes _ _ _ place)

end MessagePress.Proofs.JsonCollections
