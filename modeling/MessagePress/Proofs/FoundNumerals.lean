import MessagePress.Proofs.JsonCollections

/-! The numbers in a text, found without reading its values: what is left between other characters
where strings are taken out. A tree that is written out has no other numbers. -/

namespace MessagePress.Proofs.FoundNumerals
open JsonSyntax JsonCollections

variable {text middle rest : List Char} {front more : List Lexeme} {c : Char}

/-- Where a text is read: outside of strings, inside of one, or behind a backslash there. -/
inductive Place
  | outside
  | inside
  | escaped

/-- A text without the insides of its strings. -/
def unquoted : Place → List Char → List Char
  | _, [] => []
  | .outside, c :: rest => c :: unquoted (if c = '"' then .inside else .outside) rest
  | .inside, c :: rest =>
    if c = '"' then c :: unquoted .outside rest
    else unquoted (if c = '\\' then .escaped else .inside) rest
  | .escaped, _ :: rest => unquoted .inside rest

def isOther (c : Char) : Bool := !isNumeralChar c

/-- The runs of a text's characters that numbers are made of. -/
def runs (text : List Char) : List (List Char) := (unquoted .outside text).splitOnP isOther

/-- The numbers that stand in a text. -/
def numerals (text : List Char) : List (List Char) := (runs text).filter (·.any Char.isDigit)

example : numerals "\x7b\"1\":[-0,true,2.5e3],\"\\\"4\":6\x7d".toList = ["-0".toList, "2.5e3".toList, "6".toList] := by
  decide

theorem runs_other (other : isOther c = true) (quote : c ≠ '"') : runs (c :: text) = [] :: runs text := by
  rw [runs, unquoted, if_neg quote, List.splitOnP_cons_eq_if_modifyHead, if_pos other, runs]

theorem unquoted_step (quote : c ≠ '"') (escape : c ≠ '\\') :
    unquoted .inside (c :: rest) = unquoted .inside rest := by
  rw [unquoted, if_neg quote, if_neg escape]

private theorem hexDigit_apart (digit : (Text.digitValue? 16 c).isSome = true) : c ≠ '"' ∧ c ≠ '\\' := by
  constructor
  all_goals
    rintro rfl
    exact absurd digit (by decide)

private theorem hexCode?_digits {a b c d : Char} (code : (hexCode? a b c d).isSome = true) :
    ∀ digit ∈ [a, b, c, d], (Text.digitValue? 16 digit).isSome = true := by
  unfold hexCode? at code
  simp only [Option.isSome_bind, Option.bind_eq_bind, Option.any_eq_true_iff_get] at code
  grind

theorem unquoted_piece {piece : Piece} (formed : piece.Formed) :
    unquoted .inside (piece.text ++ rest) = unquoted .inside rest := by
  cases piece with
  | plain c =>
    simp only [Piece.Formed, isPlain, Bool.and_eq_true, bne_iff_ne] at formed
    exact unquoted_step formed.1.2 formed.2
  | letter c =>
    rw [Piece.text, List.cons_append, unquoted, if_neg (by decide), if_pos rfl]
    rfl
  | code a b c d =>
    have digits := hexCode?_digits formed
    simp only [List.forall_mem_cons, List.not_mem_nil, false_imp_iff, implies_true, and_true] at digits
    obtain ⟨one, two, three, four⟩ := digits
    have escape : unquoted .inside ((Piece.code a b c d).text ++ rest) =
        unquoted .inside (a :: b :: c :: d :: rest) := rfl
    rw [escape, unquoted_step (hexDigit_apart one).1 (hexDigit_apart one).2,
      unquoted_step (hexDigit_apart two).1 (hexDigit_apart two).2,
      unquoted_step (hexDigit_apart three).1 (hexDigit_apart three).2,
      unquoted_step (hexDigit_apart four).1 (hexDigit_apart four).2]

theorem unquoted_pieces {pieces : List Piece} (formed : ∀ piece ∈ pieces, piece.Formed) :
    unquoted .inside (written pieces ++ '"' :: rest) = '"' :: unquoted .outside rest := by
  induction pieces with
  | nil => rfl
  | cons piece pieces ih =>
    obtain ⟨here, later⟩ := List.forall_mem_cons.mp formed
    rw [written, List.flatMap_cons, List.append_assoc, unquoted_piece here]
    exact ih later

theorem runs_string {pieces : List Piece} (formed : ∀ piece ∈ pieces, piece.Formed) :
    runs ((Lexeme.string pieces).text ++ rest) = [] :: [] :: runs rest := by
  have whole : (Lexeme.string pieces).text ++ rest = '"' :: (written pieces ++ '"' :: rest) := by
    simp [Lexeme.text]
  rw [whole, runs, unquoted, if_pos rfl, unquoted_pieces formed, List.splitOnP_cons_eq_if_modifyHead,
    if_pos (by decide), List.splitOnP_cons_eq_if_modifyHead, if_pos (by decide), runs]

theorem splitOnP_run {word : List Char} (inside : ∀ c ∈ word, isOther c = false) :
    word.splitOnP isOther = [word] := by
  induction word with
  | nil => rfl
  | cons c word ih =>
    obtain ⟨here, later⟩ := List.forall_mem_cons.mp inside
    rw [List.splitOnP_cons_eq_if_modifyHead, here, if_neg Bool.false_ne_true, ih later]
    rfl

theorem unquoted_plain {word : List Char} (plain : ∀ c ∈ word, c ≠ '"') :
    unquoted .outside (word ++ text) = word ++ unquoted .outside text := by
  induction word with
  | nil => rfl
  | cons c word ih =>
    obtain ⟨here, later⟩ := List.forall_mem_cons.mp plain
    rw [List.cons_append, unquoted, if_neg here, ih later, List.cons_append]

/-- A text in front of which a number ends. -/
def Apart (text : List Char) : Prop := ∀ c, text.head? = some c → isOther c = true

theorem runs_word {word : List Char} (plain : ∀ c ∈ word, c ≠ '"') (ends : Apart text) :
    (∀ run ∈ word.splitOnP isOther, run ∈ runs (word ++ text)) ∧
      ∀ run ∈ runs text, run ≠ [] → run ∈ runs (word ++ text) := by
  rw [runs, runs, unquoted_plain plain]
  cases text with
  | nil =>
    rw [unquoted, List.append_nil]
    refine ⟨fun run member => member, fun run member some => ?_⟩
    exact absurd (List.mem_singleton.mp member) some
  | cons c text =>
    have other := ends c rfl
    rw [unquoted, List.splitOnP_append_cons _ _ other, List.splitOnP_cons_eq_if_modifyHead, if_pos other]
    refine ⟨fun run member => List.mem_append_left _ member, fun run member some => List.mem_append_right _ ?_⟩
    exact (List.mem_cons.mp member).resolve_left some

/-- No word follows another one directly. -/
def Parted : List Lexeme → Prop
  | [] => True
  | .word _ :: rest => (∀ word, rest.head? ≠ some (.word word)) ∧ Parted rest
  | _ :: rest => Parted rest

private theorem blank_other (blank : isBlank c = true) : isOther c = true ∧ c ≠ '"' := by
  simp only [isBlank, Bool.or_eq_true, beq_iff_eq] at blank
  rcases blank with ((rfl | rfl) | rfl) | rfl <;> decide

private theorem numeralChar_plain (numeral : isNumeralChar c = true) : c ≠ '"' := by
  rintro rfl
  cases numeral

private theorem name_plain {name : List Char} (named : name ∈ names) (member : c ∈ name) : c ≠ '"' := by
  have plain : names.all (·.all (· != '"')) = true := rfl
  exact bne_iff_ne.mp (List.all_eq_true.mp (List.all_eq_true.mp plain name named) c member)

theorem runs_blank {blanks : List Char} (blank : ∀ c ∈ blanks, isBlank c = true) {run : List Char}
    (member : run ∈ runs text) : run ∈ runs (blanks ++ text) := by
  induction blanks with
  | nil => exact member
  | cons c blanks ih =>
    obtain ⟨here, later⟩ := List.forall_mem_cons.mp blank
    rw [List.cons_append, runs_other (blank_other here).1 (blank_other here).2]
    exact List.mem_cons_of_mem _ (ih later)

theorem written_apart (written : Written more text []) (ends : ∀ word, more.head? ≠ some (.word word)) :
    Apart text := by
  intro c head
  cases written with
  | @nil blanks _ blank =>
    rw [List.append_nil] at head
    exact (blank_other (blank c (List.mem_of_mem_head? head))).1
  | @cons blanks middle _ lexeme lexemes blank formed behind =>
    cases blanks with
    | cons d blanks =>
      obtain rfl := Option.some.inj head
      exact (blank_other (blank _ List.mem_cons_self)).1
    | nil =>
      cases lexeme with
      | word word => exact absurd rfl (ends word)
      | _ =>
        obtain rfl := Option.some.inj head
        decide

theorem written_formed (written : Written front text rest) : ∀ lexeme ∈ front, lexeme.Formed := by
  induction written with
  | nil => exact List.forall_mem_nil _
  | cons _ formed _ ih => exact List.forall_mem_cons.mpr ⟨formed, ih⟩

theorem found_run {word : List Char} (written : Written front text []) (parted : Parted front)
    (numeral : Numeral word) (member : .word word ∈ front) : word ∈ runs text := by
  have some : (Lexeme.word word).text ≠ [] := Lexeme.text_ne_nil (Or.inr numeral)
  generalize ended : ([] : List Char) = rest at written
  induction written with
  | nil => cases member
  | @cons blanks middle rest lexeme lexemes blank formed behind ih =>
    subst ended
    refine runs_blank blank ?_
    have later (parted : Parted lexemes) (member : Lexeme.word word ∈ lexemes) := ih parted member rfl
    cases lexeme with
    | word first =>
      obtain ⟨ends, parted⟩ := parted
      have plain : ∀ c ∈ first, c ≠ '"' := fun c member =>
        formed.elim (fun named => name_plain named member) fun numeral => numeralChar_plain (numeral.spelled c member)
      obtain ⟨here, onward⟩ := runs_word plain (written_apart behind ends)
      rcases List.mem_cons.mp member with same | member
      · obtain rfl := Lexeme.word.inj same
        refine here word ?_
        rw [splitOnP_run fun c member => by rw [isOther, numeral.spelled c member]; rfl]
        exact List.mem_singleton_self word
      · exact onward word (later parted member) some
    | string pieces =>
      rw [runs_string formed]
      have member := (List.mem_cons.mp member).resolve_left (by rintro ⟨⟩)
      exact List.mem_cons_of_mem _ (List.mem_cons_of_mem _ (later parted member))
    | _ =>
      rw [Lexeme.text, List.singleton_append, runs_other (by decide) (by decide)]
      have member := (List.mem_cons.mp member).resolve_left (by rintro ⟨⟩)
      exact List.mem_cons_of_mem _ (later parted member)

theorem found_numeral {word : List Char} (written : Written front text []) (parted : Parted front)
    (numeral : Numeral word) (member : .word word ∈ front) : word ∈ numerals text := by
  refine List.mem_filter.mpr ⟨found_run written parted numeral member, ?_⟩
  obtain ⟨sign, digit, rest, rfl, -, decimal⟩ := numeral.begins
  rw [List.any_append, List.any_cons, decimal, Bool.true_or, Bool.or_true]

/-- What may follow a value inside of a tree. -/
def Marks (more : List Lexeme) : Prop := (∀ word, more.head? ≠ some (.word word)) ∧ Parted more

mutual

theorem parted_tree (tree : Tree) {more : List Lexeme} (marks : Marks more) : Parted (lexemes tree ++ more) := by
  cases tree with
  | word word => rw [lexemes]; exact marks
  | string pieces => rw [lexemes]; exact marks.2
  | array items =>
    rw [lexemes, List.cons_append, List.append_assoc]
    have closed : Marks (.closeArray :: more) := ⟨nofun, marks.2⟩
    exact (parted_items items true closed).2
  | object members =>
    rw [lexemes, List.cons_append, List.append_assoc]
    have closed : Marks (.closeObject :: more) := ⟨nofun, marks.2⟩
    exact (parted_members members true closed).2

theorem parted_items (items : List Tree) (first : Bool) {more : List Lexeme} (marks : Marks more) :
    (first = false → ∀ word, (itemLexemes first items ++ more).head? ≠ some (.word word)) ∧
      Parted (itemLexemes first items ++ more) := by
  cases items with
  | nil => rw [itemLexemes]; exact ⟨fun _ => marks.1, marks.2⟩
  | cons item items =>
    rw [itemLexemes_cons, List.append_assoc, List.append_assoc]
    have inner := parted_items items false marks
    have here := parted_tree item ⟨inner.1 rfl, inner.2⟩
    cases first with
    | true => exact ⟨nofun, here⟩
    | false => exact ⟨fun _ => nofun, here⟩

theorem parted_members (members : List (List Piece × Tree)) (first : Bool) {more : List Lexeme} (marks : Marks more) :
    (first = false → ∀ word, (memberLexemes first members ++ more).head? ≠ some (.word word)) ∧
      Parted (memberLexemes first members ++ more) := by
  cases members with
  | nil => rw [memberLexemes]; exact ⟨fun _ => marks.1, marks.2⟩
  | cons member members =>
    obtain ⟨name, value⟩ := member
    rw [memberLexemes_cons, List.append_assoc, List.cons_append, List.cons_append, List.append_assoc]
    have inner := parted_members members false marks
    have here := parted_tree value ⟨inner.1 rfl, inner.2⟩
    cases first with
    | true => exact ⟨nofun, here⟩
    | false => exact ⟨fun _ => nofun, here⟩

end

/-- Every word of a tree is a name, or a number that is found in its text. -/
theorem found_word {tree : Tree} {word : List Char} (written : Written (lexemes tree) text [])
    (member : .word word ∈ lexemes tree) : word ∈ names ∨ word ∈ numerals text := by
  have parted : Parted (lexemes tree ++ []) := parted_tree tree ⟨nofun, trivial⟩
  rw [List.append_nil] at parted
  exact (written_formed written _ member).imp_right fun numeral => found_numeral written parted numeral member

end MessagePress.Proofs.FoundNumerals
