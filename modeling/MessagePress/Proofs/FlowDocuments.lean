import MessagePress.Proofs.DecodedValues
import MessagePress.Proofs.FlowNodes
import MessagePress.Proofs.TemplateForms

/-! The values of a tree's nodes. Names and texts are what a reader of values makes of them; a
number is too where its spelling stands for the same number either way. -/

namespace MessagePress.Proofs.FlowDocuments
open Yaml Yaml.Decode JsonSyntax JsonForms JsonCollections TemplateForms FlowNodes DecodedValues
open Template (Sections decodeEntry decode)
open Text.Utf8 (encode)

variable {post : α → Prop} {mark : Mark} {path : Path} {depth : ℕ}

def Alike (word : List Char) : Prop :=
  ∀ value found, Json.ofBytes (encode word) = .ok value → jsonScalar word (plainValue word) = .ok found →
    found = value

/-- The words of some lexemes are alike. -/
def AllAlike (lexemes : List Lexeme) : Prop := ∀ word, .word word ∈ lexemes → Alike word

theorem AllAlike.append {front back : List Lexeme} (alike : AllAlike (front ++ back)) :
    AllAlike front ∧ AllAlike back :=
  ⟨fun word member => alike word (List.mem_append_left _ member),
    fun word member => alike word (List.mem_append_right _ member)⟩

theorem AllAlike.tail {lexeme : Lexeme} {lexemes : List Lexeme} (alike : AllAlike (lexeme :: lexemes)) :
    AllAlike lexemes := fun word member => alike word (List.mem_cons_of_mem _ member)

theorem resolve_decodes {node : Node} {next : Located → Decode α} (own : ∀ mark target, node ≠ .alias mark target)
    (given : Decodes (next ⟨node, path⟩) post) : Decodes (resolve ⟨node, path⟩ >>= next) post := by
  have same : resolve ⟨node, path⟩ = pure ⟨node, path⟩ := by
    cases node with
    | «alias» mark target => exact absurd rfl (own mark target)
    | _ => rfl
  rw [same, pure_bind]
  exact given

theorem text_decodes {expected : String} {text : List Char} {style : ScalarStyle} :
    Decodes (Decode.text expected ⟨.scalar mark none text style, path⟩) (· = String.ofList text) := by
  unfold Decode.text
  exact resolve_decodes nofun (placed_decodes _ _ (.pure rfl))

theorem scalar_decodes {inner? : Option (Located → Decode Json)} {text : List Char} {style : ScalarStyle}
    {value : Json} (alike : ∀ found,
      jsonScalar text (if style = .plain then plainValue text else .text) = .ok found → found = value) :
    Decodes (anyWith jsonBuilder inner? ⟨.scalar mark none text style, path⟩) (· = value) :=
  resolve_decodes nofun (placed_decodes _ _ (ofCause_decodes alike))

theorem sequence_decodes {inner? : Option (Located → Decode Json)} {items : List Node} {complete : Bool}
    {values : List Json}
    (each : ∀ inner, inner? = some inner → Decodes (Decode.readItems path inner complete 0 items) (· = values)) :
    Decodes (anyWith jsonBuilder inner? ⟨.sequence mark none items complete, path⟩) (· = .array values) := by
  refine resolve_decodes nofun (placed_decodes _ _ ?_)
  cases inner? with
  | none => exact throw_decodes _
  | some inner => exact .bind (each inner rfl) fun items known => .pure (congrArg Json.array known)

theorem mapping_decodes {inner? : Option (Located → Decode Json)} {entries : List Node} {complete : Bool}
    {members : Json.Members}
    (each : ∀ inner, inner? = some inner →
      Decodes (readEntries path jsonKey (jsonMember inner) complete 0 [] entries) (· = members)) :
    Decodes (anyWith jsonBuilder inner? ⟨.mapping mark none entries complete, path⟩) (· = .object members) := by
  refine resolve_decodes nofun (placed_decodes _ _ ?_)
  cases inner? with
  | none => exact throw_decodes _
  | some inner => exact .bind (each inner rfl) fun items known => .pure (congrArg Json.object known)

/-- Names and values in turn, put into members that are there already. -/
def inserted (members : Json.Members) (pairs : List (String × Json)) : Json.Members :=
  pairs.foldl (fun members (name, value) => members.insert name value) members

theorem named_text {pieces : List Piece} {name : String} (named : Names pieces name) (single : Single pieces) :
    String.ofList (content pieces) = name := (named single).symm

mutual

theorem json_decodes_tree (tree : Tree) {node : Node} {value : Json} (builds : Builds tree node)
    (means : Means tree value) (alike : AllAlike (lexemes tree)) (depth : ℕ) (path : Path) :
    Decodes (json depth ⟨node, path⟩) (· = value) := by
  have nested : ∃ inner?, json depth = anyWith jsonBuilder inner? ∧
      ∀ inner, inner? = some inner → ∃ below, inner = json below := by
    cases depth with
    | zero => exact ⟨none, rfl, nofun⟩
    | succ below => exact ⟨some (json below), rfl, by rintro _ ⟨⟩; exact ⟨below, rfl⟩⟩
  obtain ⟨inner?, same, inside⟩ := nested
  rw [same]
  cases tree with
  | word word =>
    rw [Builds] at builds
    obtain ⟨mark, rfl⟩ := builds
    rw [Means] at means
    exact scalar_decodes fun found given => alike word (by simp [lexemes]) value found means given
  | string pieces =>
    rw [Builds] at builds
    obtain ⟨single, mark, rfl⟩ := builds
    rw [Means] at means
    obtain ⟨name, rfl, named⟩ := means
    refine scalar_decodes fun found given => ?_
    rw [← named_text named single]
    exact (Except.ok.inj given).symm
  | array items =>
    rw [Builds] at builds
    obtain ⟨mark, nodes, rfl, builds⟩ := builds
    rw [Means] at means
    obtain ⟨values, rfl, means⟩ := means
    rw [lexemes] at alike
    refine sequence_decodes fun inner given => ?_
    obtain ⟨below, rfl⟩ := inside inner given
    exact items_decode items builds means alike.tail.append.1 below path true 0
  | object members =>
    rw [Builds] at builds
    obtain ⟨mark, nodes, rfl, builds⟩ := builds
    rw [Means] at means
    obtain ⟨pairs, rfl, means⟩ := means
    rw [lexemes] at alike
    refine mapping_decodes fun inner given => ?_
    obtain ⟨below, rfl⟩ := inside inner given
    exact members_decode members builds means alike.tail.append.1 below path true jsonKey 0 []

theorem items_decode (items : List Tree) {nodes : List Node} {values : List Json} {first : Bool}
    (builds : ItemsBuild items nodes) (means : ItemsMean items values)
    (alike : AllAlike (itemLexemes first items)) (depth : ℕ) (path : Path) (complete : Bool) (index : ℕ) :
    Decodes (Decode.readItems path (json depth) complete index nodes) (· = values) := by
  cases items with
  | nil =>
    rw [ItemsBuild] at builds
    rw [ItemsMean] at means
    subst builds means
    rw [Decode.readItems]
    split
    · exact .pure rfl
    · exact failAtEnd_decodes
  | cons item items =>
    rw [ItemsBuild] at builds
    obtain ⟨node, nodes, rfl, built, builds⟩ := builds
    rw [ItemsMean] at means
    obtain ⟨value, values, rfl, meant, means⟩ := means
    rw [itemLexemes_cons] at alike
    have alike := alike.append.2.append
    rw [Decode.readItems]
    refine .bind (json_decodes_tree item built meant alike.1 depth _) ?_
    rintro value rfl
    refine .bind (items_decode items builds means alike.2 depth path complete _) ?_
    rintro values rfl
    exact .pure rfl

theorem members_decode (members : List (List Piece × Tree)) {nodes : List Node} {pairs : List (String × Json)}
    {first : Bool} (builds : MembersBuild members nodes) (means : MembersMean members pairs)
    (alike : AllAlike (memberLexemes first members)) (depth : ℕ) (path : Path) (complete : Bool)
    (expected : ℕ → String) (index : ℕ) (before : Json.Members) :
    Decodes (readEntries path expected (jsonMember (json depth)) complete index before nodes)
      (· = inserted before pairs) := by
  cases members with
  | nil =>
    rw [MembersBuild] at builds
    rw [MembersMean] at means
    subst builds means
    rw [readEntries]
    split
    · exact .pure rfl
    · exact failAtEnd_decodes
  | cons member members =>
    obtain ⟨pieces, tree⟩ := member
    rw [MembersBuild] at builds
    obtain ⟨single, mark, node, nodes, rfl, built, builds⟩ := builds
    rw [MembersMean] at means
    obtain ⟨name, value, pairs, rfl, named, meant, means⟩ := means
    rw [memberLexemes_cons] at alike
    have alike := alike.append.2.tail.tail.append
    rw [readEntries]
    refine .bind text_decodes ?_
    rintro _ rfl
    have inserts : ∀ inner, Decodes (jsonMember (json depth) before (String.ofList (content pieces)) ⟨node, inner⟩)
        (· = before.insert name value) := by
      intro inner
      unfold jsonMember
      refine .bind (json_decodes_tree tree built meant alike.1 depth _) ?_
      rintro value rfl
      exact .pure (by rw [named_text named single])
    refine .bind (inserts _) ?_
    rintro _ rfl
    exact members_decode members builds means alike.2 depth path complete expected _ _

end

theorem entries_decode {σ : Type} {expected : String} {expectedKey : ℕ → String} {state after : σ}
    {step : ℕ → σ → String → Located → Decode σ} {finish : σ → Decode α} {entries : List Node}
    (each : ∀ inner, Decodes (readEntries path expectedKey (step inner) true 0 state entries) (· = after))
    (finished : Decodes (finish after) post) :
    Decodes (mapping depth expected expectedKey state step finish ⟨.mapping mark none entries true, path⟩) post := by
  unfold mapping
  refine resolve_decodes nofun (placed_decodes _ _ ?_)
  cases depth with
  | zero => exact throw_decodes _
  | succ inner =>
    refine .bind (each inner) ?_
    rintro _ rfl
    exact finished

theorem section_decodes {tree : Tree} {node : Node} {members : Json.Members} (builds : Builds tree node)
    (means : ObjectMeans tree members) (alike : AllAlike (lexemes tree)) (name : String) (old : Option Json.Members) :
    Decodes (once name old (jsonMembers depth ⟨node, path⟩)) (· = some members) := by
  obtain ⟨inside, pairs, rfl, rfl, means⟩ := means
  rw [Builds] at builds
  obtain ⟨mark, nodes, rfl, builds⟩ := builds
  rw [lexemes] at alike
  unfold once
  split
  · exact failWith_decodes _
  have read : Decodes (jsonMembers depth ⟨.mapping mark none nodes true, path⟩) (· = Json.Members.ofList pairs) :=
    entries_decode (fun inner => members_decode inside builds means alike.tail.append.1 inner path true _ 0 [])
      (.pure rfl)
  exact .bind read fun found known => .pure (congrArg some known)

theorem entry_decodes {tree : Tree} {node : Node} {name : String} {sections later : Sections}
    (builds : Builds tree node) (means : SectionMeans name tree sections later) (alike : AllAlike (lexemes tree)) :
    Decodes (decodeEntry depth sections name ⟨node, path⟩) (· = later) := by
  unfold SectionMeans at means
  unfold decodeEntry
  split
  · rw [if_pos rfl] at means
    obtain ⟨-, members, means, rfl⟩ := means
    refine .bind (section_decodes builds means alike _ _) ?_
    rintro _ rfl
    exact .pure rfl
  · rw [if_neg (by decide), if_pos rfl] at means
    obtain ⟨-, members, means, rfl⟩ := means
    refine .bind (section_decodes builds means alike _ _) ?_
    rintro _ rfl
    exact .pure rfl
  next first second =>
    rw [if_neg first, if_neg second] at means
    exact .behind fun _ => .pure means.symm

theorem sections_decode {members : List (List Piece × Tree)} {nodes : List Node} {sections later : Sections}
    {first : Bool} (builds : MembersBuild members nodes) (means : SectionsMean members sections later)
    (alike : AllAlike (memberLexemes first members)) (expected : ℕ → String) (index : ℕ) :
    Decodes (readEntries path expected (decodeEntry depth) true index sections nodes) (· = later) := by
  induction means generalizing nodes first index with
  | nil sections =>
    rw [MembersBuild] at builds
    subst builds
    rw [readEntries]
    exact .pure rfl
  | cons named meant means ih =>
    rw [MembersBuild] at builds
    obtain ⟨single, mark, node, nodes, rfl, built, builds⟩ := builds
    rw [memberLexemes_cons] at alike
    have alike := alike.append.2.tail.tail.append
    rw [readEntries]
    refine .bind text_decodes ?_
    rintro _ rfl
    rw [named_text named single]
    refine .bind (entry_decodes built meant alike.1) ?_
    rintro _ rfl
    exact ih builds alike.2 _

/-- The template of a tree's node is that of the tree, if there is one. -/
theorem template_decodes {tree : Tree} {node : Node} {template : Template} (builds : Builds tree node)
    (means : TemplateMeans tree template) (alike : AllAlike (lexemes tree)) :
    Decodes (decode ⟨node, .root⟩) (· = template) := by
  unfold decode fields
  cases means with
  | object means =>
    rw [Builds] at builds
    obtain ⟨mark, nodes, rfl, builds⟩ := builds
    rw [lexemes] at alike
    exact entries_decode (fun inner => sections_decode builds means alike.tail.append.1 _ 0) (.pure rfl)
  | array items template =>
    rw [Builds] at builds
    obtain ⟨mark, nodes, rfl, -⟩ := builds
    refine resolve_decodes nofun (placed_decodes _ _ ?_)
    dsimp only
    rw [if_neg (by exact Bool.false_ne_true)]
    exact failType_decodes _ _

end MessagePress.Proofs.FlowDocuments
