import MessagePress.Proofs.FlowRuns
import MessagePress.Yaml.Node

/-! The nodes of a tree's tokens. Each token of a flow collection leads to one event at most, so
the events do not run out before the document is complete. -/

namespace MessagePress.Proofs.FlowNodes
open Yaml Yaml.Assemble FlowRuns JsonSyntax

variable {document : Document} {grove grove' : Grove} {state state' : Assembly} {event : Event} {steps : Nat}

/-- The machine goes on to a document without a fault, and may take so many steps at least. -/
def Ends (steps : Nat) (document : Document) (state : Assembly) (grove : Grove) : Prop :=
  ∃ most, steps ≤ most ∧ (assemble most state).fault = none ∧
    Grove.ofEvents none (assemble most state).events grove = document

theorem Ends.fewer {less : Nat} (ends : Ends steps document state grove) (le : less ≤ steps) :
    Ends less document state grove := by
  obtain ⟨most, enough, through⟩ := ends
  exact ⟨most, Nat.le_trans le enough, through⟩

theorem Ends.next (ends : Ends (steps + 1) document state grove) (made : Assemble.next state = .ok (event, state'))
    (other : event.kind ≠ .streamEnd)
    (takes : ∀ later, Grove.ofEvents none (event :: later) grove = Grove.ofEvents none later grove') :
    Ends steps document state' grove' := by
  obtain ⟨most, enough, through, built⟩ := ends
  obtain ⟨most, rfl⟩ := Nat.exists_eq_add_of_le' (Nat.le_trans (Nat.succ_pos steps) enough)
  rw [assemble, StateT.run, made] at through built
  dsimp only at through built
  rw [if_neg other] at through built
  exact ⟨most, Nat.le_of_succ_le_succ enough, through, (takes _).symm.trans built⟩

theorem Ends.faultless {fault : SyntaxFault} (ends : Ends (steps + 1) document state grove) :
    Assemble.next state ≠ .error fault := by
  intro made
  obtain ⟨most, enough, through, -⟩ := ends
  obtain ⟨most, rfl⟩ := Nat.exists_eq_add_of_le' (Nat.le_trans (Nat.succ_pos steps) enough)
  rw [assemble, StateT.run, made] at through
  cases through

theorem Ends.last (ends : Ends (steps + 1) document state grove) (made : Assemble.next state = .ok (event, state'))
    (last : event.kind = .documentEnd) : ∃ followed, document = grove.document none followed := by
  obtain ⟨most, enough, through, built⟩ := ends
  obtain ⟨most, rfl⟩ := Nat.exists_eq_add_of_le' (Nat.le_trans (Nat.succ_pos steps) enough)
  rw [assemble, StateT.run, made] at built
  dsimp only at built
  rw [if_neg (by rw [last]; nofun), Grove.ofEvents.eq_def] at built
  dsimp only at built
  rw [last] at built
  exact ⟨_, built.symm⟩

mutual

/-- The node of a tree: its scalars as they are written or quoted, without properties. -/
def Builds : Tree → Node → Prop
  | .word word, node => ∃ mark, node = .scalar mark none word .plain
  | .string pieces, node => Single pieces ∧ ∃ mark, node = .scalar mark none (content pieces) .doubleQuoted
  | .array items, node => ∃ mark nodes, node = .sequence mark none nodes true ∧ ItemsBuild items nodes
  | .object members, node => ∃ mark nodes, node = .mapping mark none nodes true ∧ MembersBuild members nodes

def ItemsBuild : List Tree → List Node → Prop
  | [], nodes => nodes = []
  | item :: items, nodes => ∃ node later, nodes = node :: later ∧ Builds item node ∧ ItemsBuild items later

/-- The nodes of names and values in turn. -/
def MembersBuild : List (List Piece × Tree) → List Node → Prop
  | [], nodes => nodes = []
  | (name, value) :: members, nodes => Single name ∧ ∃ mark node later,
      nodes = .scalar mark none (content name) .doubleQuoted :: node :: later ∧ Builds value node ∧
        MembersBuild members later

end

/-- A grove with one more node, which stands at its root or in the innermost open collection. -/
def Added (grove : Grove) (node : Node) (grown : Grove) : Prop :=
  match grove.frames with
  | [] => grown.frames = [] ∧ grown.root = some node
  | frame :: rest => grown.frames = { frame with items := node :: frame.items } :: rest

theorem added_add (grove : Grove) (place : Nat) (node : Node) : Added grove node (grove.add place node).counted := by
  obtain ⟨frames, root, size, names, places, nodes⟩ := grove
  cases frames with
  | nil => exact ⟨rfl, rfl⟩
  | cons frame rest => rfl

/-- What the machine has in front of it, and what comes next. -/
structure Waits (state : Assembly) (kinds : List TokenKind) (now : Expecting) (later : List Expecting) : Prop where
  tokens : state.tokens.map (·.kind) = kinds
  now : state.now = now
  later : state.later = later

inductive Heads : TokenKind → Prop
  | scalar (text : List Char) (style : ScalarStyle) : Heads (.scalar text style)
  | sequence : Heads .flowSequenceStart
  | mapping : Heads .flowMappingStart

theorem shown_heads {tree : Tree} {kinds : List TokenKind} (shown : Shown tree kinds) :
    ∃ kind rest, kinds = kind :: rest ∧ Heads kind := by
  cases tree with
  | word word =>
    rw [Shown] at shown
    exact ⟨_, _, shown, .scalar _ _⟩
  | string pieces =>
    rw [Shown] at shown
    exact ⟨_, _, shown.2, .scalar _ _⟩
  | array items =>
    rw [Shown] at shown
    obtain ⟨inner, -, rfl⟩ := shown
    exact ⟨_, _, rfl, .sequence⟩
  | object members =>
    rw [Shown] at shown
    obtain ⟨inner, -, rfl⟩ := shown
    exact ⟨_, _, rfl, .mapping⟩

/-- The next event is that of a node. -/
def Starts (state : Assembly) (kinds : List TokenKind) (later : List Expecting) : Prop :=
  ∃ block state', Assemble.next state = node block false state' ∧ state'.tokens.map (·.kind) = kinds ∧
    state'.later = later

theorem Waits.cons {kind : TokenKind} {kinds : List TokenKind} {now : Expecting} {later : List Expecting}
    (waits : Waits state (kind :: kinds) now later) :
    ∃ start stop tokens fault marks handles, tokens.map (·.kind) = kinds ∧
      state = ⟨⟨kind, start, stop⟩ :: tokens, fault, now, later, marks, handles⟩ := by
  obtain ⟨tokens, fault, now, later, marks, handles⟩ := state
  obtain ⟨given, rfl, rfl⟩ := waits
  obtain ⟨⟨_, start, stop⟩, tokens, rfl, rfl, same⟩ := List.map_eq_cons_iff.mp given
  exact ⟨start, stop, tokens, fault, marks, handles, same, rfl⟩

theorem starts_root {kinds : List TokenKind} {later : List Expecting}
    (waits : Waits state kinds .blockNode later) : Starts state kinds later := by
  obtain ⟨tokens, fault, now, later, marks, handles⟩ := state
  obtain ⟨given, rfl, rfl⟩ := waits
  exact ⟨true, _, rfl, given, rfl⟩

def startKind (mapping : Bool) : TokenKind := if mapping then .flowMappingStart else .flowSequenceStart

def stopKind (mapping : Bool) : TokenKind := if mapping then .flowMappingEnd else .flowSequenceEnd

/-- What comes next in a collection; the token that opens it is passed with what comes first. -/
def place (mapping first : Bool) : Expecting := if mapping then .flowMappingKey first else .flowSequenceEntry first

def opening (mapping first : Bool) : List TokenKind := if first then [startKind mapping] else []

theorem starts_item {first : Bool} {kind : TokenKind} {kinds : List TokenKind} {later : List Expecting}
    (heads : Heads kind)
    (waits : Waits state (opening false first ++ (separatorKinds first ++ kind :: kinds)) (place false first) later) :
    Starts state (kind :: kinds) (place false false :: later) := by
  cases first
  all_goals
    obtain ⟨start, stop, tokens, fault, marks, handles, inside, rfl⟩ := waits.cons
    obtain ⟨⟨_, start', stop'⟩, tokens, rfl, rfl, behind⟩ := List.map_eq_cons_iff.mp inside
  · refine ⟨false, ⟨_, fault, .flowSequenceEntry false, _, marks, handles⟩, ?_, inside, rfl⟩
    cases heads <;> rfl
  · refine ⟨false, ⟨_, fault, .flowSequenceEntry true, _, start :: marks, handles⟩, ?_, inside, rfl⟩
    cases heads <;> rfl

theorem starts_key {first : Bool} {text : List Char} {style : ScalarStyle} {kinds : List TokenKind}
    {later : List Expecting}
    (waits : Waits state (opening true first ++ (separatorKinds first ++ .key :: .scalar text style :: kinds))
      (place true first) later) :
    Starts state (.scalar text style :: kinds) (.flowMappingValue false :: later) := by
  cases first
  all_goals
    obtain ⟨start, stop, tokens, fault, marks, handles, inside, rfl⟩ := waits.cons
    obtain ⟨⟨_, start', stop'⟩, tokens, rfl, rfl, behind⟩ := List.map_eq_cons_iff.mp inside
    obtain ⟨⟨_, start'', stop''⟩, tokens, rfl, rfl, last⟩ := List.map_eq_cons_iff.mp behind
  · exact ⟨false, ⟨_, fault, .flowMappingKey false, _, marks, handles⟩, rfl, behind, rfl⟩
  · exact ⟨false, ⟨_, fault, .flowMappingKey true, _, start :: marks, handles⟩, rfl, behind, rfl⟩

theorem starts_bare {first : Bool} {text : List Char} {style : ScalarStyle} {kinds : List TokenKind}
    {later : List Expecting}
    (waits : Waits state (opening true first ++ (separatorKinds first ++ .scalar text style :: kinds))
      (place true first) later) :
    Starts state (.scalar text style :: kinds) (.flowMappingValue true :: later) := by
  cases first
  all_goals
    obtain ⟨start, stop, tokens, fault, marks, handles, inside, rfl⟩ := waits.cons
    obtain ⟨⟨_, start', stop'⟩, tokens, rfl, rfl, behind⟩ := List.map_eq_cons_iff.mp inside
  · exact ⟨false, ⟨_, fault, .flowMappingKey false, _, marks, handles⟩, rfl, inside, rfl⟩
  · exact ⟨false, ⟨_, fault, .flowMappingKey true, _, start :: marks, handles⟩, rfl, inside, rfl⟩

theorem valueless_stops {kinds : List TokenKind} {later : List Expecting}
    (waits : Waits state (.value :: kinds) (.flowMappingValue true) later) :
    ¬Ends (steps + 2) document state grove := by
  obtain ⟨start, stop, tokens, fault, marks, handles, inside, rfl⟩ := waits.cons
  intro ends
  have empty : Assemble.next ⟨⟨.value, start, stop⟩ :: tokens, fault, .flowMappingValue true, later, marks, handles⟩ =
      .ok (⟨.scalar ⟨none, none⟩ [] .plain, start⟩,
        ⟨⟨.value, start, stop⟩ :: tokens, fault, .flowMappingKey false, later, marks, handles⟩) := rfl
  exact (ends.next empty nofun fun _ => rfl).faultless rfl

theorem starts_value {kind : TokenKind} {kinds : List TokenKind} {later : List Expecting} (heads : Heads kind)
    (waits : Waits state (.value :: kind :: kinds) (.flowMappingValue false) later) :
    Starts state (kind :: kinds) (place true false :: later) := by
  obtain ⟨start, stop, tokens, fault, marks, handles, inside, rfl⟩ := waits.cons
  obtain ⟨⟨_, start', stop'⟩, tokens, rfl, rfl, behind⟩ := List.map_eq_cons_iff.mp inside
  refine ⟨false, ⟨_, fault, .flowMappingValue false, _, marks, handles⟩, ?_, inside, rfl⟩
  cases heads <;> rfl

/-- What a node that is complete leaves. -/
def Completes (steps : Nat) (document : Document) (grove : Grove) (built : Node → Prop) (kinds : List TokenKind)
    (now : Expecting) (later : List Expecting) : Prop :=
  ∃ state node grown, built node ∧ Added grove node grown ∧ Waits state kinds now later ∧
    Ends steps document state grown

theorem scalar_completes {text : List Char} {style : ScalarStyle} {kinds : List TokenKind} {now : Expecting}
    {later : List Expecting} (starts : Starts state (.scalar text style :: kinds) (now :: later))
    (ends : Ends (steps + 1) document state grove) :
    Completes steps document grove (fun node => ∃ mark, node = .scalar mark none text style) kinds now later := by
  obtain ⟨block, ⟨tokens, fault, place, _, marks, handles⟩, made, given, rfl⟩ := starts
  obtain ⟨⟨_, start, stop⟩, tokens, rfl, rfl, behind⟩ := List.map_eq_cons_iff.mp given
  have step : Assemble.next state =
      .ok (⟨.scalar ⟨none, none⟩ text style, start⟩, ⟨tokens, fault, now, later, marks, handles⟩) := by
    rw [made]
    cases block <;> rfl
  exact ⟨_, _, _, ⟨start, rfl⟩, added_add grove grove.size _, ⟨behind, rfl, rfl⟩, ends.next step nofun fun _ => rfl⟩

variable {frame : Frame} {frames : List Frame} {first : Bool} {kinds : List TokenKind} {now : Expecting}
  {later : List Expecting}

theorem Added.inside {node : Node} (added : Added grove node grove') (inside : grove.frames = frame :: frames) :
    grove'.frames = { frame with items := node :: frame.items } :: frames := by
  rwa [Added, inside] at added

def closed (frame : Frame) : Node :=
  if frame.mapping then .mapping frame.mark frame.tag frame.items.reverse true
  else .sequence frame.mark frame.tag frame.items.reverse true

theorem added_close (outer : Grove) (inside : grove.frames = frame :: outer.frames) :
    Added outer (closed frame) (grove.closeFrame true).counted := by
  have added := added_add { grove with frames := outer.frames } frame.place (closed frame)
  unfold Grove.closeFrame
  rw [inside]
  exact added

theorem collection_opens {mapping : Bool} (starts : Starts state (startKind mapping :: kinds) later)
    (ends : Ends (steps + 1) document state grove) :
    ∃ state' mark number opened, Waits state' (opening mapping true ++ kinds) (place mapping true) later ∧
      opened.frames = ⟨mapping, mark, none, number, []⟩ :: grove.frames ∧ Ends steps document state' opened := by
  obtain ⟨block, ⟨tokens, fault, now, later, marks, handles⟩, made, given, rfl⟩ := starts
  obtain ⟨⟨_, start, stop⟩, tokens, rfl, rfl, behind⟩ := List.map_eq_cons_iff.mp given
  have step : Assemble.next state =
      .ok (⟨if mapping then .mappingStart ⟨none, none⟩ else .sequenceStart ⟨none, none⟩, start⟩,
        ⟨⟨startKind mapping, start, stop⟩ :: tokens, fault, place mapping true, later, marks, handles⟩) := by
    rw [made]
    cases block <;> cases mapping <;> rfl
  refine ⟨⟨_, fault, place mapping true, later, marks, handles⟩, start, grove.size,
    grove.openFrame mapping start ⟨none, none⟩, ⟨given, rfl, rfl⟩, rfl, ?_⟩
  cases mapping
  all_goals exact ends.next step nofun fun _ => rfl

theorem collection_closes {mapping : Bool} (outer : Grove)
    (waits : Waits state (opening mapping first ++ stopKind mapping :: kinds) (place mapping first) (now :: later))
    (inside : grove.frames = frame :: outer.frames) (ends : Ends (steps + 1) document state grove) :
    Completes steps document outer (· = closed frame) kinds now later := by
  have step : ∃ mark state', Assemble.next state =
      .ok (⟨if mapping then .mappingEnd else .sequenceEnd, mark⟩, state') ∧ Waits state' kinds now later := by
    cases first with
    | false =>
      obtain ⟨start, stop, tokens, fault, marks, handles, behind, rfl⟩ := waits.cons
      refine ⟨start, ⟨tokens, fault, now, later, marks.drop 1, handles⟩, ?_, behind, rfl, rfl⟩
      cases mapping <;> rfl
    | true =>
      obtain ⟨start, stop, tokens, fault, marks, handles, inside, rfl⟩ := waits.cons
      obtain ⟨⟨_, start', stop'⟩, tokens, rfl, rfl, behind⟩ := List.map_eq_cons_iff.mp inside
      refine ⟨start', ⟨tokens, fault, now, later, marks, handles⟩, ?_, behind, rfl, rfl⟩
      cases mapping <;> rfl
  obtain ⟨mark, state', step, waits⟩ := step
  refine ⟨state', closed frame, (grove.closeFrame true).counted, rfl, added_close outer inside, waits, ?_⟩
  cases mapping
  all_goals exact ends.next step nofun fun _ => rfl

/-- The inside of a collection has been passed. -/
def Passes (steps : Nat) (document : Document) (mapping : Bool) (frame : Frame) (frames : List Frame)
    (built : List Node → Prop) (kinds : List TokenKind) (later : List Expecting) : Prop :=
  ∃ first state grove nodes, built nodes ∧
    Waits state (opening mapping first ++ kinds) (place mapping first) later ∧
    grove.frames = { frame with items := nodes.reverse ++ frame.items } :: frames ∧ Ends steps document state grove

theorem collection_completes {mapping : Bool} {inner : List TokenKind} {built : Mark → List Node → Prop}
    (passes : ∀ {state grove mark number}, Waits state (opening mapping true ++ (inner ++ stopKind mapping :: kinds))
      (place mapping true) (now :: later) → grove.frames = ⟨mapping, mark, none, number, []⟩ :: frames →
      Ends (2 * inner.length + (steps + 1)) document state grove →
      Passes (steps + 1) document mapping ⟨mapping, mark, none, number, []⟩ frames (built mark)
        (stopKind mapping :: kinds) (now :: later))
    (outer : grove.frames = frames)
    (starts : Starts state (startKind mapping :: (inner ++ [stopKind mapping]) ++ kinds) (now :: later))
    (ends : Ends (2 * (startKind mapping :: (inner ++ [stopKind mapping])).length + steps) document state grove) :
    Completes steps document grove (fun node => ∃ mark nodes, built mark nodes ∧
      node = if mapping then .mapping mark none nodes true else .sequence mark none nodes true) kinds now later := by
  subst outer
  rw [List.cons_append, List.append_assoc] at starts
  have enough : 2 * inner.length + (steps + 1) + 1 ≤
      2 * (startKind mapping :: (inner ++ [stopKind mapping])).length + steps := by
    simp only [List.length_cons, List.length_append, List.length_nil]
    omega
  obtain ⟨state, mark, number, opened, waits, inside, ends⟩ := collection_opens starts (ends.fewer enough)
  obtain ⟨first, state, grove', nodes, built, waits, inside, ends⟩ := passes waits inside ends
  obtain ⟨state, node, grown, rfl, rest⟩ := collection_closes grove waits inside ends
  exact ⟨state, _, grown, ⟨mark, nodes, built, by simp [closed]⟩, rest⟩

mutual

theorem tree_completes (tree : Tree) {state : Assembly} {grove : Grove} {shown kinds : List TokenKind}
    {now : Expecting} {later : List Expecting} {steps : Nat} (shows : Shown tree shown)
    (starts : Starts state (shown ++ kinds) (now :: later))
    (ends : Ends (2 * shown.length + steps) document state grove) :
    Completes steps document grove (Builds tree) kinds now later := by
  cases tree with
  | word word =>
    rw [Shown] at shows
    subst shows
    have enough : steps + 1 ≤ 2 * [TokenKind.scalar word .plain].length + steps := by
      rw [List.length_singleton]; omega
    obtain ⟨state, node, grown, built, rest⟩ := scalar_completes starts (ends.fewer enough)
    exact ⟨state, node, grown, by rwa [Builds], rest⟩
  | string pieces =>
    rw [Shown] at shows
    obtain ⟨single, rfl⟩ := shows
    have enough : steps + 1 ≤ 2 * [TokenKind.scalar (content pieces) .doubleQuoted].length + steps := by
      rw [List.length_singleton]; omega
    obtain ⟨state, node, grown, built, rest⟩ := scalar_completes starts (ends.fewer enough)
    exact ⟨state, node, grown, by rw [Builds]; exact ⟨single, built⟩, rest⟩
  | array items =>
    rw [Shown] at shows
    obtain ⟨inner, shows, rfl⟩ := shows
    obtain ⟨state, node, grown, ⟨mark, nodes, built, rfl⟩, rest⟩ :=
      @collection_completes _ _ _ _ _ _ _ _ false inner _ (items_pass items true shows) rfl starts ends
    exact ⟨state, _, grown, by rw [Builds]; exact ⟨mark, nodes, rfl, built⟩, rest⟩
  | object members =>
    rw [Shown] at shows
    obtain ⟨inner, shows, rfl⟩ := shows
    obtain ⟨state, node, grown, ⟨mark, nodes, built, rfl⟩, rest⟩ :=
      @collection_completes _ _ _ _ _ _ _ _ true inner _ (members_pass members true shows) rfl starts ends
    exact ⟨state, _, grown, by rw [Builds]; exact ⟨mark, nodes, rfl, built⟩, rest⟩

theorem items_pass (items : List Tree) (first : Bool) {state : Assembly} {grove : Grove}
    {shown kinds : List TokenKind} {later : List Expecting} {frame : Frame} {frames : List Frame} {steps : Nat}
    (shows : ItemsShown first items shown)
    (waits : Waits state (opening false first ++ (shown ++ kinds)) (place false first) later)
    (inside : grove.frames = frame :: frames) (ends : Ends (2 * shown.length + steps) document state grove) :
    Passes steps document false frame frames (ItemsBuild items) kinds later := by
  cases items with
  | nil =>
    rw [ItemsShown] at shows
    subst shows
    exact ⟨first, state, grove, [], by rw [ItemsBuild], waits, inside, ends.fewer (Nat.le_add_left _ _)⟩
  | cons item items =>
    rw [ItemsShown] at shows
    obtain ⟨here, behind, shows, others, rfl⟩ := shows
    obtain ⟨kind, rest, rfl, heads⟩ := shown_heads shows
    have enough : 2 * (kind :: rest).length + (2 * behind.length + steps) ≤
        2 * (separatorKinds first ++ (kind :: rest ++ behind)).length + steps := by
      simp only [List.length_append]
      omega
    simp only [List.append_assoc, List.cons_append] at waits
    obtain ⟨state, node, grown, built, added, waits, ends⟩ :=
      tree_completes item shows (starts_item heads waits) (ends.fewer enough)
    obtain ⟨first, state, grove, nodes, builts, waits, inside, ends⟩ :=
      items_pass items false others waits (added.inside inside) ends
    refine ⟨first, state, grove, node :: nodes, ?_, waits, ?_, ends⟩
    · rw [ItemsBuild]
      exact ⟨node, nodes, rfl, built, builts⟩
    · rw [inside, List.reverse_cons, List.append_assoc, List.singleton_append]

theorem members_pass (members : List (List Piece × Tree)) (first : Bool) {state : Assembly} {grove : Grove}
    {shown kinds : List TokenKind} {later : List Expecting} {frame : Frame} {frames : List Frame} {steps : Nat}
    (shows : MembersShown first members shown)
    (waits : Waits state (opening true first ++ (shown ++ kinds)) (place true first) later)
    (inside : grove.frames = frame :: frames) (ends : Ends (2 * shown.length + steps) document state grove) :
    Passes steps document true frame frames (MembersBuild members) kinds later := by
  cases members with
  | nil =>
    rw [MembersShown] at shows
    subst shows
    exact ⟨first, state, grove, [], by rw [MembersBuild], waits, inside, ends.fewer (Nat.le_add_left _ _)⟩
  | cons member members =>
    obtain ⟨name, value⟩ := member
    rw [MembersShown] at shows
    obtain ⟨single, mark, here, behind, marked, shows, others, rfl⟩ := shows
    obtain ⟨kind, rest, rfl, heads⟩ := shown_heads shows
    have enough : 2 * (kind :: rest).length + (2 * behind.length + steps) + 1 + 2 ≤
        2 * (separatorKinds first ++ (mark ++ .scalar (content name) .doubleQuoted :: .value ::
          (kind :: rest ++ behind))).length + steps := by
      simp only [List.length_append, List.length_cons]
      omega
    simp only [List.append_assoc, List.cons_append] at waits
    rcases marked with rfl | rfl
    · obtain ⟨state, node, grown, -, -, waits, ends⟩ := scalar_completes (starts_bare waits) (ends.fewer enough)
      exact absurd (ends.fewer (Nat.le_add_left 2 _)) (valueless_stops waits)
    · obtain ⟨state, _, grown, ⟨named, rfl⟩, added, waits, ends⟩ :=
        scalar_completes (starts_key waits) (ends.fewer enough)
      have inside := added.inside inside
      obtain ⟨state, node, grown, built, added, waits, ends⟩ :=
        tree_completes value shows (starts_value heads waits) (ends.fewer (Nat.le_add_right _ 2))
      obtain ⟨first, state, grove, nodes, builts, waits, inside, ends⟩ :=
        members_pass members false others waits (added.inside inside) ends
      refine ⟨first, state, grove, .scalar named none (content name) .doubleQuoted :: node :: nodes, ?_, waits, ?_,
        ends⟩
      · rw [MembersBuild]
        exact ⟨single, named, node, nodes, rfl, built, builts⟩
      · rw [inside]
        simp

end

/-- Where the tokens are those of one collection, the document is that collection, if the machine
gets through. -/
theorem document_builds {stream : TokenStream} {tree : Tree} {shown : List TokenKind} (shows : Shown tree shown)
    (root : ∃ mapping rest, shown = startKind mapping :: rest)
    (tokens : stream.tokens.map (·.kind) = shown ++ [.streamEnd])
    (through : (EventStream.ofTokens stream).fault = none) :
    ∃ node, (Document.ofEvents (EventStream.ofTokens stream)).root = some node ∧ Builds tree node := by
  obtain ⟨mapping, rest, rfl⟩ := root
  have start : Ends (2 * (startKind mapping :: rest).length + 1 + 1)
      (Document.ofEvents (EventStream.ofTokens stream))
      ⟨stream.tokens, stream.fault, .documentStart true, [], [], []⟩ {} := by
    refine ⟨4 * stream.tokens.length + 8, ?_, through, ?_⟩
    · have length := congrArg List.length tokens
      simp only [List.length_map, List.length_append, List.length_singleton] at length
      omega
    · rw [Document.ofEvents, through]
      rfl
  obtain ⟨⟨_, mark, stop⟩, behind, given, rfl, same⟩ := List.map_eq_cons_iff.mp tokens
  have begins : Assemble.next ⟨stream.tokens, stream.fault, .documentStart true, [], [], []⟩ =
      .ok (⟨.documentStart, mark⟩,
        ⟨stream.tokens, stream.fault, .blockNode, [.documentEnd], [], [] ++ defaultHandles⟩) := by
    rw [given]
    cases mapping <;> rfl
  have inside := start.next begins nofun fun _ => rfl
  obtain ⟨state, node, grown, built, ⟨bare, root⟩, waits, ends⟩ :=
    tree_completes tree shows (starts_root ⟨tokens, rfl, rfl⟩) inside
  obtain ⟨last, stop, tokens, fault, marks, handles, -, rfl⟩ := waits.cons
  obtain ⟨followed, same⟩ := ends.last rfl rfl
  refine ⟨node, ?_, built⟩
  rw [same, Grove.document, Grove.closeAll, bare]
  exact root

end MessagePress.Proofs.FlowNodes
