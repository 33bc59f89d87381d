import MessagePress.Proofs.OpenStreams
import MessagePress.Yaml.Decode

/-! Documents whose tokens end in a fault. Nothing closes their stream of events, so there is
either a node that is not complete or more behind the document, and no value is read. Some events
take no token, but a token that is taken pays for those, so the events come to an end. -/

namespace MessagePress.Proofs.OpenDocuments
open Yaml Yaml.Assemble PartialRuns OpenStreams

def isInner : Expecting → Bool
  | .documentStart _ | .documentContent | .documentEnd | .blockNode | .nothing => false
  | _ => true

/-- What is put off inside a document: places of collections, and its end behind them. -/
inductive Inside : List Expecting → Prop
  | document : Inside [.documentEnd]
  | collection {place : Expecting} {later : List Expecting} (inner : isInner place = true)
      (inside : Inside later) : Inside (place :: later)

/-- What is put off where something comes next. -/
def Nested : Expecting → List Expecting → Prop
  | .documentStart _, later | .documentEnd, later => later = []
  | .nothing, _ => False
  | _, later => Inside later

variable {state : Assembly} {place : Expecting} {later : List Expecting} {kind : EventKind} {mark : Mark}

theorem nested_inner (inner : isInner place = true) (inside : Inside later) : Nested place later := by
  cases place <;> first | exact inside | cases inner

theorem Inside.nested (inside : Inside later) : Nested (later.headD .nothing) (later.drop 1) := by
  cases inside with
  | document => rfl
  | collection inner inside => exact nested_inner inner inside

/-- The tokens have a fault behind them and no end of the stream before it. -/
def Faulty (state : Assembly) : Prop := state.fault ≠ none ∧ Unended state.tokens

/-- Where the next event is made. -/
def Held (state : Assembly) : Prop := Faulty state ∧ Nested state.now state.later

/-- A step that does not change what comes next, and passes tokens at most. -/
class Quiet (action : Assemble α) : Prop where
  keeps : ∀ state, Yields (action state) fun reached =>
    reached.2.now = state.now ∧ reached.2.later = state.later ∧ reached.2.fault = state.fault ∧
      reached.2.tokens <:+ state.tokens

instance (value : α) : Quiet (pure value) := ⟨fun _ => yields_ok.mpr ⟨rfl, rfl, rfl, List.suffix_rfl⟩⟩

instance {first : Assemble α} {next : α → Assemble β} [front : Quiet first]
    [behind : ∀ value, Quiet (next value)] : Quiet (first >>= next) := by
  refine ⟨fun state => ?_⟩
  rw [bind_apply, yields_bind]
  refine (front.keeps state).imp fun reached ⟨now, later, fault, tokens⟩ => ?_
  refine ((behind reached.1).keeps reached.2).imp fun last ⟨now', later', fault', tokens'⟩ => ?_
  exact ⟨now'.trans now, later'.trans later, fault'.trans fault, tokens'.trans tokens⟩

theorem Quiet.behind {first : Assemble α} {next : α → Assemble β} [Quiet first]
    (later : ∀ value, Quiet (next value)) : Quiet (first >>= next) := inferInstance

instance {p : Prop} {_ : Decidable p} {first second : Assemble α} [Quiet first] [Quiet second] :
    Quiet (if p then first else second) := by
  split <;> assumption

instance : Quiet (get : Assemble Assembly) := ⟨fun _ => yields_ok.mpr ⟨rfl, rfl, rfl, List.suffix_rfl⟩⟩

instance (fault : SyntaxFault) : Quiet (throw fault : Assemble α) := ⟨fun _ _ same => nomatch same⟩

instance : Quiet peek := by
  unfold peek
  refine .behind fun state => ?_
  split <;> infer_instance

instance : Quiet skip := ⟨fun _ => yields_ok.mpr ⟨rfl, rfl, rfl, List.drop_suffix ..⟩⟩

instance (mark : Mark) : Quiet (pushMark mark) := ⟨fun _ => yields_ok.mpr ⟨rfl, rfl, rfl, List.suffix_rfl⟩⟩

instance : Quiet popMark := ⟨fun _ => yields_ok.mpr ⟨rfl, rfl, rfl, List.suffix_rfl⟩⟩

instance (given : List (TagBytes × TagBytes)) : Quiet (setHandles given) :=
  ⟨fun _ => yields_ok.mpr ⟨rfl, rfl, rfl, List.suffix_rfl⟩⟩

instance (problem : Problem) (mark : Mark) (context : Option (Context × Mark)) :
    Quiet (malformed problem mark context : Assemble α) := ⟨fun _ _ same => nomatch same⟩

instance (first : Bool) : Quiet (enter first) := by unfold enter; infer_instance

instance (first : Bool) (context : Context) (problem : Problem) : Quiet (separator first context problem) := by
  unfold separator
  infer_instance

instance (handle suffix : TagBytes) (start mark : Mark) : Quiet (resolveTag handle suffix start mark) := by
  unfold resolveTag
  repeat' first | infer_instance | split | refine .behind fun _ => ?_

instance : Quiet readProperties := by
  unfold readProperties
  repeat' first | infer_instance | split | refine .behind fun _ => ?_

instance (steps : Nat) (version : Bool) (handles : List (TagBytes × TagBytes)) :
    Quiet (readDirectives steps version handles) := by
  induction steps generalizing version handles with
  | zero => unfold readDirectives; infer_instance
  | succ steps ih =>
    unfold readDirectives
    repeat' first | infer_instance | split | refine .behind fun _ => ?_

instance (steps : Nat) : Quiet (skipDocumentEnds steps) := by
  induction steps with
  | zero => unfold skipDocumentEnds; infer_instance
  | succ steps ih => unfold skipDocumentEnds; infer_instance

theorem Faulty.keeps {first : Assemble α} [front : Quiet first] (faulty : Faulty state) :
    Yields (first state) fun reached => Faulty reached.2 ∧ reached.2.now = state.now ∧
      reached.2.later = state.later ∧ reached.2.tokens.length ≤ state.tokens.length := by
  refine (front.keeps state).imp fun reached ⟨now, later, fault, tokens⟩ => ?_
  refine ⟨⟨?_, ?_⟩, now, later, tokens.length_le⟩
  · exact fault ▸ faulty.1
  · exact fun token member => faulty.2 token (tokens.subset member)

theorem Faulty.peek (faulty : Faulty state) :
    Yields (Assemble.peek state) fun reached =>
      reached.2 = state ∧ reached.1.kind ≠ .streamEnd ∧ state.tokens ≠ [] := by
  obtain ⟨tokens, fault, now, later, marks, handles⟩ := state
  cases tokens with
  | cons token tokens => exact yields_ok.mpr ⟨rfl, faulty.2 token List.mem_cons_self, List.cons_ne_nil _ _⟩
  | nil =>
    cases fault with
    | none => exact absurd rfl faulty.1
    | some fault => exact fun _ same => nomatch same

theorem Faulty.skip (faulty : Faulty state) (more : state.tokens ≠ []) :
    Faulty { state with tokens := state.tokens.drop 1 } ∧
      (state.tokens.drop 1).length < state.tokens.length := by
  refine ⟨⟨faulty.1, fun token member => faulty.2 token (List.mem_of_mem_drop member)⟩, ?_⟩
  have some := List.length_pos_iff.mpr more
  rw [List.length_drop]
  omega

/-- How many events may be made at a place before a token is taken. -/
def weight : Expecting → Nat
  | .documentStart implicit => if implicit then 4 else 0
  | .documentContent | .blockNode => 2
  | .flowPairKey => 3
  | .flowPairValue => 2
  | .documentEnd | .indentlessEntry | .blockMappingValue | .flowPairEnd | .flowMappingValue _ => 1
  | _ => 0

def weights : List Expecting → Nat
  | [] => 0
  | place :: later => weight place + weights later

theorem Inside.weights (inside : Inside later) :
    weight (later.headD .nothing) + weights (later.drop 1) = weights later := by
  cases inside <;> rfl

/-- No more events than this are made. -/
def potential (state : Assembly) : Nat :=
  4 * state.tokens.length + weight state.now + weights state.later

/-- Faulty tokens are left, with such places put off; `ahead` tells that there is a token. -/
def At (fits : List Expecting → Prop) (ahead : Bool) (state : Assembly) : Prop :=
  Faulty state ∧ fits state.later ∧ (ahead = true → state.tokens ≠ [])

/-- A step to an event that does not end the stream and that some credit pays for. -/
def Makes (fits : List Expecting → Prop) (ahead : Bool) (credit : Nat) (action : Assemble Event) : Prop :=
  ∀ state, At fits ahead state → Yields (action state) fun reached =>
    Held reached.2 ∧ reached.1.kind ≠ .streamEnd ∧
      potential reached.2 < 4 * state.tokens.length + weights state.later + credit

/-- The rest of such a step, from where the next event is made. -/
def Settles (action : Assemble Event) : Prop :=
  ∀ state, Held state → Yields (action state) fun reached =>
    Held reached.2 ∧ reached.1.kind ≠ .streamEnd ∧ potential reached.2 ≤ potential state

theorem Settles.quiet {first : Assemble α} {next : α → Assemble Event} [Quiet first]
    (behind : ∀ value, Settles (next value)) : Settles (first >>= next) := by
  rintro state ⟨faulty, nested⟩
  rw [bind_apply, yields_bind]
  refine faulty.keeps.imp fun reached ⟨faulty, now, later, fewer⟩ => ?_
  refine (behind _ _ ⟨faulty, by rw [now, later]; exact nested⟩).imp fun last ⟨held, other, less⟩ => ?_
  refine ⟨held, other, Nat.le_trans less ?_⟩
  unfold potential
  rw [now, later]
  omega

theorem Settles.pure (other : kind ≠ .streamEnd) : Settles (Pure.pure ⟨kind, mark⟩) :=
  fun _ held => yields_pure.mpr ⟨held, other, Nat.le_refl _⟩

namespace Makes

variable {fits : List Expecting → Prop} {ahead : Bool} {credit : Nat} {rest : Assemble Event}

theorem quiet {first : Assemble α} {next : α → Assemble Event} [Quiet first]
    (behind : ∀ value, Makes fits false credit (next value)) : Makes fits ahead credit (first >>= next) := by
  rintro state ⟨faulty, here, -⟩
  rw [bind_apply, yields_bind]
  refine faulty.keeps.imp fun reached ⟨faulty, now, later, fewer⟩ => ?_
  refine (behind _ _ ⟨faulty, later ▸ here, nofun⟩).imp fun last ⟨held, other, less⟩ => ⟨held, other, ?_⟩
  rw [later] at less
  omega

theorem peek {next : Token → Assemble Event}
    (behind : ∀ token : Token, token.kind ≠ .streamEnd → Makes fits true credit (next token)) :
    Makes fits ahead credit (Assemble.peek >>= next) := by
  rintro state ⟨faulty, here, -⟩
  rw [bind_apply, yields_bind]
  refine faulty.peek.imp ?_
  rintro ⟨token, state⟩ ⟨rfl, other, more⟩
  exact behind token other _ ⟨faulty, here, fun _ => more⟩

/-- A token that is taken gives credit. -/
theorem skip (behind : Makes fits false (credit + 4) rest) :
    Makes fits true credit (Assemble.skip >>= fun _ => rest) := by
  rintro state ⟨faulty, here, more⟩
  obtain ⟨faulty, fewer⟩ := faulty.skip (more rfl)
  rw [bind_apply, yields_bind]
  refine yields_ok.mpr ((behind _ ⟨faulty, here, nofun⟩).imp fun last ⟨held, other, less⟩ => ⟨held, other, ?_⟩)
  dsimp only at less
  omega

theorem goTo (nested : ∀ later, fits later → Nested place later) (enough : weight place < credit)
    (behind : Settles rest) : Makes fits ahead credit (Assemble.goTo place >>= fun _ => rest) := by
  rintro state ⟨faulty, here, -⟩
  rw [bind_apply, yields_bind]
  refine yields_ok.mpr ((behind { state with now := place } ⟨faulty, nested _ here⟩).imp
    fun last ⟨held, other, less⟩ => ⟨held, other, Nat.lt_of_le_of_lt less ?_⟩)
  unfold potential
  dsimp only
  omega

theorem pop (some : 0 < credit) (behind : Settles rest) :
    Makes Inside ahead credit (Assemble.pop >>= fun _ => rest) := by
  rintro state ⟨faulty, inside, -⟩
  rw [bind_apply, yields_bind]
  refine yields_ok.mpr ((behind { state with now := state.later.headD .nothing, later := state.later.drop 1 }
    ⟨faulty, inside.nested⟩).imp fun last ⟨held, other, less⟩ => ⟨held, other, Nat.lt_of_le_of_lt less ?_⟩)
  have owed := inside.weights
  unfold potential
  dsimp only
  omega

theorem push (inner : isInner place = true) (enough : weight place ≤ credit)
    (behind : Makes Inside ahead (credit - weight place) rest) :
    Makes Inside ahead credit (Assemble.push place >>= fun _ => rest) := by
  rintro state ⟨faulty, inside, more⟩
  rw [bind_apply, yields_bind]
  refine yields_ok.mpr ((behind { state with later := place :: state.later }
    ⟨faulty, .collection inner inside, more⟩).imp fun last ⟨held, other, less⟩ => ⟨held, other, ?_⟩)
  have owed : weights (place :: state.later) = weight place + weights state.later := rfl
  dsimp only at less
  omega

theorem ite {p : Prop} {_ : Decidable p} {first second : Assemble Event}
    (yes : Makes fits ahead credit first) (no : Makes fits ahead credit second) :
    Makes fits ahead credit (if p then first else second) := by
  split
  · exact yes
  · exact no

theorem malformed (problem : Problem) (mark : Mark) (context : Option (Context × Mark)) :
    Makes fits ahead credit (Assemble.malformed problem mark context) := fun _ _ _ same => nomatch same

theorem anywhere (behind : Makes fits false credit rest) : Makes fits ahead credit rest :=
  fun state ⟨faulty, here, _⟩ => behind state ⟨faulty, here, nofun⟩

end Makes

variable {ahead : Bool} {credit : Nat}

theorem emptyScalar_settles : Settles (emptyScalar mark) := .pure nofun

theorem node_makes (credit : Nat) (block indentless : Bool) (enough : (if indentless then 2 else 1) ≤ credit) :
    Makes Inside ahead credit (node block indentless) := by
  have one : 0 < credit := by split at enough <;> omega
  unfold node
  refine .quiet fun first => ?_
  split
  · exact .pop one (.quiet fun _ => .pure nofun)
  · refine .quiet fun (properties, start) => .quiet fun token => ?_
    split
    case h_1 => exact .goTo (fun _ inside => inside) enough (.pure nofun)
    all_goals first
      | exact .goTo (fun _ inside => inside) one (.pure nofun)
      | exact .pop one (.quiet fun _ => .pure nofun)
      | skip
    exact .ite (.pop one (.pure nofun)) (.malformed _ _ _)

theorem leave_makes (other : kind ≠ .streamEnd) : Makes Inside true credit (leave kind) := by
  rintro state ⟨faulty, inside, more⟩
  have owed := inside.weights
  obtain ⟨faulty', fewer⟩ := faulty.skip (more rfl)
  unfold leave
  rw [bind_apply, yields_bind]
  refine faulty.peek.imp ?_
  rintro ⟨token, state⟩ ⟨rfl, -, -⟩
  refine yields_ok.mpr ⟨⟨faulty', inside.nested⟩, other, ?_⟩
  unfold potential
  dsimp only at owed fewer ⊢
  omega

theorem nodeUnless_makes {after : Expecting} (inner : isInner after = true) (enough : weight after + 2 ≤ credit)
    (stops : List TokenKind) (mark : Mark) (block indentless : Bool) :
    Makes Inside ahead credit (nodeUnless stops mark after block indentless) := by
  unfold nodeUnless
  refine .quiet fun token => .ite ?_ ?_
  · exact .goTo (fun _ => nested_inner inner) (by omega) emptyScalar_settles
  · exact .push inner (by omega) (node_makes _ block indentless (by split <;> omega))

theorem documentContent_makes : Makes Inside false 2 documentContent := by
  unfold documentContent
  exact .quiet fun token => .ite (.pop (by decide) emptyScalar_settles) (node_makes _ true false (by decide))

theorem blockSequenceEntry_makes (first : Bool) : Makes Inside false 0 (blockSequenceEntry first) := by
  unfold blockSequenceEntry
  refine .quiet fun _ => .peek fun token _ => ?_
  split
  · exact .skip (nodeUnless_makes rfl (by decide) _ _ _ _)
  · exact leave_makes nofun
  · exact .quiet fun _ => .malformed _ _ _

theorem indentlessEntry_makes : Makes Inside false 1 indentlessEntry := by
  unfold indentlessEntry
  refine .peek fun token _ => ?_
  split
  · exact .skip (nodeUnless_makes rfl (by decide) _ _ _ _)
  · exact .pop (by decide) (.pure nofun)

theorem blockMappingKey_makes (first : Bool) : Makes Inside false 0 (blockMappingKey first) := by
  unfold blockMappingKey
  refine .quiet fun _ => .peek fun token _ => ?_
  split
  · exact .skip (nodeUnless_makes rfl (by decide) _ _ _ _)
  · exact leave_makes nofun
  · exact .quiet fun _ => .malformed _ _ _

theorem blockMappingValue_makes : Makes Inside false 1 blockMappingValue := by
  unfold blockMappingValue
  refine .peek fun token _ => ?_
  split
  · exact .skip (nodeUnless_makes rfl (by decide) _ _ _ _)
  · exact .goTo (fun _ inside => inside) (by decide) emptyScalar_settles

/-- A step that takes a token. -/
def Takes (action : Assemble α) : Prop := ∀ state, Faulty state → Yields (action state) fun reached =>
  Faulty reached.2 ∧ reached.2.later = state.later ∧ reached.2.tokens.length < state.tokens.length

theorem Makes.taking {fits : List Expecting → Prop} {first : Assemble α} {next : α → Assemble Event}
    (takes : Takes first) (behind : ∀ value, Makes fits false (credit + 4) (next value)) :
    Makes fits ahead credit (first >>= next) := by
  rintro state ⟨faulty, here, -⟩
  rw [bind_apply, yields_bind]
  refine (takes state faulty).imp fun reached ⟨faulty, later, fewer⟩ => ?_
  refine (behind _ _ ⟨faulty, later ▸ here, nofun⟩).imp fun last ⟨held, other, less⟩ => ⟨held, other, ?_⟩
  rw [later] at less
  omega

theorem enter_takes : Takes (enter true) := by
  intro state faulty
  unfold enter
  rw [if_pos rfl, bind_apply, yields_bind]
  refine faulty.peek.imp ?_
  rintro ⟨token, state⟩ ⟨rfl, -, more⟩
  obtain ⟨faulty, fewer⟩ := faulty.skip more
  exact yields_ok.mpr ⟨faulty, rfl, fewer⟩

theorem separator_takes (context : Context) (problem : Problem) : Takes (separator false context problem) := by
  intro state faulty
  unfold separator
  rw [Bool.not_false, if_pos rfl, bind_apply, yields_bind]
  refine faulty.peek.imp ?_
  rintro ⟨token, state⟩ ⟨rfl, -, more⟩
  obtain ⟨faulty, fewer⟩ := faulty.skip more
  dsimp only
  split
  · exact yields_ok.mpr ⟨faulty, rfl, fewer⟩
  · exact fun _ same => nomatch same

theorem Makes.item {first : Bool} {context : Context} {problem : Problem} {next : Token → Assemble Event}
    {closes : TokenKind} {close : Assemble Event} (leaves : ∀ credit, Makes Inside true credit close)
    (behind : ∀ token, Makes Inside true 4 (next token)) :
    Makes Inside false 0 (do
      enter first
      if (← Assemble.peek).kind = closes then close
      else
        separator first context problem
        next (← Assemble.peek)) := by
  cases first with
  | true =>
    refine .taking enter_takes fun _ => .peek fun token _ => .ite (leaves _) ?_
    exact .quiet fun _ => .peek fun token _ => behind token
  | false =>
    refine .quiet fun _ => .peek fun token _ => .ite (leaves _) ?_
    exact .taking (separator_takes _ _) fun _ => .peek fun token _ => behind token

theorem flowSequenceEntry_makes (first : Bool) : Makes Inside false 0 (flowSequenceEntry first) := by
  unfold flowSequenceEntry
  refine .item (fun _ => leave_makes nofun) fun token => ?_
  split
  · exact .goTo (fun _ inside => inside) (by decide) (.quiet fun _ => .pure nofun)
  · exact leave_makes nofun
  · exact .push rfl (by decide) (node_makes _ false false (by decide))

theorem flowPairKey_makes : Makes Inside false 3 flowPairKey := by
  unfold flowPairKey
  refine .peek fun token _ => ?_
  split
  case h_4 => exact .push rfl (by decide) (node_makes _ false false (by decide))
  all_goals exact .skip (.goTo (fun _ inside => inside) (by decide) emptyScalar_settles)

theorem flowPairValue_makes : Makes Inside false 2 flowPairValue := by
  unfold flowPairValue
  refine .peek fun token _ => .ite ?_ ?_
  · exact .skip (.quiet fun token => nodeUnless_makes rfl (by decide) _ _ _ _)
  · exact .goTo (fun _ inside => inside) (by decide) (.quiet fun _ => emptyScalar_settles)

theorem flowPairEnd_makes : Makes Inside false 1 flowPairEnd := by
  unfold flowPairEnd
  exact .goTo (fun _ inside => inside) (by decide) (.quiet fun _ => .pure nofun)

theorem flowMappingKey_makes (first : Bool) : Makes Inside false 0 (flowMappingKey first) := by
  unfold flowMappingKey
  refine .item (fun _ => leave_makes nofun) fun token => ?_
  split
  · exact .skip (.quiet fun token => nodeUnless_makes rfl (by decide) _ _ _ _)
  · exact leave_makes nofun
  · exact .push rfl (by decide) (node_makes _ false false (by decide))

theorem flowMappingValue_makes (empty : Bool) : Makes Inside false 1 (flowMappingValue empty) := by
  unfold flowMappingValue
  refine .peek fun token _ => .ite ?_ ?_
  · exact .skip (.quiet fun token => nodeUnless_makes rfl (by decide) _ _ _ _)
  · exact .goTo (fun _ inside => inside) (by decide) emptyScalar_settles

def Outside (later : List Expecting) : Prop := later = []

theorem begin_makes (mark : Mark) : Makes Outside false 4 (do
    push .documentEnd
    goTo .blockNode
    return ⟨.documentStart, mark⟩) := by
  rintro state ⟨faulty, outside, -⟩
  have none : state.later = [] := outside
  refine yields_ok.mpr ⟨⟨faulty, ?_⟩, nofun, ?_⟩
  · dsimp only
    rw [none]
    exact .document
  · unfold potential
    simp [none, weights, weight]

theorem begin_marked_makes (mark : Mark) : Makes Outside true credit (do
    push .documentEnd
    goTo .documentContent
    skip
    return ⟨.documentStart, mark⟩) := by
  rintro state ⟨faulty, outside, more⟩
  have none : state.later = [] := outside
  obtain ⟨faulty, fewer⟩ := faulty.skip (more rfl)
  refine yields_ok.mpr ⟨⟨faulty, ?_⟩, nofun, ?_⟩
  · dsimp only
    rw [none]
    exact .document
  · unfold potential
    simp only [none, weights, weight]
    omega

theorem documentStart_makes (implicit : Bool) :
    Makes Outside false (weight (.documentStart implicit)) (documentStart implicit) := by
  have marked : ∀ token : Token, ∀ steps credit, Makes Outside true credit (do
      let handles ← readDirectives steps false []
      setHandles handles
      let next ← peek
      if next.kind ≠ .documentStart then malformed .missingDocumentStart next.start none
      else
        push .documentEnd
        goTo .documentContent
        skip
        return ⟨.documentStart, token.start⟩) := fun token steps credit =>
    .quiet fun handles => .quiet fun _ => .peek fun next _ =>
      .ite (.malformed _ _ _) (begin_marked_makes token.start)
  unfold documentStart
  refine .quiet fun state => ?_
  dsimp only
  cases implicit with
  | true =>
    refine .peek fun token other => ?_
    rw [if_neg other]
    exact .ite (.quiet fun _ => begin_makes token.start) (marked token _ _)
  | false =>
    refine .quiet fun _ => .peek fun token other => ?_
    rw [if_neg other, Bool.false_and, Bool.false_and, if_neg Bool.false_ne_true]
    exact marked token _ _

theorem documentEnd_makes : Makes Outside false 1 documentEnd := by
  unfold documentEnd
  have ends : ∀ mark credit, Makes Outside false (1 + credit) (do
      goTo (.documentStart false)
      return ⟨.documentEnd, mark⟩) := fun mark credit =>
    .goTo (fun _ outside => outside) (by simp only [weight, Bool.false_eq_true, if_false]; omega) (.pure nofun)
  exact .peek fun token _ => .ite (.skip (ends _ 4)) ((ends _ 0).anywhere)

theorem Makes.fewer {fits : List Expecting → Prop} {action : Assemble Event}
    (makes : Makes fits false (weight state.now) action) (faulty : Faulty state) (here : fits state.later) :
    Yields (action state) fun reached =>
      Held reached.2 ∧ reached.1.kind ≠ .streamEnd ∧ potential reached.2 < potential state := by
  refine (makes state ⟨faulty, here, nofun⟩).imp fun reached ⟨held, other, less⟩ => ⟨held, other, ?_⟩
  rw [potential.eq_1 state]
  omega

/-- An event in front of a fault does not end the stream, and there are ever fewer to come. -/
theorem next_makes (held : Held state) :
    Yields (next state) fun reached =>
      Held reached.2 ∧ reached.1.kind ≠ .streamEnd ∧ potential reached.2 < potential state := by
  obtain ⟨faulty, nested⟩ := held
  obtain ⟨tokens, fault, now, later, marks, handles⟩ := state
  have fewer : ∀ {fits action}, Makes fits false (weight now) action → fits later →
      Yields (action ⟨tokens, fault, now, later, marks, handles⟩) fun reached => Held reached.2 ∧
        reached.1.kind ≠ .streamEnd ∧ potential reached.2 < potential ⟨tokens, fault, now, later, marks, handles⟩ :=
    fun makes here => makes.fewer faulty here
  cases now with
  | documentStart implicit => exact (fewer (documentStart_makes implicit) nested :)
  | documentContent => exact (fewer documentContent_makes nested :)
  | documentEnd => exact (fewer documentEnd_makes nested :)
  | blockNode => exact (fewer (node_makes 2 true false (by decide)) nested :)
  | blockSequenceEntry first => exact (fewer (blockSequenceEntry_makes first) nested :)
  | indentlessEntry => exact (fewer indentlessEntry_makes nested :)
  | blockMappingKey first => exact (fewer (blockMappingKey_makes first) nested :)
  | blockMappingValue => exact (fewer blockMappingValue_makes nested :)
  | flowSequenceEntry first => exact (fewer (flowSequenceEntry_makes first) nested :)
  | flowPairKey => exact (fewer flowPairKey_makes nested :)
  | flowPairValue => exact (fewer flowPairValue_makes nested :)
  | flowPairEnd => exact (fewer flowPairEnd_makes nested :)
  | flowMappingKey first => exact (fewer (flowMappingKey_makes first) nested :)
  | flowMappingValue empty => exact (fewer (flowMappingValue_makes empty) nested :)
  | nothing => exact nested.elim

/-- Events made from faulty tokens come to the fault. -/
theorem assemble_fault {steps : Nat} (held : Held state) (enough : potential state < steps) :
    (assemble steps state).fault ≠ none := by
  induction steps generalizing state with
  | zero => exact absurd enough (Nat.not_lt_zero _)
  | succ steps ih =>
    rw [assemble]
    split
    · exact Option.some_ne_none _
    next event later made =>
      obtain ⟨held, other, less⟩ := next_makes held _ made
      rw [if_neg other]
      exact ih held (by dsimp only at less; omega)

theorem assemble_open {steps : Nat} (faulty : (assemble steps state).fault ≠ none) :
    ∀ event ∈ (assemble steps state).events, event.kind ≠ .streamEnd := by
  induction steps generalizing state with
  | zero => exact List.forall_mem_nil _
  | succ steps ih =>
    rw [assemble] at faulty ⊢
    split at faulty
    · exact List.forall_mem_nil _
    next event later made =>
      split at faulty
      · exact absurd rfl faulty
      next other =>
        rw [if_neg other]
        exact List.forall_mem_cons.mpr ⟨other, ih faulty⟩

theorem ofTokens_fault {stream : TokenStream} (faulty : stream.fault ≠ none) (unended : Unended stream.tokens) :
    (EventStream.ofTokens stream).fault ≠ none := by
  refine assemble_fault ⟨⟨faulty, unended⟩, rfl⟩ ?_
  unfold potential
  simp only [weight, weights, if_true]
  omega

theorem ofEvents_refused {fault : Option SyntaxFault} {events : List Event} {grove : Grove}
    (faulty : fault ≠ none) (unended : ∀ event ∈ events, event.kind ≠ .streamEnd) :
    (Grove.ofEvents fault events grove).fault ≠ none ∨ (Grove.ofEvents fault events grove).followed = true := by
  induction events generalizing grove with
  | nil =>
    refine Or.inl fun none => faulty ?_
    exact Option.map_eq_none_iff.mp none
  | cons event events ih =>
    obtain ⟨other, unended⟩ := List.forall_mem_cons.mp unended
    have later := fun grove => @ih grove unended
    rw [Grove.ofEvents.eq_def]
    dsimp only
    split
    all_goals first | exact later _ | skip
    · refine Or.inr ?_
      cases events with
      | nil => rfl
      | cons next events => exact bne_iff_ne.mpr (unended next List.mem_cons_self)
    · exact absurd ‹_› other
    · split
      · exact later _
      · exact Or.inl (Option.some_ne_none _)

/-- From a document that has a fault, or that is not the only one, no value is read. -/
theorem decode_refused {document : Document} {decoder : Located → Decode α}
    (refused : document.fault ≠ none ∨ document.followed = true) :
    Yields (document.decode decoder) fun _ => False := by
  unfold Document.decode
  dsimp only
  cases document.root with
  | none => exact yields_throw
  | some root =>
    dsimp only
    rw [yields_bind]
    intro reached _
    cases fault : document.fault with
    | some fault => exact yields_throw
    | none =>
      rw [if_pos (refused.resolve_left fun some => some fault)]
      exact yields_throw

/-- A value is read only where neither the tokens nor the events have a fault. -/
theorem ofBytes_sound {bytes : List UInt8} {decoder : Located → Decode α} {value : α}
    (read : (Document.ofBytes bytes).decode decoder = .ok value) :
    (TokenStream.ofSource (Source.ofBytes bytes)).fault = none ∧ (EventStream.ofBytes bytes).fault = none := by
  have events : (EventStream.ofBytes bytes).fault = none := by
    refine Classical.byContradiction fun faulty => ?_
    exact decode_refused (ofEvents_refused faulty (assemble_open faulty)) _ read
  refine ⟨?_, events⟩
  refine Classical.byContradiction fun faulty => ?_
  exact ofTokens_fault faulty (ofSource_open faulty) events

end MessagePress.Proofs.OpenDocuments
