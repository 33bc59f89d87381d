import MessagePress.Proofs.ByteOrder
import MessagePress.Proofs.CallGrammar
import MessagePress.Proofs.Draws

/-! Evaluating the members of a substitution. One source is passed from key to key, and every
value is the one that its own definition draws from the bytes that come next. -/

namespace MessagePress.Proofs.KeyDraws
open MessagePress.Random Template CallGrammar ByteOrder Draws

variable {clock : Clock} {instant : Time.Instant} {members values : Json.Members} {key : String}
  {value other result : Json} {source middle left : Source} {cause : Random.Fault}

/-- A value that is no text, or a text without a well-formed call. -/
def Literal (value : Json) : Prop := ∀ content span, value = .text content → ¬Written content span

private theorem literal_or_call (value : Json) :
    Literal value ∨ ∃ content span, value = .text content ∧ findCall content = some span := by
  cases value with
  | text content =>
    cases found : findCall content with
    | none =>
      refine Or.inl fun other span same => ?_
      cases same
      exact findCall_eq_none.mp found span
    | some span => exact Or.inr ⟨content, span, rfl, found⟩
  | _ =>
    refine Or.inl fun content span same => ?_
    cases same

private theorem not_literal {content : String} {span : CallSpan} (found : findCall content = some span) :
    ¬Literal (.text content) := by
  intro literal
  have absent : findCall content = none := findCall_eq_none.mpr fun span => literal content span rfl
  rw [found] at absent
  cases absent

theorem evaluateValue_literal (literal : Literal value) :
    evaluateValue instant value = fun source => (.ok value, source) := by
  cases value with
  | text content =>
    have absent : findCall content = none :=
      findCall_eq_none.mpr fun span => literal content span rfl
    funext source
    simp only [evaluateValue, absent]
  | _ => rfl

theorem evaluateValue_requests {content : String} {span : CallSpan}
    (found : findCall content = some span) :
    Requests (requested span.call) (evaluateValue instant (.text content)) := by
  have whole : evaluateValue instant (.text content) = fun source =>
      ((evaluateCall instant span.call source).1.map fun text => Json.text (String.ofList text),
        (evaluateCall instant span.call source).2) := by
    funext source
    simp only [evaluateValue, found]
  rw [whole]
  exact (evaluateCall_requests instant span.call).map _

theorem evaluateValue_takes (drawn : evaluateValue instant value source = (.ok result, left)) :
    ∃ piece, source.bytes = piece ++ left.bytes ∧ Takes (evaluateValue instant value) piece result ∧
      (Literal value → piece = [] ∧ result = value) := by
  rcases literal_or_call value with literal | ⟨content, span, rfl, found⟩
  · rw [evaluateValue_literal literal] at drawn ⊢
    cases drawn
    exact ⟨[], rfl, fun rest => rfl, fun _ => ⟨rfl, rfl⟩⟩
  · obtain ⟨piece, same, takes⟩ := (evaluateValue_requests found).takes drawn
    exact ⟨piece, same, takes, fun literal => absurd literal (not_literal found)⟩

/-- The draw of a call has found fewer bytes than it asks for, and has passed over the rest. -/
def Starved (value : Json) (source left : Source) : Prop :=
  (∃ passed, source.bytes = passed ++ left.bytes) ∧ ∃ content span, value = .text content ∧
    findCall content = some span ∧ left.bytes.length < requested span.call

theorem evaluateValue_fails (failed : evaluateValue instant value source = (.error cause, left)) :
    Starved value source left := by
  rcases literal_or_call value with literal | ⟨content, span, rfl, found⟩
  · rw [evaluateValue_literal literal] at failed
    cases failed
  · obtain ⟨passed, few⟩ := (evaluateValue_requests found).fails failed
    exact ⟨passed, content, span, rfl, found, few⟩

/-- The source as the first so many keys leave it. -/
def sourceBehind (clock : Clock) (members : Json.Members) (source : Source) (count : ℕ) : Source :=
  (members.take count).foldl (fun source member => (evaluateValue (clock member.1) member.2 source).2)
    source

/-- How a key is evaluated: it takes its piece of the source from where the keys before it left
off, and what it gives is settled by that piece. -/
structure Draws (clock : Clock) (members : Json.Members) (source : Source) (index : ℕ) (key : String)
    (value result : Json) (piece : List UInt8) : Prop where
  takes : sourceBehind clock members source index =
    ⟨piece ++ (sourceBehind clock members source (index + 1)).bytes⟩
  gives : evaluateValue (clock key) value (sourceBehind clock members source index) =
    (.ok result, sourceBehind clock members source (index + 1))
  settled : Takes (evaluateValue (clock key) value) piece result
  literal : Literal value → piece = [] ∧ result = value

/-- All members evaluated. The pieces that the keys take lie one behind the other. -/
structure Evaluated (clock : Clock) (members : Json.Members) (source : Source) (values : Json.Members)
    (left : Source) : Prop where
  keys : values.map Prod.fst = members.map Prod.fst
  behind : left = sourceBehind clock members source members.length
  pieces : ∃ pieces : List (List UInt8), pieces.length = members.length ∧
    source.bytes = pieces.flatten ++ left.bytes ∧
    ∀ index key value, members[index]? = some (key, value) → ∃ result piece,
      values[index]? = some (key, result) ∧ pieces[index]? = some piece ∧
      Draws clock members source index key value result piece

/-- The members before one whose draw fails are evaluated, and those behind it take nothing. -/
def Stopped (clock : Clock) (members : Json.Members) (source : Source) (fault : EvaluationFault)
    (left : Source) : Prop :=
  ∃ before key value after values middle, members = before ++ (key, value) :: after ∧
    Evaluated clock before source values middle ∧ fault = ⟨key, .exhausted⟩ ∧
    evaluateValue (clock key) value middle = (.error .exhausted, left) ∧ Starved value middle left

def Outcome (clock : Clock) (members : Json.Members) (source : Source) :
    Except EvaluationFault Json.Members × Source → Prop
  | (.ok values, left) => Evaluated clock members source values left
  | (.error fault, left) => Stopped clock members source fault left

theorem Evaluated.nil : Evaluated clock [] source [] source where
  keys := rfl
  behind := rfl
  pieces := ⟨[], rfl, rfl, by simp⟩

theorem Evaluated.cons (drawn : evaluateValue (clock key) value source = (.ok result, middle))
    (rest : Evaluated clock members middle values left) :
    Evaluated clock ((key, value) :: members) source ((key, result) :: values) left := by
  have onward (count : ℕ) : sourceBehind clock ((key, value) :: members) source (count + 1) =
      sourceBehind clock members middle count := by
    rw [sourceBehind, List.take_succ_cons, List.foldl_cons, drawn, sourceBehind]
  obtain ⟨piece, same, settled, literal⟩ := evaluateValue_takes drawn
  obtain ⟨pieces, length, whole, each⟩ := rest.pieces
  refine ⟨congrArg (key :: ·) rest.keys, rest.behind.trans (onward _).symm, piece :: pieces,
    congrArg (· + 1) length, by rw [same, whole, List.flatten_cons, List.append_assoc], ?_⟩
  intro index other found at_index
  cases index with
  | zero =>
    cases at_index
    refine ⟨result, piece, rfl, rfl, ?_, ?_, settled, literal⟩
    · rw [onward]
      exact congrArg Source.mk same
    · rw [onward]
      exact drawn
  | succ index =>
    obtain ⟨next, part, given, taken, draws⟩ := each index other found at_index
    refine ⟨next, part, given, taken, ?_, ?_, draws.settled, draws.literal⟩
    · rw [onward, onward]
      exact draws.takes
    · rw [onward, onward]
      exact draws.gives

theorem Stopped.cons {fault : EvaluationFault}
    (drawn : evaluateValue (clock key) value source = (.ok result, middle))
    (stopped : Stopped clock members middle fault left) :
    Stopped clock ((key, value) :: members) source fault left := by
  obtain ⟨before, named, missing, after, values, reached, rfl, evaluated, failed⟩ := stopped
  exact ⟨(key, value) :: before, named, missing, after, (key, result) :: values, reached, rfl,
    evaluated.cons drawn, failed⟩

theorem evaluate_outcome (clock : Clock) (members : Json.Members) (source : Source) :
    Outcome clock members source (evaluate clock members source) := by
  induction members generalizing source with
  | nil => exact .nil
  | cons member members ih =>
    obtain ⟨key, value⟩ := member
    rw [evaluate]
    rcases drawn : evaluateValue (clock key) value source with ⟨cause | result, middle⟩
    · cases cause
      exact ⟨[], key, value, members, [], source, rfl, .nil, rfl, drawn, evaluateValue_fails drawn⟩
    · have later := ih middle
      rcases rest : evaluate clock members middle with ⟨fault | values, left⟩
      · rw [rest] at later
        simp only [rest]
        exact Stopped.cons drawn later
      · rw [rest] at later
        simp only [rest]
        exact Evaluated.cons drawn later

/-- Two evaluations that differ in the value of one key, and in nothing else. -/
def DifferAt (position : ℕ) (key : String) (value other : Json)
    (first second : Except EvaluationFault Json.Members × Source) : Prop :=
  first.2 = second.2 ∧ ((∃ fault, first.1 = .error fault ∧ second.1 = .error fault) ∨
    ∃ before after, before.length = position ∧ first.1 = .ok (before ++ (key, value) :: after) ∧
      second.1 = .ok (before ++ (key, other) :: after))

theorem evaluate_replaced (literal : Literal value) (literal' : Literal other)
    (before after : Json.Members) (source : Source) :
    DifferAt before.length key value other (evaluate clock (before ++ (key, value) :: after) source)
      (evaluate clock (before ++ (key, other) :: after) source) := by
  induction before generalizing source with
  | nil =>
    simp only [List.nil_append, evaluate, evaluateValue_literal literal, evaluateValue_literal literal']
    rcases evaluate clock after source with ⟨fault | values, left⟩
    · exact ⟨rfl, Or.inl ⟨fault, rfl, rfl⟩⟩
    · exact ⟨rfl, Or.inr ⟨[], values, rfl, rfl, rfl⟩⟩
  | cons member before ih =>
    obtain ⟨named, first⟩ := member
    simp only [List.cons_append, evaluate]
    rcases evaluateValue (clock named) first source with ⟨cause | result, middle⟩
    · exact ⟨rfl, Or.inl ⟨⟨named, cause⟩, rfl, rfl⟩⟩
    · obtain ⟨left, ⟨fault, whole, changed⟩ | ⟨front, back, length, whole, changed⟩⟩ := ih middle
      · exact ⟨left, Or.inl ⟨fault, by simp only [whole, Except.map], by simp only [changed, Except.map]⟩⟩
      · refine ⟨left, Or.inr ⟨(named, result) :: front, back, congrArg (· + 1) length, ?_, ?_⟩⟩
        · simp only [whole, Except.map, List.cons_append]
        · simp only [changed, Except.map, List.cons_append]

/-- Evaluation is a pass over the keys in the order of their bytes, with one source. -/
structure Threaded (clock : Clock) (members : Json.Members) (source : Source) : Prop where
  order : ByteOrdered members
  outcome : Outcome clock members source (evaluate clock members source)
  /-- A literal matters to no other key. -/
  literals : ∀ before key value other after, members = before ++ (key, value) :: after →
    Literal value → Literal other → DifferAt before.length key value other
      (evaluate clock members source) (evaluate clock (before ++ (key, other) :: after) source)

/-- The substitution is any map, given by its members in any order. If it is evaluated, then to a map
with the same keys, in which each value is the one that its definition gives where the keys before it
have left the source. If not, then the fault names the first key whose draw finds too few bytes, and
no later key takes any. -/
theorem evaluation_threads (clock : Clock) (pairs : List (String × Json)) (source : Source) :
    Threaded clock (Json.Members.ofList pairs) source where
  order := ofList_byteOrdered pairs
  outcome := evaluate_outcome clock _ source
  literals := by
    intro before key value other after same literal literal'
    rw [same]
    exact evaluate_replaced literal literal' before after source

/-- The first key takes a word, and the second finds one byte. -/
example : evaluate (fun _ => ⟨0, 0⟩)
      (Json.Members.ofList [("b", .text "\x7b\x7b@guid\x7d\x7d"), ("a", .text "\x7b\x7b@rnd|1\x7d\x7d")])
      ⟨[0, 0, 0, 0, 0, 0, 0, 5, 1]⟩ =
    (.error ⟨"b", .exhausted⟩, ⟨[1]⟩) := rfl

end MessagePress.Proofs.KeyDraws
