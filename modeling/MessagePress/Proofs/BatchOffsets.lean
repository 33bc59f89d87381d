import MessagePress.Proofs.GenerationFaults
import MessagePress.Proofs.KeyDraws

/-! Batches on one random source. Nothing is kept from one message to the next but the place in
the source, so a batch falls apart into smaller ones anywhere, down to its single messages. -/

namespace MessagePress.Proofs.BatchOffsets
open MessagePress.Random Template Draws KeyDraws

variable {template : Template} {clock other : Clock} {members values : Json.Members}
  {source : Source} {clocks : ℕ → Clock} {message : String} {messages : List String} {left : Supply}

/-- A value that stands for a reading of the clock. -/
def ReadsClock (value : Json) : Prop :=
  ∃ content span format, value = .text content ∧ findCall content = some span ∧ span.call = .now format

/-- No value of the substitution stands for a reading of the clock. -/
def Clockless (members : Json.Members) : Prop := ∀ member ∈ members, ¬ReadsClock member.2

section Batches

variable {σ ε α : Type} {generator : Generator σ ε α} {first : ℕ} {state next : σ} {fault : ε}
  {messages : List α}

theorem batch_succ_ok {message : α} (step : generator state = (.ok message, next)) (count : ℕ) :
    generator.batch (count + 1) state =
      ((generator.batch count next).1.map (message :: ·), (generator.batch count next).2) := by
  rw [Generator.batch, step]

theorem batch_succ_error (step : generator state = (.error fault, next)) (count : ℕ) :
    generator.batch (count + 1) state = (.error fault, next) := by
  rw [Generator.batch, step]

theorem batch_add_error (front : generator.batch first state = (.error fault, next)) (second : ℕ) :
    generator.batch (first + second) state = (.error fault, next) := by
  induction first generalizing state with
  | zero => cases front
  | succ first ih =>
    rw [Nat.succ_add]
    rcases step : generator state with ⟨cause | message, middle⟩
    · rw [batch_succ_error step] at front ⊢
      exact front
    · rw [batch_succ_ok step] at front
      rcases rest : generator.batch first middle with ⟨cause | messages, last⟩
      · rw [batch_succ_ok step, ih (rest.trans ?_)]
        · rfl
        · simpa [rest, Except.map] using front
      · simp [rest, Except.map] at front

theorem batch_add_ok (front : generator.batch first state = (.ok messages, next)) (second : ℕ) :
    generator.batch (first + second) state =
      ((generator.batch second next).1.map (messages ++ ·), (generator.batch second next).2) := by
  induction first generalizing state messages with
  | zero =>
    cases front
    rw [Nat.zero_add]
    rcases generator.batch second next with ⟨fault | messages, left⟩ <;> rfl
  | succ first ih =>
    rw [Nat.succ_add]
    rcases step : generator state with ⟨cause | message, middle⟩
    · rw [batch_succ_error step] at front
      cases front
    · rw [batch_succ_ok step] at front
      rcases rest : generator.batch first middle with ⟨cause | others, last⟩
      · simp [rest, Except.map] at front
      · simp only [rest, Except.map, Prod.mk.injEq, Except.ok.injEq] at front
        obtain ⟨rfl, rfl⟩ := front
        rw [batch_succ_ok step, ih rest]
        rcases generator.batch second last with ⟨fault | messages, left⟩ <;> rfl

end Batches

theorem evaluateValue_clockless {value : Json} (clockless : ¬ReadsClock value)
    (instant other : Time.Instant) : evaluateValue instant value = evaluateValue other value := by
  cases value with
  | text content =>
    funext source
    cases found : findCall content with
    | none => simp only [evaluateValue, found]
    | some span =>
      cases call : span.call with
      | now format => exact absurd ⟨content, span, format, rfl, found, call⟩ clockless
      | _ => simp only [evaluateValue, found, call, evaluateCall]
  | _ => rfl

theorem evaluate_clockless (clockless : Clockless members) (source : Source) :
    evaluate clock members source = evaluate other members source := by
  induction members generalizing source with
  | nil => rfl
  | cons member members ih =>
    obtain ⟨key, value⟩ := member
    obtain ⟨first, rest⟩ := List.forall_mem_cons.mp clockless
    rw [evaluate, evaluate, evaluateValue_clockless first (clock key) (other key)]
    rcases evaluateValue (other key) value source with ⟨cause | result, middle⟩
    · rfl
    · simp only [ih rest]

theorem evaluate_takes {left : Source} (evaluated : evaluate clock members source = (.ok values, left)) :
    ∃ piece, source.bytes = piece ++ left.bytes ∧ Takes (evaluate clock members) piece values := by
  induction members generalizing source values with
  | nil =>
    cases evaluated
    exact ⟨[], rfl, fun rest => rfl⟩
  | cons member members ih =>
    obtain ⟨key, value⟩ := member
    rw [evaluate] at evaluated
    rcases drawn : evaluateValue (clock key) value source with ⟨cause | result, middle⟩
    · rw [drawn] at evaluated
      cases evaluated
    rcases behind : evaluate clock members middle with ⟨fault | others, last⟩
    · simp [drawn, behind, Except.map] at evaluated
    simp only [drawn, behind, Except.map, Prod.mk.injEq, Except.ok.injEq] at evaluated
    obtain ⟨rfl, rfl⟩ := evaluated
    obtain ⟨front, first, takes, -⟩ := evaluateValue_takes drawn
    obtain ⟨back, second, taken⟩ := ih behind
    refine ⟨front ++ back, by rw [first, second, List.append_assoc], fun rest => ?_⟩
    rw [List.append_assoc, evaluate, takes]
    simp only [taken rest, Except.map]

theorem evaluate_suffix (clock : Clock) (members : Json.Members) (source : Source) :
    ∃ taken, source.bytes = taken ++ (evaluate clock members source).2.bytes := by
  have outcome := evaluate_outcome clock members source
  rcases evaluated : evaluate clock members source with ⟨fault | values, left⟩
  · rw [evaluated] at outcome
    obtain ⟨before, key, value, after, values, middle, -, reached, -, -, ⟨passed, same⟩, -⟩ := outcome
    obtain ⟨pieces, -, whole, -⟩ := reached.pieces
    exact ⟨pieces.flatten ++ passed, by rw [whole, same, List.append_assoc]⟩
  · rw [evaluated] at outcome
    obtain ⟨pieces, -, whole, -⟩ := Evaluated.pieces outcome
    exact ⟨pieces.flatten, whole⟩

theorem generate_clockless (clockless : Clockless template.substitution) (source : Source)
    (clocks others : ℕ → Clock) :
    (template.generate ⟨source, clocks⟩).1 = (template.generate ⟨source, others⟩).1 ∧
      (template.generate ⟨source, clocks⟩).2.source = (template.generate ⟨source, others⟩).2.source := by
  simp only [generate, @evaluate_clockless (clocks 0) (others 0) _ clockless, and_self]

theorem batch_clockless (clockless : Clockless template.substitution) (count : ℕ) (source : Source)
    (clocks others : ℕ → Clock) :
    (template.generate.batch count ⟨source, clocks⟩).1 = (template.generate.batch count ⟨source, others⟩).1 ∧
      (template.generate.batch count ⟨source, clocks⟩).2.source =
        (template.generate.batch count ⟨source, others⟩).2.source := by
  induction count generalizing source clocks others with
  | zero => exact ⟨rfl, rfl⟩
  | succ count ih =>
    have same := generate_clockless clockless source clocks others
    rcases here : template.generate ⟨source, clocks⟩ with ⟨outcome, left, later⟩
    rcases there : template.generate ⟨source, others⟩ with ⟨outcome', left', later'⟩
    rw [here, there] at same
    obtain ⟨rfl, rfl⟩ : outcome = outcome' ∧ left = left' := same
    cases outcome with
    | error fault =>
      rw [batch_succ_error here, batch_succ_error there]
      exact ⟨rfl, rfl⟩
    | ok message =>
      obtain ⟨messages, last⟩ := ih left later later'
      rw [batch_succ_ok here, batch_succ_ok there]
      exact ⟨congrArg (Except.map (message :: ·)) messages, last⟩

/-- The message takes these bytes, and they settle it, whatever follows and whatever the clocks show. -/
def Settles (template : Template) (piece : List UInt8) (message : String) : Prop :=
  ∀ rest clocks, template.generate ⟨⟨piece ++ rest⟩, clocks⟩ =
    (.ok message, ⟨⟨rest⟩, fun index => clocks (index + 1)⟩)

theorem generate_settles (clockless : Clockless template.substitution)
    (generated : template.generate ⟨source, clocks⟩ = (.ok message, left)) :
    ∃ piece, source.bytes = piece ++ left.source.bytes ∧ Settles template piece message := by
  rcases evaluated : evaluate (clocks 0) template.substitution source with ⟨fault | values, after⟩
  · simp [generate, evaluated, Except.mapError, bind, Except.bind] at generated
  simp only [generate, evaluated, Except.mapError, bind, Except.bind, Prod.mk.injEq] at generated
  obtain ⟨rendered, rfl⟩ := generated
  obtain ⟨piece, same, takes⟩ := evaluate_takes evaluated
  refine ⟨piece, same, fun rest others => ?_⟩
  have again : evaluate (others 0) template.substitution ⟨piece ++ rest⟩ = (.ok values, ⟨rest⟩) :=
    (evaluate_clockless clockless _).trans (takes rest)
  simp only [generate, again, Except.mapError, bind, Except.bind, rendered]

theorem batch_settles (clockless : Clockless template.substitution) {count : ℕ}
    (generated : template.generate.batch count ⟨source, clocks⟩ = (.ok messages, left)) :
    ∃ pieces : List (List UInt8), source.bytes = pieces.flatten ++ left.source.bytes ∧
      List.Forall₂ (Settles template) pieces messages := by
  induction count generalizing source clocks messages with
  | zero =>
    cases generated
    exact ⟨[], rfl, .nil⟩
  | succ count ih =>
    rcases step : template.generate ⟨source, clocks⟩ with ⟨fault | message, next⟩
    · rw [batch_succ_error step] at generated
      cases generated
    rw [batch_succ_ok step] at generated
    rcases behind : template.generate.batch count next with ⟨fault | others, last⟩
    · simp [behind, Except.map] at generated
    simp only [behind, Except.map, Prod.mk.injEq, Except.ok.injEq] at generated
    obtain ⟨rfl, rfl⟩ := generated
    obtain ⟨piece, front, settles⟩ := generate_settles clockless step
    obtain ⟨pieces, back, all⟩ := ih behind
    exact ⟨piece :: pieces, by rw [front, back, List.flatten_cons, List.append_assoc], .cons settles all⟩

/-- Each message is what one generation gives at the place where the pieces before its own end. -/
theorem settles_at {pieces : List (List UInt8)} (all : List.Forall₂ (Settles template) pieces messages)
    (rest : List UInt8) {index : ℕ} (found : messages[index]? = some message) (clocks : ℕ → Clock) :
    (template.generate ⟨⟨(pieces.flatten ++ rest).drop (pieces.take index).flatten.length⟩, clocks⟩).1 =
      .ok message := by
  induction all generalizing index with
  | nil => cases found
  | @cons piece first pieces messages settles all ih =>
    cases index with
    | zero =>
      cases found
      rw [List.take_zero, List.flatten_nil, List.length_nil, List.drop_zero, List.flatten_cons,
        List.append_assoc, settles]
    | succ index =>
      rw [List.take_succ_cons, List.flatten_cons, List.flatten_cons, List.length_append,
        List.append_assoc, List.drop_length_add_append]
      exact ih found

theorem generate_suffix (template : Template) (supply : Supply) :
    ∃ taken, supply.source.bytes = taken ++ (template.generate supply).2.source.bytes :=
  evaluate_suffix _ _ _

theorem batch_suffix (template : Template) (count : ℕ) (supply : Supply) :
    ∃ taken, supply.source.bytes = taken ++ (template.generate.batch count supply).2.source.bytes := by
  induction count generalizing supply with
  | zero => exact ⟨[], rfl⟩
  | succ count ih =>
    obtain ⟨front, first⟩ := generate_suffix template supply
    rcases step : template.generate supply with ⟨fault | message, next⟩
    · rw [step] at first
      rw [batch_succ_error step]
      exact ⟨front, first⟩
    · rw [step] at first
      rw [batch_succ_ok step]
      obtain ⟨back, second⟩ := ih next
      exact ⟨front ++ back, by rw [first, second, List.append_assoc]⟩

/-- How many bytes lie between two places in a source. -/
def used (source left : Source) : ℕ := source.bytes.length - left.bytes.length

/-- A batch is a batch of its first messages, and one of the others where the first have left off.
Each of the three may be generated at its own time. -/
structure Divides (template : Template) (source : Source) (first second : ℕ) : Prop where
  fails : ∀ clocks others fault left,
    template.generate.batch first ⟨source, clocks⟩ = (.error fault, left) →
    (template.generate.batch (first + second) ⟨source, others⟩).1 = .error fault ∧
      (template.generate.batch (first + second) ⟨source, others⟩).2.source = left.source
  continues : ∀ clocks others later messages left,
    template.generate.batch first ⟨source, clocks⟩ = (.ok messages, left) →
    let whole := template.generate.batch (first + second) ⟨source, others⟩
    let back := template.generate.batch second ⟨left.source, later⟩
    whole.1 = back.1.map (messages ++ ·) ∧ whole.2.source = back.2.source ∧
      used source whole.2.source = used source left.source + used left.source back.2.source
  /-- Down to single messages, each with bytes of its own. -/
  pieces : ∀ clocks messages left,
    template.generate.batch (first + second) ⟨source, clocks⟩ = (.ok messages, left) →
    ∃ pieces : List (List UInt8), source.bytes = pieces.flatten ++ left.source.bytes ∧
      List.Forall₂ (Settles template) pieces messages ∧
      ∀ index message, messages[index]? = some message → ∀ others, (template.generate
        ⟨⟨source.bytes.drop (pieces.take index).flatten.length⟩, others⟩).1 = .ok message

/-- For every template whose calls do not read the clock, every source and any two counts. -/
theorem batch_divides {template : Template} (clockless : Clockless template.substitution)
    (source : Source) (first second : ℕ) : Divides template source first second where
  fails := by
    intro clocks others fault left failed
    obtain ⟨result, place⟩ := batch_clockless clockless (first + second) source others clocks
    rw [result, place, batch_add_error failed]
    exact ⟨rfl, rfl⟩
  continues := by
    intro clocks others later messages left generated whole back
    obtain ⟨result, place⟩ := batch_clockless clockless (first + second) source others clocks
    obtain ⟨result', place'⟩ := batch_clockless clockless second left.source left.clocks later
    have joined := batch_add_ok generated second
    have same : whole.1 = back.1.map (messages ++ ·) := by
      rw [result, joined]
      exact congrArg (Except.map (messages ++ ·)) result'
    have ends : whole.2.source = back.2.source := by
      rw [place, joined]
      exact place'
    refine ⟨same, ends, ?_⟩
    obtain ⟨front, taken⟩ := batch_suffix template first ⟨source, clocks⟩
    obtain ⟨behind, taken'⟩ := batch_suffix template second ⟨left.source, later⟩
    rw [generated] at taken
    have length : source.bytes.length = (front ++ left.source.bytes).length :=
      congrArg List.length taken
    have length' : left.source.bytes.length = (behind ++ back.2.source.bytes).length :=
      congrArg List.length taken'
    rw [List.length_append] at length length'
    rw [ends, used, used, used]
    omega
  pieces := by
    intro clocks messages left generated
    obtain ⟨pieces, whole, all⟩ := batch_settles clockless generated
    refine ⟨pieces, whole, all, fun index message found others => ?_⟩
    rw [whole]
    exact settles_at all _ found others

/-- The first message passes over a word and takes the next one, the second takes one. -/
theorem batch_divides_redrawn :
    let template : Template := ⟨[("n", .text "\x7b\x7b@rnd|1\x7d\x7d")],
      [("a", .text "\x7b\x7b.n\x7d\x7d")]⟩
    let source : Source := ⟨[0, 0, 0, 0, 0, 0, 0, 15, 0, 0, 0, 0, 0, 0, 0, 5, 0, 0, 0, 0, 0, 0, 0, 7]⟩
    let supply : Supply := ⟨source, fun _ _ => ⟨0, 0⟩⟩
    Clockless template.substitution ∧ Divides template source 1 1 ∧
      (template.generate.batch 1 supply).2.source = ⟨[0, 0, 0, 0, 0, 0, 0, 7]⟩ ∧
      (template.generate.batch 2 supply).1 = .ok ["\x7b\"a\":\"5\"\x7d", "\x7b\"a\":\"7\"\x7d"] := by
  intro template source supply
  have clockless : Clockless template.substitution := by
    rintro member held ⟨content, span, format, same, found, call⟩
    cases List.mem_singleton.mp held
    cases same
    have digits : (findCall "\x7b\x7b@rnd|1\x7d\x7d").map CallSpan.call = some (.digits 1) := by
      decide +kernel
    rw [found, Option.map_some, call] at digits
    cases digits
  exact ⟨clockless, batch_divides clockless source 1 1, by decide +kernel, by decide +kernel⟩

end MessagePress.Proofs.BatchOffsets
