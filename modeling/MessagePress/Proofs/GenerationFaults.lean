import Mathlib.Data.List.Basic
import MessagePress.Delivery.Stream
import MessagePress.Proofs.PartialRuns

/-! Faults of generation. Evaluation keeps the keys of a substitution, and only the keys decide
whether a body can be filled. So all messages of a template that cannot be rendered fail with
one fault, whatever is drawn and whatever the clock shows. -/

namespace MessagePress.Proofs.GenerationFaults
open Template Delivery PartialRuns

variable {template : Template} {members values others : Json.Members} {supply : Supply}
  {clock : Clock} {source : Random.Source} {count : ℕ}

def fault? {ε α : Type} : Except ε α → Option ε
  | .ok _ => none
  | .error fault => some fault

theorem ok_of_fault? {ε α : Type} {result : Except ε α} (sound : fault? result = none) :
    ∃ value, result = .ok value := by
  cases result with
  | ok value => exact ⟨value, rfl⟩
  | error fault => cases sound

theorem error_of_fault? {ε α : Type} {result : Except ε α} {fault : ε}
    (failed : fault? result = some fault) : result = .error fault := by
  cases result with
  | ok value => cases failed
  | error other => cases failed; rfl

theorem fault?_map {ε α β : Type} (f : α → β) (result : Except ε α) :
    fault? (result.map f) = fault? result := by
  cases result <;> rfl

theorem evaluate_keys (evaluated : (evaluate clock members source).1 = .ok values) :
    values.map Prod.fst = members.map Prod.fst := by
  induction members generalizing source values with
  | nil => cases evaluated; rfl
  | cons member members ih =>
    obtain ⟨key, value⟩ := member
    rw [evaluate] at evaluated
    rcases drawn : evaluateValue (clock key) value source with ⟨cause | found, left⟩
    · rw [drawn] at evaluated
      cases evaluated
    · simp only [drawn] at evaluated
      obtain ⟨following, rest, rfl⟩ := of_map evaluated
      rw [List.map_cons, List.map_cons, ih rest]

theorem get?_isSome (values : Json.Members) (name : String) :
    (values.get? name).isSome = decide (name ∈ values.map Prod.fst) := by
  induction values with
  | nil => rfl
  | cons member values ih =>
    obtain ⟨key, value⟩ := member
    rw [Json.Members.get?] at ih ⊢
    by_cases same : name = key
    · simp [same]
    · simp [List.lookup_cons, same, beq_false_of_ne same, ih]

theorem fillSegment_fault (keys : values.map Prod.fst = others.map Prod.fst) (segment : Segment) :
    fault? (fillSegment values segment) = fault? (fillSegment others segment) := by
  cases segment with
  | text content => rfl
  | placeholder name =>
    have known : (values.get? (String.ofList name)).isSome = (others.get? (String.ofList name)).isSome := by
      rw [get?_isSome, get?_isSome, keys]
    rw [fillSegment, fillSegment]
    cases here : values.get? (String.ofList name) with
    | none =>
      rw [here] at known
      have there := Option.isNone_iff_eq_none.mp (Option.isSome_eq_false_iff.mp known.symm)
      rw [there]
    | some value =>
      rw [here] at known
      obtain ⟨other, there⟩ := Option.isSome_iff_exists.mp known.symm
      rw [there]
      rfl

theorem fill_cons_fault (values : Json.Members) (segment : Segment) (segments : List Segment) :
    fault? (fill values (segment :: segments)) =
      (fault? (fillSegment values segment)).or (fault? (fill values segments)) := by
  rw [fill]
  cases fillSegment values segment with
  | error fault => rfl
  | ok filled => cases fill values segments <;> rfl

theorem fill_fault (keys : values.map Prod.fst = others.map Prod.fst) (segments : List Segment) :
    fault? (fill values segments) = fault? (fill others segments) := by
  induction segments with
  | nil => rfl
  | cons segment segments ih =>
    rw [fill_cons_fault, fill_cons_fault, fillSegment_fault keys, ih]

theorem render_fault (body : Json.Members) (keys : values.map Prod.fst = others.map Prod.fst) :
    fault? (render body values) = fault? (render body others) := by
  rw [render, render]
  cases segments (Json.object body).render with
  | error fault => rfl
  | ok segments =>
    change fault? ((fill values segments).map String.ofList) =
      fault? ((fill others segments).map String.ofList)
    rw [fault?_map, fault?_map, fill_fault keys]

/-- The fault that a template has with its own substitution, not evaluated. -/
def flaw? (template : Template) : Option RenderFault :=
  fault? (render template.body template.substitution)

theorem render_flaw (evaluated : (evaluate clock template.substitution source).1 = .ok values) :
    fault? (render template.body values) = flaw? template :=
  render_fault template.body (evaluate_keys evaluated)

theorem generate_render
    (evaluated : (evaluate (supply.clocks 0) template.substitution supply.source).1 = .ok values) :
    (template.generate supply).1 = (render template.body values).mapError .render := by
  unfold Template.generate
  simp only [evaluated]
  rfl

theorem generate_ok {message : String} (generated : (template.generate supply).1 = .ok message) :
    ∃ values, (evaluate (supply.clocks 0) template.substitution supply.source).1 = .ok values ∧
      render template.body values = .ok message := by
  obtain ⟨values, evaluated, rendered⟩ := of_bind generated
  exact ⟨values, of_mapError evaluated, of_mapError rendered⟩

/-- The source does not fail while so many messages are generated. -/
def Drawn (template : Template) : ℕ → Supply → Prop
  | 0, _ => True
  | count + 1, supply =>
    (∃ values, (evaluate (supply.clocks 0) template.substitution supply.source).1 = .ok values) ∧
      Drawn template count (template.generate supply).2

theorem Drawn.generate_flawless (drawn : Drawn template (count + 1) supply)
    (flawless : flaw? template = none) : ∃ message, (template.generate supply).1 = .ok message := by
  obtain ⟨values, evaluated⟩ := drawn.1
  obtain ⟨message, rendered⟩ := ok_of_fault? ((render_flaw evaluated).trans flawless)
  exact ⟨message, by rw [generate_render evaluated, rendered]; rfl⟩

theorem Drawn.generate_flawed {fault : RenderFault} (drawn : Drawn template (count + 1) supply)
    (flawed : flaw? template = some fault) :
    (template.generate supply).1 = .error (.render fault) := by
  obtain ⟨values, evaluated⟩ := drawn.1
  have rendered := error_of_fault? ((render_flaw evaluated).trans flawed)
  rw [generate_render evaluated, rendered]
  rfl

theorem Drawn.batch_flawless (drawn : Drawn template count supply)
    (flawless : flaw? template = none) :
    ∃ messages, messages.length = count ∧ (template.generate.batch count supply).1 = .ok messages := by
  induction count generalizing supply with
  | zero => exact ⟨[], rfl, rfl⟩
  | succ count ih =>
    obtain ⟨message, generated⟩ := drawn.generate_flawless flawless
    obtain ⟨messages, length, whole⟩ := ih drawn.2
    refine ⟨message :: messages, by rw [List.length_cons, length], ?_⟩
    rcases step : template.generate supply with ⟨outcome, left⟩
    rw [step] at generated whole
    cases generated
    simp only [Generator.batch, step, whole]
    rfl

/-- A stream numbers its messages, and otherwise generates what the template does. -/
theorem runBatch_batch {σ ε α : Type} (generator : Generator σ ε α) (index count : ℕ) (state : σ) :
    (runBatch generator index count state).1.outcome.mapError Prod.snd =
      (generator.batch count state).1 := by
  induction count generalizing index state with
  | zero => rfl
  | succ count ih =>
    rw [runBatch, Generator.batch]
    rcases generator state with ⟨fault | message, left⟩
    · rfl
    · simp only [← ih (index + 1) left]
      cases (runBatch generator (index + 1) count left).1.outcome <;> rfl

/-- How a batch ends: whole, or at its first message with the fault of the template. -/
def Ends (template : Template) (supply : Supply) (count : ℕ) : Option RenderFault → Prop
  | none => ∃ messages, messages.length = count ∧
      (template.generate.batch count supply).1 = .ok messages ∧
      ∀ verbose name topic,
        (Stream.produce verbose ⟨name, topic, count, template⟩ supply).1.outcome = .ok messages
  | some fault =>
      template.generate.batch count supply =
        (.error (.render fault), (template.generate supply).2) ∧
      ∀ verbose name topic, Stream.produce verbose ⟨name, topic, count, template⟩ supply =
        (⟨.error (.generation name 0 (.render fault)), evaluationLog template.substitution⟩,
          (template.generate supply).2)

theorem Drawn.ends (drawn : Drawn template (count + 1) supply) :
    Ends template supply (count + 1) (flaw? template) := by
  cases flaw : flaw? template with
  | none =>
    obtain ⟨messages, length, whole⟩ := drawn.batch_flawless flaw
    refine ⟨messages, length, whole, ?_⟩
    intro verbose name topic
    have numbered := (runBatch_batch template.generate 0 (count + 1) supply).trans whole
    simp only [Stream.produce]
    cases run : (runBatch template.generate 0 (count + 1) supply).1.outcome with
    | error fault =>
      rw [run] at numbered
      cases numbered
    | ok found =>
      rw [run] at numbered
      cases numbered
      rfl
  | some fault =>
    have failed := drawn.generate_flawed flaw
    rcases step : template.generate supply with ⟨outcome, left⟩
    rw [step] at failed
    cases failed
    have stops : runBatch template.generate 0 (count + 1) supply =
        (⟨.error (0, .render fault), []⟩, left) := by
      simp only [runBatch, step]
    constructor
    · simp only [Generator.batch, step]
    · intro verbose name topic
      simp only [Stream.produce, stops, step]
      rfl

/-- Whether messages fail does not depend on what is generated for them. -/
structure Uniform (template : Template) : Prop where
  renders : ∀ clock clock' source source' values values',
    (evaluate clock template.substitution source).1 = .ok values →
    (evaluate clock' template.substitution source').1 = .ok values' →
    fault? (render template.body values) = fault? (render template.body values')
  batches : ∀ supply count, 0 < count → Drawn template count supply →
    ∃ flaw, (∀ clock source values, (evaluate clock template.substitution source).1 = .ok values →
      fault? (render template.body values) = flaw) ∧ Ends template supply count flaw

/-- For every template, and so for every one that was loaded: any two evaluations can both be
rendered or both fail with the same fault. While the source does not fail, a batch and the batch
of a stream are whole or have failed with that fault before their first message. -/
theorem generation_uniform (template : Template) : Uniform template where
  renders := by
    intro clock clock' source source' values values' evaluated evaluated'
    rw [render_flaw evaluated, render_flaw evaluated']
  batches := by
    intro supply count positive drawn
    cases count with
    | zero => exact absurd positive (Nat.lt_irrefl 0)
    | succ count =>
      refine ⟨flaw? template, ?_, drawn.ends⟩
      intro clock source values evaluated
      exact render_flaw evaluated

/-- Two messages with different identifiers fail at the same unknown name. -/
theorem generation_uniform_unknown :
    let template : Template := ⟨[("id", .text "\x7b\x7b@guid\x7d\x7d")],
      [("a", .text "\x7b\x7b.id\x7d\x7d"), ("b", .text "\x7b\x7b.name\x7d\x7d")]⟩
    let supply : Supply := ⟨⟨List.replicate 16 1 ++ List.replicate 16 2⟩, fun _ _ => ⟨0, 0⟩⟩
    let next := (template.generate supply).2
    ∃ values others,
      (evaluate (supply.clocks 0) template.substitution supply.source).1 = .ok values ∧
      (evaluate (next.clocks 0) template.substitution next.source).1 = .ok others ∧
      fault? (render template.body values) = fault? (render template.body others) ∧
      Drawn template 2 supply ∧ Ends template supply 2 (some (.missingKey "name")) := by
  intro template supply next
  have first : fault? (evaluate (supply.clocks 0) template.substitution supply.source).1 = none := by
    decide +kernel
  have second : fault? (evaluate (next.clocks 0) template.substitution next.source).1 = none := by
    decide +kernel
  have unknown : flaw? template = some (.missingKey "name") := by
    decide +kernel
  obtain ⟨values, evaluated⟩ := ok_of_fault? first
  obtain ⟨others, reevaluated⟩ := ok_of_fault? second
  have drawn : Drawn template 2 supply := ⟨⟨values, evaluated⟩, ⟨others, reevaluated⟩, trivial⟩
  have uniform := generation_uniform template
  obtain ⟨flaw, every, ends⟩ := uniform.batches supply 2 (by decide) drawn
  rw [← every _ _ _ evaluated, render_flaw evaluated, unknown] at ends
  exact ⟨values, others, evaluated, reevaluated, uniform.renders _ _ _ _ _ _ evaluated reevaluated,
    drawn, ends⟩

end MessagePress.Proofs.GenerationFaults
