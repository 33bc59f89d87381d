import MessagePress.Template.Document
import MessagePress.Template.Evaluation
import MessagePress.Template.Render

/-! Generating messages one after the other. Each starts from what the one before it left,
and a template is the same for all of them. -/

namespace MessagePress

/-- Gives one message or fails, and leaves what the next one starts from. -/
abbrev Generator (σ ε α : Type) := σ → Except ε α × σ

namespace Generator

/-- Messages that are still to come, and what the next one starts from. -/
structure Pending (σ : Type) where
  remaining : Nat
  state : σ

/-- Asks for the next message, unless none is to come. -/
def next (generator : Generator σ ε α) (pending : Pending σ) :
    Option (Except ε α × Pending σ) :=
  match pending.remaining with
  | 0 => none
  | remaining + 1 =>
    let (outcome, state) := generator pending.state
    some (outcome, ⟨remaining, state⟩)

/-- All outcomes to the end, each with how many were still to come behind it. -/
def outcomes (generator : Generator σ ε α) : Nat → σ → List (Except ε α × Nat)
  | 0, _ => []
  | remaining + 1, state =>
    let (outcome, state) := generator state
    (outcome, remaining) :: outcomes generator remaining state

/-- So many messages; the first fault ends them and is all that is left of them. -/
def batch (generator : Generator σ ε α) : Nat → σ → Except ε (List α) × σ
  | 0, state => (.ok [], state)
  | count + 1, state =>
    match generator state with
    | (.error fault, state) => (.error fault, state)
    | (.ok message, state) =>
      let (rest, state) := batch generator count state
      (rest.map (message :: ·), state)

end Generator

namespace Template

/-- What messages use up: random bytes, and readings of the clock for every message. -/
structure Supply where
  source : Random.Source
  clocks : Nat → Clock

inductive GenerateFault
  | evaluation (fault : EvaluationFault)
  | render (fault : RenderFault)
  deriving DecidableEq, Repr

namespace GenerateFault

def message : GenerateFault → String
  | evaluation fault => "Failed to build substitutions: " ++ fault.message
  | render fault => "Failed to render template: " ++ fault.message

/-- The message followed by those of the causes, each of which it has quoted. -/
def chain (fault : GenerateFault) : List String :=
  match fault with
  | evaluation inner => [fault.message, inner.message, inner.cause.message]
  | render inner => [fault.message, inner.message]

end GenerateFault

/-- Generates one message: evaluates the substitutions afresh and fills the body. -/
def generate (template : Template) : Generator Supply GenerateFault String := fun supply =>
  let (values, source) := evaluate (supply.clocks 0) template.substitution supply.source
  let result := do
    let values ← values.mapError GenerateFault.evaluation
    (render template.body values).mapError .render
  (result, ⟨source, fun index => supply.clocks (index + 1)⟩)

end Template

end MessagePress
