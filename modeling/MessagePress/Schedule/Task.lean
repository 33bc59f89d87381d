import MessagePress.Delivery.Stream
import MessagePress.Schedule.Basic

/-! What a task does in each of its runs. A run that fails is told by all the messages of its
error. -/

namespace MessagePress.Schedule

/-- What a run of a task comes to. An error is a chain of messages, each the cause of the one
before it. -/
inductive Result
  | done
  | failed (chain : List String)
  | panicked
  deriving DecidableEq, Repr

def Result.text? : Result → Option String
  | .failed chain => some (Delivery.chainText chain)
  | _ => none

def Result.ending : Result → Ending
  | .done => .success
  | .failed chain => .failure (Delivery.chainText chain)
  | .panicked => .panic

structure Performance where
  duration : Nat
  result : Result
  deriving DecidableEq, Repr

/-- The runs of a task, by their number. -/
abbrev Task := Nat → Performance

def Task.script (task : Task) : Script := fun number =>
  ⟨(task number).duration, (task number).result.ending⟩

end MessagePress.Schedule
