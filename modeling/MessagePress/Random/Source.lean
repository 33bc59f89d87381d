/-! A source of random bytes that is read from the front. A request that the source cannot
meet in full takes nothing from it. -/

namespace MessagePress.Random

/-- The bytes not drawn yet. -/
structure Source where
  bytes : List UInt8
  deriving DecidableEq, Repr

/-- Why a draw failed: fewer bytes are left than asked for. -/
inductive Fault
  | exhausted
  deriving DecidableEq, Repr

def Fault.message : Fault → String
  | .exhausted => "entropy source exhausted"

/-- A draw from a source: a result or a fault, and what is left in either case. -/
abbrev Draw (α : Type) := Source → Except Fault α × Source

def Source.draw (count : Nat) : Draw (List UInt8) := fun source =>
  if count ≤ source.bytes.length then
    (.ok (source.bytes.take count), ⟨source.bytes.drop count⟩)
  else (.error .exhausted, source)

end MessagePress.Random
