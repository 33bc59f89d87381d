/-! What a computation gives if it gives anything. A fault satisfies every condition, so where
the faults do not matter only the way on has to be followed. -/

namespace MessagePress.Proofs.PartialRuns

/-- A condition of the result, unless there is none. -/
def Yields (result : Except ε α) (condition : α → Prop) : Prop :=
  ∀ value, result = .ok value → condition value

variable {ε α β σ : Type} {result : Except ε α} {condition stronger : α → Prop}

@[simp] theorem yields_ok {value : α} : Yields (.ok value : Except ε α) condition ↔ condition value :=
  ⟨fun yields => yields value rfl, fun holds _ same => Except.ok.inj same ▸ holds⟩

@[simp] theorem yields_error {fault : ε} : Yields (.error fault) condition :=
  fun _ same => nomatch same

@[simp] theorem yields_pure {value : α} :
    Yields (pure value : Except ε α) condition ↔ condition value := yields_ok

@[simp] theorem yields_throw {fault : ε} : Yields (throw fault : Except ε α) condition := yields_error

@[simp] theorem yields_bind {next : α → Except ε β} {condition : β → Prop} :
    Yields (result >>= next) condition ↔ Yields result fun value => Yields (next value) condition := by
  cases result with
  | error fault => exact iff_of_true yields_error yields_error
  | ok value => exact ⟨fun yields => yields_ok.mpr yields, fun yields => yields value rfl⟩

@[simp] theorem yields_map {f : α → β} {condition : β → Prop} :
    Yields (result.map f) condition ↔ Yields result fun value => condition (f value) := by
  cases result with
  | error fault => exact iff_of_true yields_error yields_error
  | ok value => exact ⟨fun yields => yields_ok.mpr (yields _ rfl), fun yields => yields_ok.mpr (yields _ rfl)⟩

theorem Yields.imp (yields : Yields result stronger) (weaker : ∀ value, stronger value → condition value) :
    Yields result condition := fun value same => weaker value (yields value same)

theorem of_bind {next : α → Except ε β} {value : β} (given : result >>= next = .ok value) :
    ∃ first, result = .ok first ∧ next first = .ok value := by
  cases result with
  | error fault => cases given
  | ok first => exact ⟨first, rfl, given⟩

theorem of_map {f : α → β} {value : β} (given : result.map f = .ok value) :
    ∃ found, result = .ok found ∧ f found = value := by
  cases result with
  | error fault => cases given
  | ok found => exact ⟨found, rfl, Except.ok.inj given⟩

theorem of_mapError {ε' : Type} {f : ε → ε'} {value : α} (given : result.mapError f = .ok value) :
    result = .ok value := by
  cases result with
  | error fault => cases given
  | ok found => cases given; rfl

theorem of_toOption {value : α} (given : result.toOption = some value) : result = .ok value := by
  cases result with
  | error fault => cases given
  | ok found => cases given; rfl

theorem bind_apply {μ : Type → Type} [Monad μ] (first : StateT σ μ α) (next : α → StateT σ μ β)
    (state : σ) : (first >>= next) state = first state >>= fun reached => next reached.1 reached.2 := rfl

theorem pure_apply {μ : Type → Type} [Monad μ] (value : α) (state : σ) :
    (pure value : StateT σ μ α) state = pure (value, state) := rfl

theorem lift_apply {μ : Type → Type} [Monad μ] (inner : μ α) (state : σ) :
    (liftM inner : StateT σ μ α) state = inner >>= fun value => pure (value, state) := rfl

end MessagePress.Proofs.PartialRuns
