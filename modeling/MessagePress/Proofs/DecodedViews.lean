import Mathlib.Data.List.Induction
import MessagePress.Yaml.Decode

/-! Decoders whose results are only looked at differently. What is read, and every fault that is
met on the way, stays the same. -/

namespace MessagePress.Proofs.DecodedViews
open Yaml Yaml.Decode

variable {α β σ τ : Type} {f : α → β}

theorem map_run (f : α → β) (action : Decode α) (environment : Environment) (jumps : ℕ) :
    (f <$> action) environment jumps =
      (action environment jumps).map fun result => (f result.1, result.2) := by
  change Except.bind (action environment jumps) _ = _
  cases action environment jumps <;> rfl

theorem placed_map (mark : Mark) (path : Path) (f : α → β) (action : Decode α) :
    placed mark path (f <$> action) = f <$> placed mark path action := by
  funext environment jumps
  rw [map_run]
  change Except.tryCatch ((f <$> action) environment jumps) _ =
    (Except.tryCatch (action environment jumps) _).map _
  rw [map_run]
  cases action environment jumps with
  | ok result => rfl
  | error fault =>
    dsimp only [Except.map, Except.tryCatch]
    split <;> rfl

theorem failType_map (node : Node) (expected : String) :
    f <$> (failType node expected : Decode α) = failType node expected := by
  unfold failType
  split
  · rfl
  · split <;> rfl
  · rfl
  · rfl
  · rfl

theorem once_map (name : String) (old : Option α) (value : Decode α) :
    once name (old.map f) (f <$> value) = Option.map f <$> once name old value := by
  unfold once
  rw [Option.isSome_map]
  split
  · rfl
  · simp only [map_bind, bind_map_left, map_pure, Option.map_some]

theorem readEntries_map {path : Path} {expected : ℕ → String} {complete : Bool} {view : σ → τ}
    {step : σ → String → Located → Decode σ} {step' : τ → String → Located → Decode τ}
    (same : ∀ state name value, step' (view state) name value = view <$> step state name value)
    (index : ℕ) (state : σ) (nodes : List Node) :
    readEntries path expected step' complete index (view state) nodes =
      view <$> readEntries path expected step complete index state nodes := by
  induction nodes using List.twoStepInduction generalizing index state with
  | nil =>
    rw [readEntries, readEntries]
    split <;> rfl
  | singleton key =>
    rw [readEntries, readEntries, map_bind]
    rfl
  | cons_cons key value rest ih _ =>
    rw [readEntries, readEntries]
    simp only [map_bind, bind_map_left, same, ih]

theorem mapping_map {depth : ℕ} {expected : String} {expectedKey : ℕ → String} {state : σ}
    {view : σ → τ} {step : ℕ → σ → String → Located → Decode σ}
    {step' : ℕ → τ → String → Located → Decode τ} {finish : σ → Decode α} {finish' : τ → Decode β}
    (same : ∀ inner state name value,
      step' inner (view state) name value = view <$> step inner state name value)
    (last : ∀ state, finish' (view state) = f <$> finish state) (located : Located) :
    mapping depth expected expectedKey (view state) step' finish' located =
      f <$> mapping depth expected expectedKey state step finish located := by
  unfold mapping
  rw [map_bind]
  refine bind_congr fun ⟨node, path⟩ => ?_
  dsimp only
  rw [← placed_map]
  congr 1
  split
  · cases depth with
    | zero => rfl
    | succ inner =>
      simp only [deeper, readEntries_map (same inner), bind_map_left, map_bind, last]
  · split
    · exact last state
    · exact (failType_map _ _).symm

theorem mapping_finish {depth : ℕ} {expected : String} {expectedKey : ℕ → String} {state : σ}
    {step : ℕ → σ → String → Located → Decode σ} {finish : σ → Decode α} {finish' : σ → Decode β}
    (last : ∀ state, finish' state = f <$> finish state) (located : Located) :
    mapping depth expected expectedKey state step finish' located =
      f <$> mapping depth expected expectedKey state step finish located :=
  @mapping_map _ _ _ _ f depth expected expectedKey state id step step finish finish'
    (fun _ _ _ _ => (id_map _).symm) last located

section
variable {element : Located → Decode α} {element' : Located → Decode β}

theorem readItems_map {path : Path} {complete : Bool}
    (same : ∀ located, element' located = f <$> element located) (index : ℕ) (nodes : List Node) :
    Decode.readItems path element' complete index nodes =
      List.map f <$> Decode.readItems path element complete index nodes := by
  induction nodes generalizing index with
  | nil =>
    rw [Decode.readItems, Decode.readItems]
    split <;> rfl
  | cons node rest ih =>
    rw [Decode.readItems, Decode.readItems]
    simp only [map_bind, bind_map_left, same, ih, map_pure, List.map_cons]

end

theorem sequence_map {depth : ℕ} {element : ℕ → Located → Decode α}
    {element' : ℕ → Located → Decode β}
    (same : ∀ inner located, element' inner located = f <$> element inner located)
    (located : Located) :
    Decode.sequence depth element' located =
      List.map f <$> Decode.sequence depth element located := by
  unfold Decode.sequence
  rw [map_bind]
  refine bind_congr fun ⟨node, path⟩ => ?_
  dsimp only
  rw [← placed_map]
  congr 1
  split
  · cases depth with
    | zero => rfl
    | succ inner => exact readItems_map (same inner) 0 _
  · split
    · rfl
    · exact (failType_map _ _).symm

theorem optional_map {value : Located → Decode α} {value' : Located → Decode β}
    (same : ∀ located, value' located = f <$> value located) (located : Located) :
    Decode.optional value' located = Option.map f <$> Decode.optional value located := by
  have some (located) : (do return some (← value' located) : Decode (Option β)) =
      Option.map f <$> (do return some (← value located)) := by
    simp only [same, bind_map_left, map_bind, map_pure, Option.map_some]
  unfold Decode.optional
  rw [map_bind]
  refine bind_congr fun located => ?_
  split
  · rfl
  · split
    · exact some _
    split
    · split <;> rfl
    split
    · rfl
    · exact some _
  · exact some _

/-- Only the value of a whole document is looked at differently. -/
theorem decode_map (document : Document) {decoder : Located → Decode α}
    {decoder' : Located → Decode β} (same : ∀ located, decoder' located = f <$> decoder located) :
    document.decode decoder' = (document.decode decoder).map f := by
  have whole : decoder' = fun located => f <$> decoder located := funext same
  unfold Document.decode
  rw [whole]
  cases document.root with
  | none => rfl
  | some root =>
    dsimp only
    generalize (⟨document.anchored, document.size * 100, _⟩ : Environment) = environment
    change Except.bind ((f <$> decoder ⟨root, .root⟩) environment 0) _ =
      Except.map f (Except.bind (decoder ⟨root, .root⟩ environment 0) _)
    rw [map_run]
    cases decoder ⟨root, .root⟩ environment 0 with
    | error fault => rfl
    | ok result =>
      dsimp only [Except.map, Except.bind]
      cases document.fault with
      | some fault => rfl
      | none =>
        dsimp only
        split <;> rfl

end MessagePress.Proofs.DecodedViews
