import Mathlib.Data.List.Basic
import MessagePress.Proofs.GenerationFaults

/-! Batches told by the outcomes of their messages. A batch is whole or ends at its first fault, and
so does the batch of a stream, which also tells the place; asked for one by one, messages come to the
end whatever fails. The log of a stream holds the messages up to the first fault, or none. -/

namespace MessagePress.Proofs.BatchOutcomes
open Template Delivery
open GenerationFaults (runBatch_batch)
open Text.Utf8 (encode)

section
variable {σ ε α : Type} {outcomes : ℕ → Except ε α} {count : ℕ} {messages others : List α}
  {fault : ε}

/-- The outcome of every message, by its number. -/
def outcomeAt (generator : Generator σ ε α) : σ → ℕ → Except ε α
  | state, 0 => (generator state).1
  | state, index + 1 => outcomeAt generator (generator state).2 index

/-- Any outcomes at all are those of some generator. -/
def scripted : Generator (ℕ → Except ε α) ε α := fun outcomes =>
  (outcomes 0, fun index => outcomes (index + 1))

theorem outcomeAt_scripted (outcomes : ℕ → Except ε α) : outcomeAt scripted outcomes = outcomes := by
  funext index
  induction index generalizing outcomes with
  | zero => rfl
  | succ index ih => exact ih _

/-- The first outcomes are these messages. -/
def Starts (outcomes : ℕ → Except ε α) (messages : List α) : Prop :=
  ∀ index message, messages[index]? = some message → outcomes index = .ok message

/-- So many outcomes are all messages. -/
structure Whole (outcomes : ℕ → Except ε α) (count : ℕ) (messages : List α) : Prop where
  starts : Starts outcomes messages
  length : messages.length = count

/-- Of so many outcomes the first fault, behind these messages. -/
structure Broken (outcomes : ℕ → Except ε α) (count : ℕ) (messages : List α) (fault : ε) : Prop where
  starts : Starts outcomes messages
  early : messages.length < count
  fault : outcomes messages.length = .error fault

/-- How a run of so many outcomes ends. A fault is told with its place. -/
inductive Ends (outcomes : ℕ → Except ε α) (count : ℕ) : BatchRun ε α → Prop
  | whole {messages : List α} (whole : Whole outcomes count messages) :
      Ends outcomes count ⟨.ok messages, messages⟩
  | broken {messages : List α} {fault : ε} (broken : Broken outcomes count messages fault) :
      Ends outcomes count ⟨.error (messages.length, fault), messages⟩

theorem starts_nil : Starts outcomes [] := by
  rintro index message ⟨⟩

theorem starts_cons {message : α} (first : outcomes 0 = .ok message)
    (later : Starts (fun index => outcomes (index + 1)) messages) :
    Starts outcomes (message :: messages) := by
  rintro (_ | index) found same
  · cases same
    exact first
  · exact later index found same

theorem Starts.unique (starts : Starts outcomes messages) (starts' : Starts outcomes others)
    (length : messages.length = others.length) : messages = others := by
  refine List.ext_getElem length fun index here there => ?_
  have one := starts index _ (List.getElem?_eq_getElem here)
  have other := starts' index _ (List.getElem?_eq_getElem there)
  rw [one] at other
  exact Except.ok.inj other

theorem Broken.last (broken : Broken outcomes count messages fault) (starts : Starts outcomes others) :
    others.length ≤ messages.length := by
  by_contra longer
  have beyond := starts messages.length _ (List.getElem?_eq_getElem (Nat.lt_of_not_le longer))
  rw [broken.fault] at beyond
  cases beyond

theorem Ends.unique {run run' : BatchRun ε α} (ends : Ends outcomes count run)
    (ends' : Ends outcomes count run') : run = run' := by
  cases ends with
  | whole whole =>
    -- A whole run and a broken one differ in length: no messages reach beyond the first fault.
    cases ends' with
    | whole whole' =>
      rw [whole.starts.unique whole'.starts (whole.length.trans whole'.length.symm)]
    | broken broken' =>
      have least := broken'.last whole.starts
      rw [whole.length] at least
      exact absurd broken'.early (Nat.not_lt.mpr least)
  | broken broken =>
    cases ends' with
    | whole whole' =>
      have least := broken.last whole'.starts
      rw [whole'.length] at least
      exact absurd broken.early (Nat.not_lt.mpr least)
    | broken broken' =>
      obtain rfl := broken.starts.unique broken'.starts
        (Nat.le_antisymm (broken'.last broken.starts) (broken.last broken'.starts))
      rw [Except.error.inj (broken.fault.symm.trans broken'.fault)]

/-- Messages are given just when all outcomes are messages, whatever would be told of a fault. -/
theorem Ends.ok_iff {ε' : Type} {run : BatchRun ε α} (ends : Ends outcomes count run)
    (tell : ℕ × ε → ε') : run.outcome.mapError tell = .ok messages ↔ Whole outcomes count messages := by
  constructor
  · intro given
    cases ends with
    | whole whole => cases given; exact whole
    | broken broken => cases given
  · intro whole
    rw [ends.unique (.whole whole)]
    rfl

theorem Ends.error_iff {ε' : Type} {run : BatchRun ε α} (ends : Ends outcomes count run)
    {tell : ℕ × ε → ε'} {told : ε'} : run.outcome.mapError tell = .error told ↔
      ∃ messages cause, Broken outcomes count messages cause ∧ told = tell (messages.length, cause) := by
  constructor
  · intro given
    cases ends with
    | whole whole => cases given
    | broken broken => cases given; exact ⟨_, _, broken, rfl⟩
  · rintro ⟨messages, cause, broken, rfl⟩
    rw [ends.unique (.broken broken)]
    rfl

end

section
variable {σ ε α : Type} {generator : Generator σ ε α} {state : σ} {count : ℕ}

theorem runBatch_outcome (index : ℕ) : ∃ run, Ends (outcomeAt generator state) count run ∧
    (runBatch generator index count state).1 =
      ⟨run.outcome.mapError fun (place, fault) => (index + place, fault), run.generated⟩ := by
  induction count generalizing index state with
  | zero => exact ⟨_, .whole ⟨starts_nil, rfl⟩, rfl⟩
  | succ count ih =>
    rw [runBatch]
    rcases given : generator state with ⟨fault | message, next⟩
    · have first : outcomeAt generator state 0 = .error fault := by rw [outcomeAt, given]
      exact ⟨_, .broken ⟨starts_nil, Nat.zero_lt_succ count, first⟩, rfl⟩
    · have first : outcomeAt generator state 0 = .ok message := by rw [outcomeAt, given]
      have later : (fun index => outcomeAt generator state (index + 1)) = outcomeAt generator next := by
        funext index
        rw [outcomeAt, given]
      -- The rest of the run has its own places, one less than here.
      obtain ⟨run, ends, same⟩ := @ih next (index + 1)
      dsimp only
      rw [same]
      cases ends with
      | @whole messages whole =>
        exact ⟨_, .whole ⟨starts_cons first (later ▸ whole.starts), congrArg (· + 1) whole.length⟩, rfl⟩
      | @broken messages fault broken =>
        have whole : Broken (outcomeAt generator state) (count + 1) (message :: messages) fault := by
          refine ⟨starts_cons first (later ▸ broken.starts), Nat.succ_lt_succ broken.early, ?_⟩
          rw [List.length_cons]
          exact (congrFun later messages.length).trans broken.fault
        refine ⟨_, .broken whole, ?_⟩
        simp only [Except.mapError, Except.map, List.length_cons, Nat.add_assoc, Nat.add_comm 1]

theorem runBatch_ends : Ends (outcomeAt generator state) count (runBatch generator 0 count state).1 := by
  obtain ⟨run, ends, same⟩ := @runBatch_outcome σ ε α generator state count 0
  rw [same]
  cases ends with
  | whole whole => exact .whole whole
  | broken broken =>
    simp only [Except.mapError, Nat.zero_add]
    exact .broken broken

theorem runBatch_iff {run : BatchRun ε α} : (runBatch generator 0 count state).1 = run ↔
    Ends (outcomeAt generator state) count run := by
  constructor
  · rintro rfl
    exact runBatch_ends
  · exact runBatch_ends.unique

theorem batch_ok_iff {messages : List α} : (generator.batch count state).1 = .ok messages ↔
    Whole (outcomeAt generator state) count messages := by
  rw [← runBatch_batch generator 0]
  exact runBatch_ends.ok_iff _

theorem batch_error_iff {fault : ε} : (generator.batch count state).1 = .error fault ↔
    ∃ messages, Broken (outcomeAt generator state) count messages fault := by
  rw [← runBatch_batch generator 0, runBatch_ends.error_iff]
  constructor
  · rintro ⟨messages, cause, broken, rfl⟩
    exact ⟨messages, broken⟩
  · rintro ⟨messages, broken⟩
    exact ⟨messages, fault, broken, rfl⟩

end

section
variable {σ ε α : Type} {generator : Generator σ ε α} {state : σ} {count : ℕ}

/-- What asking for messages to the end gives: before each, how many are to come, and its outcome. -/
inductive Drives (generator : Generator σ ε α) :
    Generator.Pending σ → List (ℕ × Except ε α) → Prop
  | done {pending : Generator.Pending σ} (none : generator.next pending = none) :
      Drives generator pending []
  | step {pending later : Generator.Pending σ} {outcome : Except ε α}
      {items : List (ℕ × Except ε α)} (next : generator.next pending = some (outcome, later))
      (rest : Drives generator later items) :
      Drives generator pending ((pending.remaining, outcome) :: items)

/-- As many items as were to come, whatever their outcomes. -/
def items (generator : Generator σ ε α) (state : σ) (count : ℕ) : List (ℕ × Except ε α) :=
  (List.range count).map fun index => (count - index, outcomeAt generator state index)

theorem items_succ : items generator state (count + 1) =
    (count + 1, (generator state).1) :: items generator (generator state).2 count := by
  rw [items, List.range_succ_eq_map, List.map_cons, List.map_map, items]
  congr 1
  refine List.map_congr_left fun index _ => ?_
  rw [Function.comp_apply, outcomeAt, Nat.succ_sub_succ]

theorem drives_items : Drives generator ⟨count, state⟩ (items generator state count) := by
  induction count generalizing state with
  | zero => exact .done rfl
  | succ count ih =>
    have next : generator.next ⟨count + 1, state⟩ =
        some ((generator state).1, ⟨count, (generator state).2⟩) := rfl
    rw [items_succ]
    exact .step next ih

theorem Drives.unique {pending : Generator.Pending σ} {found others : List (ℕ × Except ε α)}
    (drives : Drives generator pending found) (drives' : Drives generator pending others) :
    found = others := by
  induction drives generalizing others with
  | done none =>
    cases drives' with
    | done => rfl
    | step next => rw [none] at next; cases next
  | step next rest ih =>
    cases drives' with
    | done none => rw [none] at next; cases next
    | step next' rest' =>
      cases next.symm.trans next'
      rw [ih rest']

theorem outcomes_items : generator.outcomes count state =
    (items generator state count).map fun item => (item.2, item.1 - 1) := by
  induction count generalizing state with
  | zero => rfl
  | succ count ih =>
    rw [Generator.outcomes, items_succ, List.map_cons, ← ih]
    rfl

theorem runBatch_left (index : ℕ) :
    (runBatch generator index count state).2 = (generator.batch count state).2 := by
  induction count generalizing index state with
  | zero => rfl
  | succ count ih =>
    rw [runBatch, Generator.batch]
    rcases generator state with ⟨fault | message, next⟩
    · rfl
    · exact ih (index + 1)

end

/-- The bytes of the message that a line of the log tells. -/
def told (name : String) (line : Log.Line) : Option (List UInt8) :=
  if line.level = .debug then
    (encode line.text.toList).dropPrefix?
      (encode ("Generated message for '" ++ name ++ "': ").toList)
  else none

section
variable {stream : Stream} {supply : Supply} {verbose : Bool} {messages : List String}
  {name message : String}

theorem told_generated : told name (generatedLine name message) = some (encode message.toList) := by
  rw [told, generatedLine, if_pos rfl, String.toList_append, encode, List.flatMap_append]
  exact List.dropPrefix?_eq_some_iff.mpr ⟨_, rfl, beq_self_eq_true _⟩

theorem told_malformed (text : String) (fault : CallFault) :
    told name (malformedCallLine text fault) = none := by
  rw [told, malformedCallLine, if_pos rfl]
  simp only [String.toList_append, String.append_assoc]
  rfl

theorem told_evaluation (substitution : Json.Members) :
    ∀ line ∈ evaluationLog substitution, told name line = none := by
  intro line listed
  obtain ⟨⟨key, value⟩, -, logged⟩ := List.mem_flatMap.mp listed
  cases value with
  | text content =>
    obtain ⟨fault, -, rfl⟩ := List.mem_map.mp logged
    exact told_malformed content fault
  | _ => cases logged

theorem produce_told : (stream.produce verbose supply).1.log.filterMap (told stream.name) =
    if verbose then
      (runBatch stream.template.generate 0 stream.batchSize supply).1.generated.map fun message =>
        encode message.toList
    else [] := by
  have silent : (evaluationLog stream.template.substitution).filterMap (told stream.name) = [] :=
    List.filterMap_eq_nil_iff.mpr (told_evaluation _)
  simp only [Stream.produce, List.filterMap_append, List.filterMap_flatMap, silent, List.nil_append]
  rcases runBatch stream.template.generate 0 stream.batchSize supply with ⟨⟨outcome, generated⟩, left⟩
  have failed : (if outcome.toOption.isNone then evaluationLog stream.template.substitution
      else []).filterMap (told stream.name) = [] := by
    split
    · exact silent
    · rfl
  rw [failed, List.append_nil]
  cases verbose with
  | false => exact List.flatMap_eq_nil_iff.mpr fun message listed => rfl
  | true =>
    simp only [if_true, List.filterMap_cons, told_generated, List.filterMap_nil]
    exact List.map_eq_flatMap.symm

theorem produce_untold :
    ((stream.produce verbose supply).1.log.filter fun line => (told stream.name line).isNone) =
      (stream.produce false supply).1.log := by
  have silent : ((evaluationLog stream.template.substitution).filter fun line =>
      (told stream.name line).isNone) = evaluationLog stream.template.substitution :=
    List.filter_eq_self.mpr fun line logged =>
      Option.isNone_iff_eq_none.mpr (told_evaluation _ line logged)
  simp only [Stream.produce, List.filter_append, List.filter_flatMap, silent]
  congr 1
  · refine List.flatMap_congr fun message listed => ?_
    cases verbose with
    | false => rfl
    | true => simp only [if_true, List.filter_cons, told_generated]; rfl
  · split
    · exact silent
    · rfl

end

section
variable {σ ε α : Type}

/-- The ways to ask a generator for so many messages go by the outcomes of the messages. -/
structure Agrees (generator : Generator σ ε α) (state : σ) (count : ℕ) : Prop where
  whole : ∀ messages, (generator.batch count state).1 = .ok messages ↔
    Whole (outcomeAt generator state) count messages
  broken : ∀ fault, (generator.batch count state).1 = .error fault ↔
    ∃ messages, Broken (outcomeAt generator state) count messages fault
  numbered : ∀ run, (runBatch generator 0 count state).1 = run ↔
    Ends (outcomeAt generator state) count run
  left : (runBatch generator 0 count state).2 = (generator.batch count state).2
  driven : ∀ found, Drives generator ⟨count, state⟩ found ↔ found = items generator state count
  recorded : generator.outcomes count state =
    (items generator state count).map fun item => (item.2, item.1 - 1)

theorem agrees (generator : Generator σ ε α) (state : σ) (count : ℕ) :
    Agrees generator state count where
  whole := fun _ => batch_ok_iff
  broken := fun _ => batch_error_iff
  numbered := fun _ => runBatch_iff
  left := runBatch_left 0
  driven := by
    intro found
    constructor
    · intro drives
      exact drives.unique drives_items
    · rintro rfl
      exact drives_items
  recorded := outcomes_items

end

/-- The batch of a stream goes by the outcomes of its messages, verbose or not. -/
structure Tells (stream : Stream) (supply : Supply) (verbose : Bool) : Prop where
  whole : ∀ messages, (stream.produce verbose supply).1.outcome = .ok messages ↔
    Whole (outcomeAt stream.template.generate supply) stream.batchSize messages
  broken : ∀ fault, (stream.produce verbose supply).1.outcome = .error fault ↔
    ∃ messages cause,
      Broken (outcomeAt stream.template.generate supply) stream.batchSize messages cause ∧
      fault = .generation stream.name messages.length cause
  left : (stream.produce verbose supply).2 =
    (stream.template.generate.batch stream.batchSize supply).2
  logged : ∀ run, Ends (outcomeAt stream.template.generate supply) stream.batchSize run →
    (stream.produce verbose supply).1.log.filterMap (told stream.name) =
      if verbose then run.generated.map fun message => encode message.toList else []
  others : ((stream.produce verbose supply).1.log.filter fun line => (told stream.name line).isNone) =
    (stream.produce false supply).1.log

theorem tells (stream : Stream) (supply : Supply) (verbose : Bool) :
    Tells stream supply verbose where
  whole := fun _ => runBatch_ends.ok_iff _
  broken := fun _ => runBatch_ends.error_iff
  left := runBatch_left 0
  logged := by
    intro run ends
    rw [produce_told, runBatch_iff.mpr ends]
  others := produce_untold

/-- For every generator, and so for messages and faults in any order: a batch is whole where all
outcomes are messages, and otherwise is the first fault. A drive goes to the end. Streams agree
with the batch of their template, and tell the messages before the first fault if verbose. -/
theorem batches_agree :
    (∀ {ε α : Type} (outcomes : ℕ → Except ε α), outcomeAt scripted outcomes = outcomes) ∧
    (∀ {σ ε α : Type} (generator : Generator σ ε α) (state : σ) (count : ℕ),
      Agrees generator state count) ∧
    ∀ (stream : Stream) (supply : Supply) (verbose : Bool), Tells stream supply verbose :=
  ⟨outcomeAt_scripted, agrees, tells⟩

/-- Two of four messages fail. The batch ends at the first of them, and the drive goes on. -/
example :
    let outcomes : ℕ → Except String ℕ := fun index =>
      if index % 2 = 0 then .ok index else .error s!"message {index}"
    (runBatch scripted 0 4 outcomes).1.outcome = .error (1, "message 1") ∧
      (runBatch scripted 0 4 outcomes).1.generated = [0] ∧
      items scripted outcomes 4 =
        [(4, .ok 0), (3, .error "message 1"), (2, .ok 2), (1, .error "message 3")] :=
  ⟨rfl, rfl, rfl⟩

end MessagePress.Proofs.BatchOutcomes
