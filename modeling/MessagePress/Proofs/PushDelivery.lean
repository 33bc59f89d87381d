import Mathlib.Data.List.Basic
import MessagePress.Delivery.Push
import MessagePress.Proofs.GenerationFaults

/-! What a push delivers. What a task sends and whether it fails is settled by its own
production and by the sink, so the order of all steps changes only the order of the batches
and which of several failures is told. -/

namespace MessagePress.Proofs.PushDelivery
open Delivery

variable {sink : Sink} {push : Push} {position : Nat} {task : Task}

/-- Why a stream fails with what it has generated, if it does. -/
def failure? (sink : Sink) (name topic : String) (production : Production) : Option StreamFault :=
  match production.outcome with
  | .error fault => some fault
  | .ok messages => (sink.refusal? ⟨topic, messages⟩).map (.sending name topic)

/-- The batch that a stream delivers, unless it fails. -/
def delivered? (sink : Sink) (topic : String) (production : Production) : Option Batch :=
  match production.outcome with
  | .error _ => none
  | .ok messages => if (sink.refusal? ⟨topic, messages⟩).isSome then none else some ⟨topic, messages⟩

def streamFailure? (sink : Sink) (entry : Stream × Production) : Option StreamFault :=
  failure? sink entry.1.name entry.1.topic entry.2

def streamBatch? (sink : Sink) (entry : Stream × Production) : Option Batch :=
  delivered? sink entry.1.topic entry.2

def taskFailure? (sink : Sink) (task : Task) : Option StreamFault :=
  failure? sink task.name task.topic task.production

/-- The streams in the order in which they are joined by the steps of a schedule. -/
def joins (sink : Sink) : List Nat → Push → List Nat
  | [], _ => []
  | position :: rest, push =>
    match push.tasks[position]?.map Task.phase with
    | some (.finished _) => position :: joins sink rest (push.advance sink position)
    | _ => joins sink rest (push.advance sink position)

private theorem joins_finished {rest : List Nat} {result : Except StreamFault Nat}
    (finished : push.tasks[position]?.map Task.phase = some (.finished result)) :
    joins sink (position :: rest) push = position :: joins sink rest (push.advance sink position) := by
  simp only [joins, finished]

private theorem joins_unfinished {rest : List Nat}
    (unfinished : ∀ result, push.tasks[position]?.map Task.phase ≠ some (.finished result)) :
    joins sink (position :: rest) push = joins sink rest (push.advance sink position) := by
  rw [joins]
  split
  next result finished => exact absurd finished (unfinished result)
  next => rfl

private theorem run_cons (sink : Sink) (position : Nat) (rest : List Nat) (push : Push) :
    push.run sink (position :: rest) = (push.advance sink position).run sink rest := rfl

def next (sink : Sink) (task : Task) : Phase :=
  match task.phase with
  | .generating =>
    match task.production.outcome with
    | .ok messages => .sending messages
    | .error fault => .finished (.error fault)
  | .sending messages =>
    match sink.refusal? ⟨task.topic, messages⟩ with
    | some fault => .finished (.error (.sending task.name task.topic fault))
    | none => .finished (.ok messages.length)
  | .finished _ | .joined => .joined

def sent? (sink : Sink) (task : Task) : Option Batch :=
  match task.phase with
  | .sending messages =>
    if (sink.refusal? ⟨task.topic, messages⟩).isSome then none else some ⟨task.topic, messages⟩
  | _ => none

def told? (task : Task) : Option StreamFault :=
  match task.phase with
  | .finished (.error fault) => some fault
  | _ => none

/-- A step touches its own task alone. It adds at most one batch, and keeps a failure that is
known already. -/
theorem advance_found (found : push.tasks[position]? = some task) :
    (push.advance sink position).tasks =
        push.tasks.set position { task with phase := next sink task } ∧
      (push.advance sink position).batches = push.batches ++ (sent? sink task).toList ∧
      (push.advance sink position).fault = (push.fault <|> told? task) := by
  rcases task with ⟨name, topic, production, phase⟩
  simp only [Push.advance, found]
  cases phase with
  | generating => cases outcome : production.outcome <;> simp [Push.advanceTask, next, sent?, told?, outcome]
  | sending messages =>
    cases refusal : sink.refusal? ⟨topic, messages⟩ <;>
      simp [Push.advanceTask, next, sent?, told?, refusal]
  | finished result => cases result <;> simp [Push.advanceTask, next, sent?, told?]
  | joined =>
    obtain ⟨inside, same⟩ := List.getElem?_eq_some_iff.mp found
    have unchanged : push.tasks.set position ⟨name, topic, production, .joined⟩ = push.tasks := by
      rw [← same, List.set_getElem_self]
    simp [Push.advanceTask, next, sent?, told?, unchanged]

theorem advance_missing (missing : push.tasks[position]? = none) :
    push.advance sink position = push := by
  simp only [Push.advance, missing]

def stepped (sink : Sink) (task : Task) : Task := { task with phase := next sink task }

private theorem advance_getElem? (sink : Sink) (push : Push) (position index : Nat) :
    (push.advance sink position).tasks[index]? =
      if position = index then push.tasks[index]?.map (stepped sink) else push.tasks[index]? := by
  cases found : push.tasks[position]? with
  | none =>
    rw [advance_missing found]
    split
    next same => rw [← same, found]; rfl
    next => rfl
  | some task =>
    rw [(advance_found found).1, List.getElem?_set]
    split
    next same =>
      subst same
      rw [if_pos (List.getElem?_eq_some_iff.mp found).1, found]
      rfl
    next => rfl

/-- A task knows no more than what its production and the sink settle. -/
def Sound (sink : Sink) (task : Task) : Prop :=
  match task.phase with
  | .generating | .joined => True
  | .sending messages => task.production.outcome = .ok messages
  | .finished (.ok _) => taskFailure? sink task = none
  | .finished (.error fault) => taskFailure? sink task = some fault

/-- The batch that a task has sent so far. -/
def taken? (sink : Sink) (task : Task) : Option Batch :=
  match task.phase with
  | .finished _ | .joined => delivered? sink task.topic task.production
  | _ => none

private theorem Sound.stepped (sound : Sound sink task) : Sound sink (stepped sink task) := by
  rcases task with ⟨name, topic, production, phase⟩
  cases phase with
  | generating =>
    cases outcome : production.outcome <;>
      simp [Sound, PushDelivery.stepped, next, taskFailure?, failure?, outcome]
  | sending messages =>
    have outcome : production.outcome = .ok messages := sound
    cases refusal : sink.refusal? ⟨topic, messages⟩ <;>
      simp [Sound, PushDelivery.stepped, next, taskFailure?, failure?, outcome, refusal]
  | finished result => simp [Sound, PushDelivery.stepped, next]
  | joined => simp [Sound, PushDelivery.stepped, next]

private theorem Sound.taken (sound : Sound sink task) :
    (taken? sink (PushDelivery.stepped sink task)).toList =
      (taken? sink task).toList ++ (sent? sink task).toList := by
  rcases task with ⟨name, topic, production, phase⟩
  cases phase with
  | generating =>
    cases outcome : production.outcome <;>
      simp [taken?, sent?, PushDelivery.stepped, next, delivered?, outcome]
  | sending messages =>
    have outcome : production.outcome = .ok messages := sound
    cases refusal : sink.refusal? ⟨topic, messages⟩ <;>
      simp [taken?, sent?, PushDelivery.stepped, next, delivered?, outcome, refusal]
  | finished result => simp [taken?, sent?, PushDelivery.stepped, next]
  | joined => simp [taken?, sent?, PushDelivery.stepped, next]

def identity (task : Task) : String × String × Production := (task.name, task.topic, task.production)

/-- After any number of steps the batches are those of the tasks that have sent theirs. -/
structure Kept (sink : Sink) (productions : List (Stream × Production)) (push : Push) : Prop where
  tasks : push.tasks.map identity =
    productions.map fun entry => (entry.1.name, entry.1.topic, entry.2)
  sound : ∀ task ∈ push.tasks, Sound sink task
  batches : push.batches.Perm (push.tasks.filterMap (taken? sink))

private theorem cut_at {tasks : List Task} (changed : Task) (found : tasks[position]? = some task) :
    ∃ before after, tasks = before ++ task :: after ∧
      tasks.set position changed = before ++ changed :: after := by
  obtain ⟨inside, rfl⟩ := List.getElem?_eq_some_iff.mp found
  refine ⟨tasks.take position, tasks.drop (position + 1), ?_, ?_⟩
  · rw [List.getElem_cons_drop, List.take_append_drop]
  · rw [List.set_eq_take_append_cons_drop, if_pos inside]

private theorem filterMap_cut {f : Task → Option Batch} (before after : List Task) (task : Task) :
    (before ++ task :: after).filterMap f =
      before.filterMap f ++ ((f task).toList ++ after.filterMap f) := by
  rw [List.filterMap_append, List.filterMap_cons]
  cases f task <;> rfl

theorem kept_start (sink : Sink) (productions : List (Stream × Production)) :
    Kept sink productions (Push.start productions) where
  tasks := by simp [Push.start, identity]
  sound task member := by
    obtain ⟨entry, -, rfl⟩ := List.mem_map.mp member
    trivial
  batches := by
    have none_taken : (Push.start productions).tasks.filterMap (taken? sink) = [] := by
      simp [Push.start, List.filterMap_map, taken?, Function.comp_def]
    rw [none_taken]
    exact List.Perm.refl []

theorem Kept.advance {productions : List (Stream × Production)} (kept : Kept sink productions push)
    (position : Nat) : Kept sink productions (push.advance sink position) := by
  cases found : push.tasks[position]? with
  | none => rwa [advance_missing found]
  | some task =>
    obtain ⟨tasks, batches, -⟩ := @advance_found sink push position task found
    obtain ⟨before, after, whole, replaced⟩ := cut_at (stepped sink task) found
    have member : task ∈ push.tasks := List.mem_of_getElem? found
    refine ⟨?_, ?_, ?_⟩
    · rw [← kept.tasks, tasks]
      exact (congrArg _ replaced).trans (by rw [whole]; simp [identity, stepped])
    · intro other inside
      rw [tasks] at inside
      rcases List.mem_or_eq_of_mem_set inside with earlier | rfl
      · exact kept.sound other earlier
      · exact (kept.sound task member).stepped
    · have sent := (kept.sound task member).taken
      have replaced : (push.advance sink position).tasks =
          before ++ stepped sink task :: after := tasks.trans replaced
      rw [batches, replaced, filterMap_cut, sent]
      refine (kept.batches.append_right _).trans ?_
      rw [whole, filterMap_cut]
      simp only [List.append_assoc]
      exact (List.perm_append_comm.append_left _).append_left _

theorem Kept.run {productions : List (Stream × Production)} (kept : Kept sink productions push)
    (positions : List Nat) : Kept sink productions (push.run sink positions) := by
  induction positions generalizing push with
  | nil => exact kept
  | cons position rest ih => exact ih (kept.advance position)

/-- How many steps a phase is away from being joined. -/
def remaining : Phase → Nat
  | .generating => 3
  | .sending _ => 2
  | .finished _ => 1
  | .joined => 0

/-- How many steps the stream at a position still has to take. -/
def left (push : Push) (position : Nat) : Nat :=
  (push.tasks[position]?.map fun task => remaining task.phase).getD 0

private theorem remaining_next (sink : Sink) (task : Task) :
    remaining (next sink task) ≤ remaining task.phase - 1 := by
  unfold next
  split
  next => split <;> simp [remaining, *]
  next => split <;> simp [remaining, *]
  next => simp [remaining]
  next => simp [remaining]

private theorem left_advance (sink : Sink) (push : Push) (position index : Nat) :
    left (push.advance sink position) index ≤ left push index - [position].count index := by
  rw [left, left, advance_getElem?, List.count_singleton]
  by_cases same : position = index
  · cases found : push.tasks[index]? with
    | none => simp
    | some task => simpa [same, stepped] using remaining_next sink task
  · simp [same]

/-- Every step of a stream brings it nearer to being joined, whatever the others do. -/
theorem left_run (sink : Sink) (positions : List Nat) (push : Push) (index : Nat) :
    left (push.run sink positions) index ≤ left push index - positions.count index := by
  induction positions generalizing push with
  | nil => exact Nat.le_refl _
  | cons position rest ih =>
    have step := left_advance sink push position index
    have later := ih (push.advance sink position)
    have counted : (position :: rest).count index = [position].count index + rest.count index := by
      simp [List.count_cons, Nat.add_comm]
    simp only [Push.run, List.foldl_cons] at later ⊢
    omega

private theorem remaining_eq_zero {phase : Phase} : remaining phase = 0 ↔ phase = .joined := by
  cases phase <;> simp [remaining]

private theorem left_eq_zero {index : Nat} :
    left push index = 0 ↔ ∀ task ∈ push.tasks[index]?, task.phase = .joined := by
  cases found : push.tasks[index]? <;> simp [left, found, remaining_eq_zero]

private theorem allJoined_iff : push.allJoined = true ↔ ∀ task ∈ push.tasks, task.phase = .joined := by
  simp only [Push.allJoined, List.all_eq_true]
  refine forall₂_congr fun task _ => ?_
  rcases task with ⟨name, topic, production, phase⟩
  cases phase <;> simp

private theorem count_inTurn {count index : Nat} (inside : index < count) :
    3 ≤ (Push.inTurn count).count index := by
  have found : [index, index, index].Sublist (Push.inTurn count) := by
    obtain ⟨before, after, turns⟩ := List.append_of_mem (List.mem_range.mpr inside)
    rw [Push.inTurn, turns, List.flatMap_append, List.flatMap_cons]
    exact (List.sublist_append_left _ _).trans (List.sublist_append_right _ _)
  have counted := found.count_le index
  simpa using counted

theorem allJoined_inTurn (sink : Sink) (order : List Nat) (productions : List (Stream × Production)) :
    ((Push.start productions).run sink (order ++ Push.inTurn productions.length)).allJoined = true := by
  refine allJoined_iff.mpr fun task member => ?_
  obtain ⟨index, found⟩ := List.mem_iff_getElem?.mp member
  refine left_eq_zero.mp ?_ task found
  have progress := left_run sink (order ++ Push.inTurn productions.length)
    (Push.start productions) index
  have begun : left (Push.start productions) index ≤ 3 ∧
      (productions.length ≤ index → left (Push.start productions) index = 0) := by
    cases entry : productions[index]? with
    | none => simp [left, Push.start, entry]
    | some entry' =>
      have inside := (List.getElem?_eq_some_iff.mp entry).1
      simp [left, Push.start, entry, remaining]
      omega
  have turn := @count_inTurn productions.length index
  rw [List.count_append] at progress
  omega

/-- The failure that the stream at a position comes to, whatever has been done of it. -/
def failureAt? (sink : Sink) (push : Push) (position : Nat) : Option StreamFault :=
  push.tasks[position]?.bind (taskFailure? sink)

private theorem failureAt?_advance (sink : Sink) (push : Push) (position index : Nat) :
    failureAt? sink (push.advance sink position) index = failureAt? sink push index := by
  rw [failureAt?, failureAt?, advance_getElem?]
  split
  next => cases push.tasks[index]? <;> rfl
  next => rfl

private theorem told_of_finished {result : Except StreamFault Nat} (sound : Sound sink task)
    (finished : task.phase = .finished result) : told? task = taskFailure? sink task := by
  cases result with
  | ok count => simpa [Sound, told?, finished, eq_comm] using sound
  | error fault => simpa [Sound, told?, finished, eq_comm] using sound

private theorem told_of_unfinished (unfinished : ∀ result, task.phase ≠ .finished result) :
    told? task = none := by
  rcases task with ⟨name, topic, production, phase⟩
  cases phase with
  | finished result => exact absurd rfl (unfinished result)
  | _ => rfl

/-- A push fails with the failure of the first failing stream that is joined. -/
theorem fault_run {productions : List (Stream × Production)} (kept : Kept sink productions push)
    (positions : List Nat) :
    (push.run sink positions).fault =
      (push.fault <|> (joins sink positions push).findSome? (failureAt? sink push)) := by
  induction positions generalizing push with
  | nil => simp [Push.run, joins]
  | cons position rest ih =>
    have later := ih (kept.advance position)
    rw [show failureAt? sink (push.advance sink position) = failureAt? sink push from
      funext (failureAt?_advance sink push position)] at later
    rw [run_cons, later]
    cases found : push.tasks[position]? with
    | none => rw [joins_unfinished (by simp [found]), advance_missing found]
    | some task =>
      obtain ⟨-, -, told⟩ := @advance_found sink push position task found
      rw [told]
      cases phase : task.phase with
      | finished result =>
        have sound := kept.sound task (List.mem_of_getElem? found)
        have failure : failureAt? sink push position = taskFailure? sink task := by
          simp [failureAt?, found]
        have finished : push.tasks[position]?.map Task.phase = some (.finished result) := by
          simp [found, phase]
        rw [joins_finished finished, told_of_finished sound phase,
          List.findSome?_cons, failure]
        cases push.fault <;> cases taskFailure? sink task <;> rfl
      | _ =>
        rw [joins_unfinished (by simp [found, phase]), told_of_unfinished (by simp [phase])]
        cases push.fault <;> rfl

def Joined (push : Push) (position : Nat) : Prop :=
  push.tasks[position]?.map Task.phase = some .joined

private theorem joined_advance (sink : Sink) (push : Push) (position index : Nat) :
    Joined (push.advance sink position) index ↔ Joined push index ∨
      position = index ∧ ∃ result, push.tasks[position]?.map Task.phase = some (.finished result) := by
  rw [Joined, Joined, advance_getElem?]
  by_cases same : position = index
  · subst same
    cases found : push.tasks[position]? with
    | none => simp
    | some task =>
      rcases task with ⟨name, topic, production, phase⟩
      cases phase with
      | generating => cases outcome : production.outcome <;> simp [stepped, next, outcome]
      | sending messages =>
        cases refusal : sink.refusal? ⟨topic, messages⟩ <;> simp [stepped, next, refusal]
      | finished result => simp [stepped, next]
      | joined => simp [stepped, next]
  · simp [same]

private theorem joined_run (sink : Sink) (positions : List Nat) {index : Nat}
    (joined : Joined push index) : Joined (push.run sink positions) index := by
  induction positions generalizing push with
  | nil => exact joined
  | cons position rest ih =>
    exact ih ((joined_advance sink push position index).mpr (Or.inl joined))

theorem mem_joins (sink : Sink) (positions : List Nat) (push : Push) :
    (joins sink positions push).Nodup ∧ ∀ index, index ∈ joins sink positions push ↔
      ¬Joined push index ∧ Joined (push.run sink positions) index := by
  induction positions generalizing push with
  | nil => simp [joins, Push.run]
  | cons position rest ih =>
    obtain ⟨nodup, member⟩ := ih (push.advance sink position)
    have step := joined_advance sink push position
    rw [run_cons]
    by_cases finished : ∃ result, push.tasks[position]?.map Task.phase = some (.finished result)
    · obtain ⟨result, phase⟩ := finished
      have fresh : ¬Joined push position := by simp [Joined, phase]
      have joined : Joined (push.advance sink position) position :=
        (step position).mpr (Or.inr ⟨rfl, result, phase⟩)
      rw [joins_finished phase]
      refine ⟨List.nodup_cons.mpr ⟨fun again => ((member position).mp again).1 joined, nodup⟩, ?_⟩
      intro index
      rw [List.mem_cons, member]
      by_cases same : index = position
      · subst same
        simp [fresh, joined_run sink rest joined]
      · have other : Joined (push.advance sink position) index ↔ Joined push index := by
          rw [step]
          simp [Ne.symm same]
        simp [same, other]
    · rw [joins_unfinished (by simpa using finished)]
      refine ⟨nodup, fun index => ?_⟩
      have other : Joined (push.advance sink position) index ↔ Joined push index := by
        rw [step, or_iff_left fun both => finished both.2]
      rw [member, other]

/-- A batch that is generated to its end has as many messages as asked for, and they are the
outcomes of the generator in order. -/
theorem runBatch_ok {σ ε α : Type} {generator : Generator σ ε α} {index count : Nat} {state : σ}
    {messages : List α} (generated : (runBatch generator index count state).1.outcome = .ok messages) :
    messages.length = count ∧
      (generator.outcomes count state).map Prod.fst = messages.map .ok := by
  induction count generalizing index state messages with
  | zero =>
    cases generated
    exact ⟨rfl, rfl⟩
  | succ count ih =>
    rw [runBatch] at generated
    rw [Generator.outcomes]
    rcases step : generator state with ⟨fault | message, later⟩
    · rw [step] at generated
      cases generated
    · simp only [step] at generated ⊢
      cases rest : (runBatch generator (index + 1) count later).1.outcome with
      | error fault =>
        rw [rest] at generated
        cases generated
      | ok following =>
        rw [rest] at generated
        cases generated
        obtain ⟨length, outcomes⟩ := ih rest
        exact ⟨congrArg (· + 1) length, by simp [outcomes]⟩

/-- What a push comes to whose streams are joined in the given order. -/
structure Settled (sink : Sink) (productions : List (Stream × Production)) (order : List Nat)
    (push : Push) : Prop where
  /-- Every stream is waited for. -/
  waited : push.allJoined = true
  once : order.Perm (List.range productions.length)
  /-- The sink has one batch of every stream that does not fail, and no other. -/
  batches : push.batches.Perm (productions.filterMap (streamBatch? sink))
  nothing : ∀ entry ∈ productions, streamBatch? sink entry = none ↔ streamFailure? sink entry ≠ none
  /-- The failure told is that of the failing stream joined first. -/
  first : push.fault = order.findSome? fun index => productions[index]?.bind (streamFailure? sink)
  success : push.fault = none ↔ ∀ entry ∈ productions, streamFailure? sink entry = none
  only : ∀ before entry after fault, productions = before ++ entry :: after →
    streamFailure? sink entry = some fault →
    (∀ other ∈ before ++ after, streamFailure? sink other = none) → push.fault = some fault
  /-- A batch that its stream generated has the number of messages that the stream asks for,
  in the order in which they were generated. -/
  generated : ∀ entry ∈ productions, ∀ verbose supply messages,
    entry.2 = (entry.1.produce verbose supply).1 → entry.2.outcome = .ok messages →
    messages.length = entry.1.batchSize ∧
      (Generator.outcomes entry.1.template.generate entry.1.batchSize supply).map Prod.fst =
        messages.map .ok

private theorem produce_ok {stream : Stream} {verbose : Bool} {supply : Template.Supply}
    {messages : List String} (generated : (stream.produce verbose supply).1.outcome = .ok messages) :
    messages.length = stream.batchSize ∧
      (Generator.outcomes stream.template.generate stream.batchSize supply).map Prod.fst =
        messages.map .ok := by
  have outcome : (runBatch stream.template.generate 0 stream.batchSize supply).1.outcome =
      .ok messages := by
    cases run : (runBatch stream.template.generate 0 stream.batchSize supply).1.outcome with
    | ok others =>
      simp only [Stream.produce, run, Except.mapError] at generated
      exact congrArg Except.ok (Except.ok.inj generated)
    | error fault =>
      simp only [Stream.produce, run, Except.mapError] at generated
      cases generated
  exact runBatch_ok outcome

private theorem start_getElem? (productions : List (Stream × Production)) (index : Nat) :
    (Push.start productions).tasks[index]? = productions[index]?.map fun entry =>
      ⟨entry.1.name, entry.1.topic, entry.2, .generating⟩ := by
  simp [Push.start]

private theorem filterMap_streams {productions : List (Stream × Production)}
    (kept : Kept sink productions push) (joined : ∀ task ∈ push.tasks, task.phase = .joined) :
    push.tasks.filterMap (taken? sink) = productions.filterMap (streamBatch? sink) := by
  have taken : push.tasks.filterMap (taken? sink) =
      (push.tasks.map identity).filterMap fun entry => delivered? sink entry.2.1 entry.2.2 := by
    rw [List.filterMap_map]
    refine List.filterMap_congr fun task member => ?_
    simp [taken?, joined task member, identity]
  rw [taken, kept.tasks, List.filterMap_map]
  rfl

theorem mem_outcomes {σ ε α : Type} {generator : Generator σ ε α} {count : Nat} {state : σ}
    {outcome : Except ε α} (member : outcome ∈ (generator.outcomes count state).map Prod.fst) :
    ∃ reached, (generator reached).1 = outcome := by
  induction count generalizing state with
  | zero => cases member
  | succ count ih =>
    rw [Generator.outcomes, List.map_cons] at member
    rcases List.mem_cons.mp member with rfl | later
    · exact ⟨state, rfl⟩
    · exact ih later

theorem produce_rendered {stream : Stream} {verbose : Bool} {supply : Template.Supply}
    {messages : List String} (produced : (stream.produce verbose supply).1.outcome = .ok messages) :
    messages.length = stream.batchSize ∧ ∀ message ∈ messages, ∃ clock source values,
      (Template.evaluate clock stream.template.substitution source).1 = .ok values ∧
        Template.render stream.template.body values = .ok message := by
  obtain ⟨length, outcomes⟩ := produce_ok produced
  refine ⟨length, fun message member => ?_⟩
  have listed : Except.ok message ∈ (Generator.outcomes stream.template.generate stream.batchSize
      supply).map Prod.fst := by
    rw [outcomes]
    exact List.mem_map_of_mem member
  obtain ⟨reached, generated⟩ := mem_outcomes listed
  obtain ⟨values, evaluated, rendered⟩ := GenerationFaults.generate_ok generated
  exact ⟨reached.clocks 0, reached.source, values, evaluated, rendered⟩

/-- Every stream generates its own batch, from what those before it have left. -/
theorem produceAll_produced (verbose : Bool) (streams : List Stream) (supply : Template.Supply) :
    (produceAll verbose streams supply).1.map Prod.fst = streams ∧
      ∀ entry ∈ (produceAll verbose streams supply).1,
        ∃ reached, entry.2 = (entry.1.produce verbose reached).1 := by
  induction streams generalizing supply with
  | nil => exact ⟨rfl, fun entry member => nomatch member⟩
  | cons stream rest ih =>
    obtain ⟨same, produced⟩ := ih (stream.produce verbose supply).2
    constructor
    · exact congrArg (stream :: ·) same
    · intro entry member
      rcases List.mem_cons.mp member with rfl | later
      · exact ⟨supply, rfl⟩
      · exact produced entry later

theorem push_eq_run (sink : Sink) (verbose : Bool) (streams : List Stream) (order : List Nat)
    (supply : Template.Supply) :
    let productions := (produceAll verbose streams supply).1
    (Delivery.push sink verbose streams order supply).1 =
      (Push.start productions).run sink (order ++ Push.inTurn productions.length) := by
  have length := congrArg List.length (produceAll_produced verbose streams supply).1
  rw [List.length_map] at length
  simp only [Delivery.push, length]

/-- Whatever the order, the sink has one batch of every stream that does not fail. -/
theorem push_batches (sink : Sink) (verbose : Bool) (streams : List Stream) (order : List Nat)
    (supply : Template.Supply) :
    (Delivery.push sink verbose streams order supply).1.batches.Perm
      ((produceAll verbose streams supply).1.filterMap (streamBatch? sink)) := by
  rw [push_eq_run]
  generalize (produceAll verbose streams supply).1 = productions
  have kept := (kept_start sink productions).run (order ++ Push.inTurn productions.length)
  have joined := allJoined_iff.mp (allJoined_inTurn sink order productions)
  rw [← filterMap_streams kept joined]
  exact kept.batches

theorem push_fault (sink : Sink) (verbose : Bool) (streams : List Stream) (order : List Nat)
    (supply : Template.Supply) :
    let productions := (produceAll verbose streams supply).1
    let fault := (Delivery.push sink verbose streams order supply).1.fault
    (∀ failure, fault = some failure → ∃ entry ∈ productions, streamFailure? sink entry = some failure) ∧
      (fault = none → ∀ entry ∈ productions, streamFailure? sink entry = none) := by
  intro productions fault
  have told : fault = (joins sink (order ++ Push.inTurn productions.length)
      (Push.start productions)).findSome? (failureAt? sink (Push.start productions)) := by
    have run := fault_run (kept_start sink productions) (order ++ Push.inTurn productions.length)
    rw [← push_eq_run] at run
    exact run
  have failures (index : Nat) : failureAt? sink (Push.start productions) index =
      productions[index]?.bind (streamFailure? sink) := by
    rw [failureAt?, start_getElem?]
    cases productions[index]? <;> rfl
  rw [told]
  constructor
  · intro failure found
    obtain ⟨index, -, failed⟩ := List.exists_of_findSome?_eq_some found
    rw [failures] at failed
    obtain ⟨entry, placed, failed⟩ := Option.bind_eq_some_iff.mp failed
    exact ⟨entry, List.mem_of_getElem? placed, failed⟩
  · intro silent entry member
    obtain ⟨index, placed⟩ := List.mem_iff_getElem?.mp member
    have fresh : ¬Joined (Push.start productions) index := by
      simp [Joined, start_getElem?, placed]
    have joined : Joined ((Push.start productions).run sink
        (order ++ Push.inTurn productions.length)) index := by
      have kept := (kept_start sink productions).run (order ++ Push.inTurn productions.length)
      have length := congrArg List.length kept.tasks
      rw [List.length_map, List.length_map] at length
      have inside := (List.getElem?_eq_some_iff.mp placed).1
      rw [← length] at inside
      rw [Joined, List.getElem?_eq_getElem inside]
      exact congrArg some
        (allJoined_iff.mp (allJoined_inTurn sink order productions) _ (List.getElem_mem inside))
    have within := ((mem_joins sink _ (Push.start productions)).2 index).mpr ⟨fresh, joined⟩
    have passed := List.findSome?_eq_none_iff.mp silent index within
    rw [failures, placed] at passed
    exact passed

/-- Whatever the streams of a push generate, whichever batches the sink refuses, and in
whatever order the streams take their steps, the push waits for all of them, delivers one
batch of each that does not fail, and fails with the first failure that it is told of. -/
theorem push_settles (sink : Sink) (productions : List (Stream × Production)) (order : List Nat) :
    Settled sink productions
      (joins sink (order ++ Push.inTurn productions.length) (Push.start productions))
      ((Push.start productions).run sink (order ++ Push.inTurn productions.length)) := by
  have kept := (kept_start sink productions).run (order ++ Push.inTurn productions.length)
  have waited := allJoined_inTurn sink order productions
  have fault := fault_run (kept_start sink productions) (order ++ Push.inTurn productions.length)
  obtain ⟨nodup, member⟩ :=
    mem_joins sink (order ++ Push.inTurn productions.length) (Push.start productions)
  generalize joins sink (order ++ Push.inTurn productions.length) (Push.start productions) =
    joining at *
  generalize (Push.start productions).run sink (order ++ Push.inTurn productions.length) =
    final at *
  have joined := allJoined_iff.mp waited
  have length : final.tasks.length = productions.length := by
    simpa using congrArg List.length kept.tasks
  have once : joining.Perm (List.range productions.length) := by
    refine (List.perm_ext_iff_of_nodup nodup List.nodup_range).mpr fun index => ?_
    have fresh : ¬Joined (Push.start productions) index := by
      cases entry : productions[index]? <;> simp [Joined, start_getElem?, entry]
    rw [member, List.mem_range, ← length]
    constructor
    · rintro ⟨-, done⟩
      obtain ⟨task, found, -⟩ := Option.map_eq_some_iff.mp done
      exact (List.getElem?_eq_some_iff.mp found).1
    · intro inside
      refine ⟨fresh, ?_⟩
      rw [Joined, List.getElem?_eq_getElem inside]
      exact congrArg some (joined _ (List.getElem_mem inside))
  have first : final.fault =
      joining.findSome? fun index => productions[index]?.bind (streamFailure? sink) := by
    have failures : failureAt? sink (Push.start productions) =
        fun index => productions[index]?.bind (streamFailure? sink) := by
      funext index
      rw [failureAt?, start_getElem?]
      cases productions[index]? <;> rfl
    rw [fault, failures]
    rfl
  have success : final.fault = none ↔ ∀ entry ∈ productions, streamFailure? sink entry = none := by
    rw [first, List.findSome?_eq_none_iff]
    constructor
    · intro none_at entry inside
      obtain ⟨index, found⟩ := List.mem_iff_getElem?.mp inside
      have within : index ∈ joining :=
        once.mem_iff.mpr (List.mem_range.mpr (List.getElem?_eq_some_iff.mp found).1)
      simpa [found] using none_at index within
    · intro fine index within
      cases found : productions[index]? with
      | none => rfl
      | some entry => exact fine entry (List.mem_of_getElem? found)
  refine ⟨waited, once, ?_, ?_, first, success, ?_, ?_⟩
  · exact filterMap_streams kept joined ▸ kept.batches
  · rintro ⟨stream, production⟩ -
    cases outcome : production.outcome with
    | error fault => simp [streamBatch?, delivered?, streamFailure?, failure?, outcome]
    | ok messages =>
      cases refusal : sink.refusal? ⟨stream.topic, messages⟩ <;>
        simp [streamBatch?, delivered?, streamFailure?, failure?, outcome, refusal]
  · rintro before entry after fault rfl fails others
    cases told : final.fault with
    | none =>
      have fine := success.mp told entry (by simp)
      simp [fails] at fine
    | some other =>
      obtain ⟨index, -, found⟩ := List.exists_of_findSome?_eq_some (first.symm.trans told)
      obtain ⟨failing, at_index, failure⟩ := Option.bind_eq_some_iff.mp found
      rcases List.mem_append.mp (List.mem_of_getElem? at_index) with inside | inside
      · simp [others failing (List.mem_append_left after inside)] at failure
      · rcases List.mem_cons.mp inside with rfl | inside
        · exact failure.symm.trans fails
        · simp [others failing (List.mem_append_right before inside)] at failure
  · intro entry _ verbose supply messages same generated
    exact produce_ok (same ▸ generated)

end MessagePress.Proofs.PushDelivery
