import Mathlib.Data.List.Perm.Basic
import MessagePress.Proofs.JournalOrder
import MessagePress.Schedule.Task

/-! The statistics of a scheduler. Each run that has begun ends when its time is over, or is in
flight, and the statistics are the tally of those that have ended, in the order of their ends. -/

namespace MessagePress.Proofs.RunStatistics
open Schedule SessionRecords SessionCourse SchedulerRuns JournalOrder

variable {settings : Settings} {script : Script} {scheduler : Scheduler} {limit : Nat}

def failure? : Ending → Option String
  | .failure message => some message
  | _ => none

/-- The statistics of what a journal tells, latest first. -/
def tally (journal : List Occurrence) : Statistics :=
  let landings := journal.filterMap landing?
  { executions := landings.countP fun landing => landing.2 ≠ .panic
    successes := landings.countP fun landing => landing.2 = .success
    errors := landings.countP fun landing => (failure? landing.2).isSome
    dropped := (journal.filterMap refusal?).length
    lastExecution := (landings.find? fun landing => landing.2 ≠ .panic).map Prod.fst
    lastError := landings.findSome? fun landing => failure? landing.2 }

theorem enter_tally {ledger : Ledger} (occurrence : Occurrence)
    (tallied : ledger.statistics = tally ledger.journal) :
    (enter ledger occurrence).statistics = tally (enter ledger occurrence).journal := by
  cases occurrence with
  | ended time ending =>
    cases ending <;> simp [enter, Ledger.endRun, Ledger.note, tally, tallied, failure?, List.filterMap_cons]
  | dropped time => simp [enter, Ledger.dropTick, Ledger.note, tally, tallied, List.filterMap_cons]
  | _ => simpa [enter, Ledger.note, Ledger.beginRun, tally, List.filterMap_cons] using tallied

theorem entered_tally {ledger : Ledger} (record : List Occurrence)
    (tallied : ledger.statistics = tally ledger.journal) :
    (entered ledger record).statistics = tally (entered ledger record).journal := by
  induction record generalizing ledger with
  | nil => exact tallied
  | cons occurrence record ih => exact ih (enter_tally occurrence tallied)

theorem begunTimes_eq (ledger : Ledger) :
    ledger.begunTimes = (ledger.journal.reverse.filterMap run?).map Prod.fst := by
  rw [Ledger.begunTimes, List.map_filterMap]
  apply List.filterMap_congr
  intro occurrence _
  cases occurrence <;> rfl

theorem begunTimes_entered (ledger : Ledger) (record : List Occurrence) :
    (entered ledger record).begunTimes = ledger.begunTimes ++ (record.filterMap run?).map Prod.fst := by
  simp [begunTimes_eq, entered_journal]

/-- When a run ends, and how, if the runs have begun at these times. -/
def outcome (script : Script) (times : List Nat) (number : Nat) : Nat × Ending :=
  (times.getD number 0 + (script number).duration, (script number).ending)

def outcomes (script : Script) (ledger : Ledger) : List (Nat × Ending) :=
  (List.range ledger.begun).map (outcome script ledger.begunTimes)

theorem outcomes_kept {ledger : Ledger} {record : List Occurrence} (none_begun : record.filterMap run? = []) :
    outcomes script (entered ledger record) = outcomes script ledger := by
  rw [outcomes, entered_begun, begunTimes_entered, none_begun, List.map_nil, List.append_nil]
  rfl

theorem outcomes_begun {ledger : Ledger} {record : List Occurrence} {time job : Nat}
    (counted : ledger.begunTimes.length = ledger.begun) (one_begun : record.filterMap run? = [(time, job)]) :
    outcomes script (entered ledger record) = outcomes script ledger ++
      [(time + (script ledger.begun).duration, (script ledger.begun).ending)] := by
  have earlier : (List.range ledger.begun).map (outcome script (ledger.begunTimes ++ [time])) =
      outcomes script ledger := by
    apply List.map_congr_left
    intro number inside
    have known : number < ledger.begunTimes.length := by
      rw [counted]
      exact List.mem_range.mp inside
    simp [outcome, List.getD_eq_getElem?_getD, List.getElem?_append_left known]
  have last : outcome script (ledger.begunTimes ++ [time]) ledger.begun =
      (time + (script ledger.begun).duration, (script ledger.begun).ending) := by
    simp [outcome, ← counted]
  rw [outcomes, entered_begun, begunTimes_entered, one_begun, List.length_singleton, List.range_succ,
    List.map_append, List.map_singleton, List.map_singleton, earlier, last]

@[simp] def ended (flight : Flight) : Nat × Ending := (flight.ends, flight.ending)

/-- Each run that has begun has ended in its time, or is one of these flights. -/
structure Followed (script : Script) (flights : List Flight) (ledger : Ledger) : Prop where
  begun : ledger.begunTimes.length = ledger.begun
  runs : (ledger.journal.filterMap landing? ++ flights.map ended).Perm (outcomes script ledger)

/-- Entries that begin some runs and end some, so that other flights are left. -/
theorem Followed.extended {flights after : List Flight} {ledger : Ledger} {more : List (Nat × Ending)}
    (followed : Followed script flights ledger) {record : List Occurrence}
    (begun : outcomes script (entered ledger record) = outcomes script ledger ++ more)
    (same : (record.reverse.filterMap landing? ++ after.map ended).Perm (flights.map ended ++ more)) :
    Followed script after (entered ledger record) := by
  refine ⟨?_, ?_⟩
  · rw [begunTimes_entered, entered_begun, List.length_append, List.length_map, followed.begun]
  · rw [begun, entered_journal, List.filterMap_append]
    calc
      (record.reverse.filterMap landing? ++ ledger.journal.filterMap landing? ++ after.map ended).Perm
          (ledger.journal.filterMap landing? ++ (record.reverse.filterMap landing? ++ after.map ended)) := by
        rw [← List.append_assoc]
        exact List.perm_append_comm.append_right _
      List.Perm _ (ledger.journal.filterMap landing? ++ (flights.map ended ++ more)) := same.append_left _
      List.Perm _ (outcomes script ledger ++ more) := by
        rw [← List.append_assoc]
        exact followed.runs.append_right more

theorem Followed.kept {flights after : List Flight} {ledger : Ledger}
    (followed : Followed script flights ledger) {record : List Occurrence}
    (none_begun : record.filterMap run? = [])
    (same : (record.reverse.filterMap landing? ++ after.map ended).Perm (flights.map ended)) :
    Followed script after (entered ledger record) := by
  refine @Followed.extended script flights after ledger [] followed record ?_ ?_
  · rw [outcomes_kept none_begun, List.append_nil]
  · rwa [List.append_nil]

theorem Followed.event {moment next : Moment} {added : List Occurrence}
    (followed : Followed script moment.session.flights moment.ledger)
    (event : Event settings limit moment added next) :
    Followed script next.session.flights next.ledger := by
  rw [event.ledger]
  cases event with
  | unheard => exact followed
  | dropped => exact followed.kept rfl (List.Perm.refl _)
  | queued => exact followed.kept rfl (List.Perm.refl _)
  | landed _ first => exact followed.kept rfl ((earliest_perm first).map ended).symm

theorem Followed.service {moment next : Moment} {added : List Occurrence}
    (followed : Followed script moment.session.flights moment.ledger)
    (service : Service script moment added next) :
    Followed script next.session.flights next.ledger := by
  rw [service.ledger]
  cases service with
  | begun _ _ told =>
    apply followed.extended (outcomes_begun followed.begun rfl)
    simp [told, List.filterMap_cons]
  | atOnce _ _ told instant =>
    apply followed.extended (outcomes_begun followed.begun rfl)
    simpa [told, instant, List.filterMap_cons] using (List.perm_append_singleton _ _).symm
  | discarded => exact followed.kept (by simp [Function.comp_def]) (by simp [Function.comp_def])

def flights (scheduler : Scheduler) : List Flight := (scheduler.session.map Session.flights).getD []

theorem reached_followed (reached : Reached settings script scheduler) :
    Followed script (flights scheduler) scheduler.ledger := by
  apply reached.keeps fun scheduler => Followed script (flights scheduler) scheduler.ledger
  case fresh => exact ⟨rfl, List.Perm.nil⟩
  case starts =>
    intro scheduler stopped followed
    rw [flights, stopped] at followed
    have noted : scheduler.ledger.note (.started scheduler.now) =
        entered scheduler.ledger [.started scheduler.now] := rfl
    rw [noted]
    exact followed.kept rfl List.Perm.nil
  case passes =>
    intro scheduler duration _ followed
    exact followed
  case waits =>
    intro scheduler session duration reached running followed
    obtain ⟨time, after, added, result, course⟩ := (reached.underway running).onward running duration
    rw [flights, running] at followed
    rw [result]
    exact course.keeps (fun moment _ => Followed script moment.session.flights moment.ledger) followed
      (fun event held => held.event event) (fun service held => held.service service)
  case stops =>
    intro scheduler session _ running followed
    rw [flights, running] at followed
    apply followed.kept
    · simp [List.filterMap_cons]
    · have all : ((departures session.flights.length session.flights).map
          fun flight => (flight.ends, flight.ending)).reverse.Perm (session.flights.map ended) :=
        (List.reverse_perm _).trans ((departures_all session.flights).map ended)
      simpa [List.filterMap_cons, closing, Function.comp_def, flights, closed, ← List.map_reverse] using all

/-- What never decreases from one ledger to a later one. A failure is not forgotten for a success. -/
structure Grown (before after : Ledger) : Prop where
  begun : before.begun ≤ after.begun
  executions : before.statistics.executions ≤ after.statistics.executions
  successes : before.statistics.successes ≤ after.statistics.successes
  errors : before.statistics.errors ≤ after.statistics.errors
  dropped : before.statistics.dropped ≤ after.statistics.dropped
  lastError : after.statistics.errors = before.statistics.errors →
    after.statistics.lastError = before.statistics.lastError

theorem Grown.refl (ledger : Ledger) : Grown ledger ledger :=
  ⟨Nat.le_refl _, Nat.le_refl _, Nat.le_refl _, Nat.le_refl _, Nat.le_refl _, fun _ => rfl⟩

theorem Grown.trans {before middle after : Ledger} (first : Grown before middle)
    (second : Grown middle after) : Grown before after := by
  refine ⟨Nat.le_trans first.begun second.begun, Nat.le_trans first.executions second.executions,
    Nat.le_trans first.successes second.successes, Nat.le_trans first.errors second.errors,
    Nat.le_trans first.dropped second.dropped, ?_⟩
  intro same
  have less := first.errors
  have more := second.errors
  rw [second.lastError (by omega), first.lastError (by omega)]

theorem enter_grown (ledger : Ledger) (occurrence : Occurrence) : Grown ledger (enter ledger occurrence) := by
  cases occurrence with
  | ended time ending =>
    cases ending <;> constructor <;> simp [enter, Ledger.endRun, Ledger.note]
  | _ => constructor <;> simp [enter, Ledger.note, Ledger.beginRun, Ledger.dropTick]

theorem entered_grown (ledger : Ledger) (record : List Occurrence) : Grown ledger (entered ledger record) := by
  induction record generalizing ledger with
  | nil => exact .refl ledger
  | cons occurrence record ih => exact (enter_grown ledger occurrence).trans (ih _)

theorem run_grown {commands : List Command} {shown : Option Fault × Scheduler}
    (reached : Reached settings script scheduler) (member : shown ∈ scheduler.run settings script commands) :
    Grown scheduler.ledger shown.2.ledger := by
  induction commands generalizing scheduler with
  | nil => cases member
  | cons command rest ih =>
    obtain ⟨added, ledger⟩ := reached.obey_entered command
    have grown := entered_grown scheduler.ledger added
    rw [← ledger] at grown
    simp only [Scheduler.run, List.mem_cons] at member
    rcases member with rfl | member
    · exact grown
    · exact grown.trans (ih (reached.obeyed command) member)

@[simp] theorem ending_eq_panic {result : Result} : result.ending = .panic ↔ result = .panicked := by
  cases result <;> simp [Result.ending]

@[simp] theorem ending_eq_success {result : Result} : result.ending = .success ↔ result = .done := by
  cases result <;> simp [Result.ending]

@[simp] theorem failure?_ending (result : Result) : failure? result.ending = result.text? := by
  cases result <;> rfl

/-- When a run of a task ends. -/
def finish (task : Schedule.Task) (ledger : Ledger) (number : Nat) : Nat :=
  ledger.begunTimes.getD number 0 + (task number).duration

/-- The runs that have ended, latest first, and those in flight, by their numbers. -/
structure Told (task : Schedule.Task) (scheduler : Scheduler) (past flying : List Nat) : Prop where
  numbered : scheduler.ledger.begunTimes.length = scheduler.ledger.begun
  begun : (past ++ flying).Perm (List.range scheduler.ledger.begun)
  latestFirst : past.Pairwise fun later earlier =>
    finish task scheduler.ledger earlier ≤ finish task scheduler.ledger later
  elapsed : ∀ number ∈ past, finish task scheduler.ledger number ≤ scheduler.now
  flights : flights scheduler =
    flying.map fun number => ⟨finish task scheduler.ledger number, (task number).result.ending⟩
  statistics : scheduler.ledger.statistics = {
    executions := past.countP fun number => (task number).result ≠ .panicked
    successes := past.countP fun number => (task number).result = .done
    errors := past.countP fun number => (task number).result.text?.isSome
    dropped := (scheduler.ledger.journal.filterMap refusal?).length
    lastExecution := (past.find? fun number => (task number).result ≠ .panicked).map
      (finish task scheduler.ledger)
    lastError := past.findSome? fun number => (task number).result.text? }

private theorem landing_instant (occurrence : Occurrence) (landing : Nat × Ending)
    (told : landing? occurrence = some landing) : instant occurrence = landing.1 := by
  cases occurrence <;> cases told
  rfl

variable {task : Schedule.Task}

theorem reached_tallied (reached : Reached settings script scheduler) :
    scheduler.ledger.statistics = tally scheduler.ledger.journal := by
  induction reached with
  | fresh => rfl
  | obeyed command reached ih =>
    obtain ⟨added, ledger⟩ := reached.obey_entered command
    rw [ledger]
    exact entered_tally added ih

theorem reached_told (reached : Reached settings task.script scheduler) :
    ∃ past flying, Told task scheduler past flying := by
  obtain ⟨numbered, runs⟩ := reached_followed reached
  have ordered := reached_ordered reached
  have statistics := reached_tallied reached
  -- The runs that have ended or are in flight are put back by their numbers.
  rw [outcomes] at runs
  obtain ⟨numbers, named, same⟩ := (congrFun (congrFun (List.eq_map_comp_perm _) _) _).mpr runs
  obtain ⟨past, flying, rfl, landed, flown⟩ := List.map_eq_append_iff.mp named.symm
  have elapsed : ∀ number ∈ past, finish task scheduler.ledger number ≤ scheduler.now := by
    intro number member
    have among : outcome task.script scheduler.ledger.begunTimes number ∈
        scheduler.ledger.journal.reverse.filterMap landing? := by
      rw [List.filterMap_reverse, List.mem_reverse, ← landed]
      exact List.mem_map_of_mem member
    exact (ordered.pieces_within landing_instant _ among).2
  have latestFirst := ordered.pieces landing_instant
  rw [List.filterMap_reverse, List.pairwise_reverse, ← landed, List.pairwise_map] at latestFirst
  refine ⟨past, flying, numbered, same, latestFirst, elapsed, ?_, ?_⟩
  · have paired := congrArg (List.map fun landing => (⟨landing.1, landing.2⟩ : Flight)) flown
    simpa [Function.comp_def, outcome, finish, Task.script] using paired.symm
  · have finished : ∀ number, (outcome task.script scheduler.ledger.begunTimes number).1 =
        finish task scheduler.ledger number := fun _ => rfl
    have ending : ∀ number, (outcome task.script scheduler.ledger.begunTimes number).2 =
        (task number).result.ending := fun _ => rfl
    rw [statistics, tally, ← landed]
    simp [List.countP_map, List.find?_map, List.findSome?_map, Function.comp_def, finished, ending]

theorem countP_results (task : Schedule.Task) (past : List Nat) :
    (past.countP fun number => (task number).result ≠ .panicked) =
      (past.countP fun number => (task number).result = .done) +
        past.countP fun number => (task number).result.text?.isSome := by
  induction past with
  | nil => rfl
  | cons number past ih =>
    simp only [List.countP_cons, ih]
    cases (task number).result <;> simp [Result.text?] <;> omega

/-- What the statistics of a scheduler say of the runs of its task, now and later on. -/
structure Informed (settings : Settings) (task : Schedule.Task) (scheduler : Scheduler) : Prop where
  executions : scheduler.ledger.statistics.executions =
    scheduler.ledger.statistics.successes + scheduler.ledger.statistics.errors
  runs : ∃ past flying, Told task scheduler past flying ∧
    scheduler.ledger.begun = scheduler.ledger.statistics.executions +
      (past.countP fun number => (task number).result = .panicked) + (flights scheduler).length
  executed : scheduler.ledger.statistics.lastExecution.isSome ↔ 0 < scheduler.ledger.statistics.executions
  failed : scheduler.ledger.statistics.lastError.isSome ↔ 0 < scheduler.ledger.statistics.errors
  grows : ∀ commands, ∀ later ∈ scheduler.run settings task.script commands,
    Grown scheduler.ledger later.2.ledger

/-- The statistics count each run once, when it ends, unless it panics. The last error is that of
the failed run that ended last, whenever it began, and no later success clears it. -/
theorem statistics_tell_runs {commands : List Command} {fault : Option Fault}
    (shown : (fault, scheduler) ∈ Scheduler.run settings task.script {} commands) :
    Informed settings task scheduler := by
  have reached := reached_of_shown shown
  obtain ⟨past, flying, told⟩ := reached_told reached
  have statistics := told.statistics
  refine ⟨?_, ⟨past, flying, told, ?_⟩, ?_, ?_, fun commands later => run_grown reached⟩
  · rw [statistics]
    exact countP_results task past
  · have length := told.begun.length_eq
    have parted := past.length_eq_countP_add_countP fun number => (task number).result ≠ .panicked
    rw [List.length_append, List.length_range] at length
    rw [told.flights, List.length_map, ← length, statistics, parted]
    simp
  · rw [statistics]
    simp [List.countP_pos_iff]
  · rw [statistics]
    simp [List.countP_pos_iff, List.findSome?_isSome_iff]

/-- Three workers. The first run fails last, behind a run that failed sooner and one that
panicked, and before two that succeed. -/
theorem statistics_tell_runs_late :
    let settings : Settings := ⟨10, 3, by decide, by decide⟩
    let task : Schedule.Task := fun number =>
      if number = 0 then ⟨35, .failed ["push failed", "no broker"]⟩
      else if number = 1 then ⟨5, .failed ["too soon"]⟩
      else if number = 2 then ⟨2, .panicked⟩
      else ⟨3, .done⟩
    ∃ shown ∈ Scheduler.run settings task.script {} [.start, .wait 48],
      shown.2.ledger.statistics = ⟨4, 2, 2, 0, some 43, some "push failed: no broker"⟩ ∧
      Informed settings task shown.2 := by
  intro settings task
  have found : (Scheduler.run settings task.script {} [.start, .wait 48])[1]?.map
      (fun shown => shown.2.ledger.statistics) =
        some ⟨4, 2, 2, 0, some 43, some "push failed: no broker"⟩ := by
    decide
  obtain ⟨shown, last, recorded⟩ := Option.map_eq_some_iff.mp found
  have member := List.mem_of_getElem? last
  exact ⟨shown, member, recorded, statistics_tell_runs member⟩

end MessagePress.Proofs.RunStatistics
