import MessagePress.Proofs.RunStatistics

/-! Starting and stopping. A stop gives up the jobs that wait, lets every run in flight come to
its end, and begins none; commands that are refused, and waits between sessions, leave no trace. -/

namespace MessagePress.Proofs.Lifecycle
open Schedule SessionRecords SessionCourse SchedulerRuns RunStatistics

variable {settings : Settings} {script : Script} {scheduler : Scheduler} {session : Session}

theorem run_refused {command : Command} {fault : Fault}
    (refused : scheduler.obey settings script command = (some fault, scheduler)) (rest : List Command) :
    scheduler.run settings script (command :: rest) =
      (some fault, scheduler) :: scheduler.run settings script rest := by
  simp only [Scheduler.run, refused]

/-- The times after each of several waits. -/
def pauses : Nat → List Nat → List Nat
  | _, [] => []
  | now, duration :: rest => (now + duration) :: pauses (now + duration) rest

theorem run_pauses (stopped : scheduler.session = none) (durations : List Nat) :
    scheduler.run settings script (durations.map .wait) =
      (pauses scheduler.now durations).map fun now => (none, { scheduler with now }) := by
  induction durations generalizing scheduler with
  | nil => rfl
  | cons duration rest ih =>
    have still : { scheduler with now := scheduler.now + duration }.session = none := stopped
    simp only [List.map_cons, Scheduler.run, Scheduler.obey, wait_stopped stopped, ih still, pauses]

/-- What a stop makes of a session. -/
structure Concluded (scheduler : Scheduler) (session : Session) (after : Scheduler) : Prop where
  stopped : after.session = none
  begun : after.ledger.begun = scheduler.ledger.begun
  /-- Nothing happens but that jobs are given up and the flights end, in the order of their ends. -/
  record : ∃ leaving : List Flight, leaving.Perm session.flights ∧
    (leaving.Pairwise fun earlier later => earlier.ends ≤ later.ends) ∧
    after.ledger.journal.reverse = scheduler.ledger.journal.reverse ++
      session.queue.map (Occurrence.discarded scheduler.now) ++ leaving.map landed ++ [.stopped after.now]
  idle : session.flights = [] → after.now = scheduler.now
  latest : session.flights ≠ [] → ∃ flight ∈ session.flights, flight.ends = after.now
  elapsed : ∀ flight ∈ session.flights, flight.ends ≤ after.now
  executions : after.ledger.statistics.executions = scheduler.ledger.statistics.executions +
    session.flights.countP fun flight => flight.ending ≠ .panic
  successes : after.ledger.statistics.successes = scheduler.ledger.statistics.successes +
    session.flights.countP fun flight => flight.ending = .success
  errors : after.ledger.statistics.errors = scheduler.ledger.statistics.errors +
    session.flights.countP fun flight => (failure? flight.ending).isSome
  dropped : after.ledger.statistics.dropped = scheduler.ledger.statistics.dropped

theorem lastEnd_greatest {time : Nat} (ahead : ∀ flight ∈ session.flights, time ≤ flight.ends)
    (flying : session.flights ≠ []) : ∃ flight ∈ session.flights, flight.ends = session.lastEnd time := by
  rcases lastEnd_cases time session with same | found
  · obtain ⟨flight, present⟩ := List.exists_mem_of_ne_nil _ flying
    have later := ahead flight present
    have before := ends_le_lastEnd time present
    exact ⟨flight, present, by omega⟩
  · exact found

private theorem closing_countP (scheduler : Scheduler) (session : Session) (count : Nat × Ending → Bool) :
    ((closed scheduler session).ledger.journal.filterMap landing?).countP count =
      (scheduler.ledger.journal.filterMap landing?).countP count +
        session.flights.countP fun flight => count (flight.ends, flight.ending) := by
  have landings : (closed scheduler session).ledger.journal.filterMap landing? =
      ((departures session.flights.length session.flights).map ended).reverse ++
        scheduler.ledger.journal.filterMap landing? := by
    simp only [closed, entered_journal, List.filterMap_append, List.filterMap_reverse, filterMap_closing]
    simp [List.filterMap_cons]
  rw [landings, List.countP_append, List.countP_reverse, List.countP_map, Nat.add_comm,
    (departures_all session.flights).countP_eq]
  rfl

theorem closed_concluded (reached : Reached settings script scheduler)
    (running : scheduler.session = some session) :
    Concluded scheduler session (closed scheduler session) := by
  have underway := reached.underway running
  have before := reached_tallied reached
  have after := reached_tallied (reached.obeyed .stop)
  rw [obey_stop running] at after
  refine ⟨rfl, ?_, ?_, ?_, lastEnd_greatest underway.flights, fun flight member => ends_le_lastEnd _ member,
    ?_, ?_, ?_, ?_⟩
  · rw [closed, entered_begun]
    simp [List.filterMap_cons]
  · refine ⟨departures session.flights.length session.flights, departures_all _,
      departures_ordered (Nat.le_refl _), ?_⟩
    simp [closed, entered_journal, closing]
  · intro empty
    simp [closed, Session.lastEnd, empty]
  · rw [after, before]
    exact closing_countP scheduler session _
  · rw [after, before]
    exact closing_countP scheduler session _
  · rw [after, before]
    exact closing_countP scheduler session _
  · rw [closed, entered_dropped]
    simp [List.filterMap_cons]

/-- What commands to start and to stop do to a scheduler, and what a pause does. -/
structure Governed (settings : Settings) (script : Script) (scheduler : Scheduler) : Prop where
  stops : ∀ session, scheduler.session = some session →
    ∃ after, scheduler.obey settings script .stop = (none, after) ∧ Concluded scheduler session after
  startRefused : ∀ session, scheduler.session = some session → ∀ rest,
    scheduler.run settings script (.start :: rest) =
      (some .alreadyRunning, scheduler) :: scheduler.run settings script rest
  stopRefused : scheduler.session = none → ∀ rest,
    scheduler.run settings script (.stop :: rest) =
      (some .notRunning, scheduler) :: scheduler.run settings script rest
  pauses : scheduler.session = none → ∀ durations : List Nat,
    scheduler.run settings script (durations.map .wait) =
      (pauses scheduler.now durations).map fun now => (none, { scheduler with now })
  startStop : scheduler.session = none →
    ∃ started after, scheduler.run settings script [.start, .stop] = [(none, started), (none, after)] ∧
      started.isRunning ∧ after.session = none ∧ after.now = scheduler.now ∧
      after.ledger.begun = scheduler.ledger.begun ∧ after.ledger.statistics = scheduler.ledger.statistics

/-- A scheduler that runs can be stopped, and a stop waits for the runs in flight and no longer.
Refused commands change nothing of what is to come, and neither does a session that is stopped
as soon as it is started. -/
theorem commands_governed {commands : List Command} {fault : Option Fault}
    (shown : (fault, scheduler) ∈ Scheduler.run settings script {} commands) :
    Governed settings script scheduler := by
  have reached := reached_of_shown shown
  refine ⟨?_, ?_, ?_, fun stopped => run_pauses stopped, ?_⟩
  · intro session running
    exact ⟨closed scheduler session, stop_obeyed running, closed_concluded reached running⟩
  · intro session running rest
    exact run_refused (start_refused running) rest
  · intro stopped rest
    exact run_refused (stop_refused stopped) rest
  · intro stopped
    let noted := scheduler.ledger.note (.started scheduler.now)
    refine ⟨⟨scheduler.now, some (.start settings scheduler.now), noted⟩,
      ⟨scheduler.now, none, noted.note (.stopped scheduler.now)⟩, ?_, rfl, rfl, rfl, rfl, rfl⟩
    simp [Scheduler.run, Scheduler.obey, Scheduler.obey.attempt, Scheduler.start, Scheduler.stop, stopped,
      Session.start, Session.lastEnd, Session.drain, Ledger.discard, noted]

/-- Two runs in flight and a job that waits: a stop gives it up, and lasts to the end of the run
that began first. -/
theorem commands_governed_waiting :
    let settings : Settings := ⟨10, 2, by decide, by decide⟩
    let script : Script := fun number => if number = 0 then ⟨45, .failure "late"⟩ else ⟨33, .panic⟩
    ∃ shown ∈ Scheduler.run settings script {} [.start, .wait 25],
      shown.2.session = some ⟨30, [20], 0, [⟨45, .failure "late"⟩, ⟨43, .panic⟩]⟩ ∧
      (shown.2.obey settings script .stop).2.now = 45 ∧
      Governed settings script shown.2 := by
  intro settings script
  have found : (Scheduler.run settings script {} [.start, .wait 25])[1]?.map
      (fun shown => (shown.2.session, (shown.2.obey settings script .stop).2.now)) =
        some (some ⟨30, [20], 0, [⟨45, .failure "late"⟩, ⟨43, .panic⟩]⟩, 45) := by
    decide
  obtain ⟨shown, last, told⟩ := Option.map_eq_some_iff.mp found
  obtain ⟨running, time⟩ := Prod.mk.inj told
  have member := List.mem_of_getElem? last
  exact ⟨shown, member, running, time, commands_governed member⟩

end MessagePress.Proofs.Lifecycle
