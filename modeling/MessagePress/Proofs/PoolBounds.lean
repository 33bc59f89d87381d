import MessagePress.Proofs.TickAccounts

/-! The bounds of the pool. No more runs are in flight than workers are left, no more jobs wait
than there were workers, and a job waits only while all the workers left are busy. -/

namespace MessagePress.Proofs.PoolBounds
open Schedule SessionRecords SessionCourse SchedulerRuns TickAccounts

variable {settings : Settings} {script : Script} {scheduler : Scheduler} {limit : Nat}

/-- So many runs in flight and jobs that wait are those that a record tells of, and within bounds. -/
structure Within (settings : Settings) (flights jobs : Nat) (record : List Occurrence) : Prop where
  begun : (record.filterMap run?).length = (record.filterMap landing?).length + flights
  accepted : (record.filterMap acceptance?).length =
    (record.filterMap run?).length + (record.filterMap discard?).length + jobs
  /-- Runs that panic have cost their workers. -/
  manned : flights + panics record ≤ settings.workers
  room : jobs ≤ settings.workers

/-- The flights of a session are the runs that have not ended. -/
structure Flown (settings : Settings) (moment : Moment) (record : List Occurrence) : Prop where
  flights : (record.filterMap run?).length =
    (record.filterMap landing?).length + moment.session.flights.length
  room : moment.session.queue.length ≤ settings.workers

private theorem Flown.event {moment next : Moment} {record added : List Occurrence}
    (flown : Flown settings moment record) (event : Event settings limit moment added next) :
    Flown settings next (record ++ added) := by
  obtain ⟨flights, room⟩ := flown
  cases event with
  | unheard => exact ⟨by simpa using flights, room⟩
  | dropped => exact ⟨by simpa [List.filterMap_cons] using flights, room⟩
  | queued _ _ free =>
    refine ⟨by simpa [List.filterMap_cons] using flights, ?_⟩
    simp only [List.length_append, List.length_singleton]
    omega
  | landed _ first =>
    have length := earliest_length first
    refine ⟨?_, room⟩
    simp [List.filterMap_cons]
    omega

private theorem Flown.service {moment next : Moment} {record added : List Occurrence}
    (flown : Flown settings moment record) (service : Service script moment added next) :
    Flown settings next (record ++ added) := by
  obtain ⟨flights, room⟩ := flown
  cases service with
  | begun waiting =>
    rw [waiting, List.length_cons] at room
    refine ⟨?_, Nat.le_of_succ_le room⟩
    simp [List.filterMap_cons]
    omega
  | atOnce waiting =>
    rw [waiting, List.length_cons] at room
    refine ⟨?_, Nat.le_of_succ_le room⟩
    simp [List.filterMap_cons]
    omega
  | discarded => exact ⟨by simpa [Function.comp_def] using flights, Nat.zero_le _⟩

private theorem course_flown {start : Nat} {origin : Ledger} {moment : Moment} {record : List Occurrence}
    (course : Course settings script limit ⟨start, .start settings start, origin⟩ record moment) :
    Flown settings moment record :=
  course.keeps _ ⟨rfl, Nat.zero_le _⟩ (fun event held => held.event event)
    (fun service held => held.service service)

theorem course_within {start : Nat} {origin : Ledger} {moment : Moment} {record : List Occurrence}
    (course : Course settings script limit ⟨start, .start settings start, origin⟩ record moment) :
    Within settings moment.session.flights.length moment.session.queue.length record := by
  obtain ⟨flights, room⟩ := course_flown course
  have accounts := course_accounts course
  have queue := congrArg List.length accounts.queue
  have live := accounts.live
  simp only [List.length_append, List.length_map] at queue
  simp only [Session.live] at live
  exact ⟨flights, queue, by omega, room⟩

private theorem served_dropped {moment final : Moment} {record : List Occurrence}
    (served : Served script moment record final) :
    final.ledger.statistics.dropped = moment.ledger.statistics.dropped := by
  induction served with
  | settled => rfl
  | next service _ ih =>
    rw [ih]
    cases service with
    | begun => rfl
    | atOnce => simp [enter, Ledger.beginRun, Ledger.note]
    | discarded => simp [entered_dropped, Function.comp_def]

private theorem serve_dropped (time : Nat) (jobs : List Nat) (session : Session) (ledger : Ledger) :
    (session.serve script time jobs ledger).2.statistics.dropped = ledger.statistics.dropped := by
  obtain ⟨record, served⟩ := @serve_served script time jobs session ledger
  exact served_dropped served

private theorem tick_dropped {session : Session} {ledger : Ledger} (settled : Settled session)
    (more : (session.tick settings script ledger).2.statistics.dropped ≠ ledger.statistics.dropped) :
    session.idle = 0 ∧ session.live ≠ 0 ∧ settings.workers ≤ session.queue.length ∧
      session.tick settings script ledger =
        (ticked settings session, ledger.dropTick session.nextTick) := by
  have positive := settings.workers_pos
  simp only [Session.tick] at more ⊢
  split at more
  next => exact absurd rfl more
  next alive =>
    split at more
    next => exact absurd (serve_dropped _ _ _ _) more
    next full =>
      have full := Nat.le_of_not_lt full
      simp only [if_neg alive, if_neg (Nat.not_lt.mpr full)]
      refine ⟨?_, alive, full, rfl⟩
      rcases settled with empty | busy
      · simp only [empty, List.length_nil] at full
        omega
      · exact busy.1

/-- The number of dropped ticks grows with a tick, and with nothing else that happens. -/
private theorem step_dropped {session : Session} {ledger : Ledger} {after : Session × Ledger}
    (step : session.step? settings script limit ledger = some after)
    (more : after.2.statistics.dropped ≠ ledger.statistics.dropped) :
    session.nextTick < limit ∧ after = session.tick settings script ledger := by
  simp only [Session.step?] at step
  split at step
  next flight others first =>
    split at step
    next =>
      split at step
      next =>
        cases step
        refine absurd ?_ more
        simp only [Session.land, serve_dropped, endRun_dropped]
      next => cases step
    next =>
      split at step
      next early => exact ⟨early, (Option.some.inj step).symm⟩
      next => cases step
  next =>
    split at step
    next early => exact ⟨early, (Option.some.inj step).symm⟩
    next => cases step

/-- What holds of a session between two of its events. -/
structure Bounded (settings : Settings) (script : Script) (limit : Nat) (session : Session)
    (ledger : Ledger) : Prop where
  within : Within settings session.flights.length session.queue.length (sessionRecord ledger)
  live : session.live + panics (sessionRecord ledger) = settings.workers
  busy : session.flights.length ≤ session.live
  waiting : session.queue ≠ [] → session.flights.length = session.live ∧ session.live ≠ 0
  /-- Nothing but a tick adds to the dropped ticks, and it finds no worker idle and no room. -/
  dropping : ∀ after, session.step? settings script limit ledger = some after →
    after.2.statistics.dropped ≠ ledger.statistics.dropped →
    session.nextTick < limit ∧
      after = (ticked settings session, ledger.dropTick session.nextTick) ∧
      session.flights.length = session.live ∧ session.live ≠ 0 ∧
      session.queue.length = settings.workers

private theorem bounded_of_course {start time : Nat} {origin ledger : Ledger} {session : Session}
    (course : Course settings script limit ⟨start, .start settings start, origin⟩
      (sessionRecord ledger) ⟨time, session, ledger⟩) :
    Bounded settings script limit session ledger := by
  have within := course_within course
  have settled : Settled session := course.settled (start_settled settings start)
  refine ⟨within, (course_accounts course).live, Nat.le_add_left _ _, ?_, ?_⟩
  · intro some_waiting
    obtain ⟨none_idle, flying⟩ := settled.resolve_left some_waiting
    have flying := List.length_pos_iff.mpr flying
    simp only [Session.live]
    omega
  · intro after step more
    obtain ⟨early, same⟩ := step_dropped step more
    rw [same] at more
    obtain ⟨none_idle, alive, full, result⟩ := tick_dropped settled more
    have room := within.room
    refine ⟨early, same.trans result, ?_, alive, Nat.le_antisymm room full⟩
    simp only [Session.live]
    omega

private theorem stopping_within {session : Session} (underway : Underway settings script scheduler session)
    {count : Nat} (some_left : count ≤ session.flights.length) :
    Within settings (session.flights.length - count) 0
      (sessionRecord (Session.drain count session.flights
        (scheduler.ledger.discard scheduler.now session.queue))) := by
  obtain ⟨time, origin, course⟩ := underway.course
  obtain ⟨begun, accepted, manned, -⟩ := course_within course
  obtain ⟨length, -⟩ := departures_perm some_left
  have added : ((closing scheduler.now count session).filterMap landing?).length = count := by
    simp [length]
  have lost_more : panics (closing scheduler.now count session) ≤ count :=
    Nat.le_trans List.countP_le_length (Nat.le_of_eq added)
  rw [drain_discard, sessionRecord_entered (by simp)]
  simp only at begun accepted manned
  refine ⟨?_, ?_, ?_, Nat.zero_le _⟩
  · simp only [List.filterMap_append, List.length_append, added, begun]
    simp
    omega
  · simp at accepted ⊢
    omega
  · rw [panics_append]
    omega

/-- The bounds of a scheduler from now on: between any two events of a wait, while a stop waits
for the flights to end, and over the commands that take no time. -/
structure PoolBounded (settings : Settings) (script : Script) (scheduler : Scheduler) : Prop where
  waits : ∀ session, scheduler.session = some session → ∀ duration steps,
    Bounded settings script (scheduler.now + duration)
      (session.runSteps settings script (scheduler.now + duration) steps scheduler.ledger).1
      (session.runSteps settings script (scheduler.now + duration) steps scheduler.ledger).2
  stops : ∀ session, scheduler.session = some session → ∀ count ≤ session.flights.length,
    Within settings (session.flights.length - count) 0
      (sessionRecord (Session.drain count session.flights
        (scheduler.ledger.discard scheduler.now session.queue)))
  dropped : ∀ command, (∀ duration, command ≠ .wait duration) →
    (scheduler.obey settings script command).2.ledger.statistics.dropped =
      scheduler.ledger.statistics.dropped

/-- At every instant of every run no more runs are in flight than workers are left and no more
jobs wait than there were workers, a job waits only while all the workers left are busy, and
no tick is dropped but by a busy pool with a full queue. -/
theorem pool_bounded {commands : List Command} {fault : Option Fault}
    (shown : (fault, scheduler) ∈ Scheduler.run settings script {} commands) :
    PoolBounded settings script scheduler := by
  have reached := reached_of_shown shown
  refine ⟨?_, ?_, ?_⟩
  · intro session running duration steps
    have underway := reached.underway running
    obtain ⟨time, origin, added, ledger, start, record, course⟩ :=
      underway.runSteps (Nat.le_add_right scheduler.now duration) steps
    rw [← record, ← ledger] at course
    exact bounded_of_course course
  · intro session running count some_left
    exact stopping_within (reached.underway running) some_left
  · intro command instant
    cases before : scheduler.session with
    | none =>
      cases command with
      | start => rw [obey_start before]; rfl
      | stop => rw [obey_stop_stopped before]
      | wait duration => exact absurd rfl (instant duration)
    | some session =>
      cases command with
      | start => rw [obey_start_running before]
      | stop =>
        rw [obey_stop before, closed, entered_dropped]
        simp [List.filterMap_cons]
      | wait duration => exact absurd rfl (instant duration)

/-- Two workers, of which one is lost to the second run: the queue is full when the next tick comes. -/
theorem pool_bounded_full :
    let settings : Settings := ⟨10, 2, by decide, by decide⟩
    let script : Script := fun number => if number = 1 then ⟨5, .panic⟩ else ⟨100, .success⟩
    ∃ shown ∈ Scheduler.run settings script {} [.start, .wait 35],
      shown.2.session = some ⟨40, [20, 30], 0, [⟨100, .success⟩]⟩ ∧
      PoolBounded settings script shown.2 := by
  intro settings script
  have found : (Scheduler.run settings script {} [.start, .wait 35])[1]?.map
      (fun shown => shown.2.session) = some (some ⟨40, [20, 30], 0, [⟨100, .success⟩]⟩) := by
    decide
  obtain ⟨shown, last, running⟩ := Option.map_eq_some_iff.mp found
  have member := List.mem_of_getElem? last
  exact ⟨shown, member, running, pool_bounded member⟩

end MessagePress.Proofs.PoolBounds
