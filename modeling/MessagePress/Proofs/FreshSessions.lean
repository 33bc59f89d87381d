import MessagePress.Schedule.Scheduler

/-! A scheduler that has been stopped goes on like a new one. Everything that a session does is
carried along when the clock and the number of the next run are moved, and nothing but these and
the ledger is left of the sessions before. -/

namespace MessagePress.Proofs.FreshSessions
open Schedule

variable {settings : Settings} {script : Script} (base : Ledger) (offset : Nat)

/-- The script from a run on. -/
def advanced (count : Nat) (script : Script) : Script := fun number => script (count + number)

def laterFlight (flight : Flight) : Flight := ⟨offset + flight.ends, flight.ending⟩

def laterOccurrence : Occurrence → Occurrence
  | .started time => .started (offset + time)
  | .queued time => .queued (offset + time)
  | .dropped time => .dropped (offset + time)
  | .begun time job => .begun (offset + time) (offset + job)
  | .ended time ending => .ended (offset + time) ending
  | .discarded time job => .discarded (offset + time) (offset + job)
  | .stopped time => .stopped (offset + time)

def laterSession (session : Session) : Session where
  nextTick := offset + session.nextTick
  queue := session.queue.map (offset + ·)
  idle := session.idle
  flights := session.flights.map (laterFlight offset)

/-- What is entered later, behind what a ledger holds. -/
def laterLedger (ledger : Ledger) : Ledger where
  begun := base.begun + ledger.begun
  statistics := {
    executions := base.statistics.executions + ledger.statistics.executions
    successes := base.statistics.successes + ledger.statistics.successes
    errors := base.statistics.errors + ledger.statistics.errors
    dropped := base.statistics.dropped + ledger.statistics.dropped
    lastExecution := (ledger.statistics.lastExecution.map (offset + ·)).or base.statistics.lastExecution
    lastError := ledger.statistics.lastError.or base.statistics.lastError }
  journal := ledger.journal.map (laterOccurrence offset) ++ base.journal

def later : Session × Ledger → Session × Ledger := Prod.map (laterSession offset) (laterLedger base offset)

theorem later_beginRun (time job : Nat) (ledger : Ledger) :
    (laterLedger base offset ledger).beginRun (offset + time) (offset + job) =
      laterLedger base offset (ledger.beginRun time job) := rfl

theorem later_endRun (time : Nat) (ending : Ending) (ledger : Ledger) :
    (laterLedger base offset ledger).endRun (offset + time) ending =
      laterLedger base offset (ledger.endRun time ending) := by
  cases ending <;> rfl

theorem later_discard (time : Nat) (jobs : List Nat) (ledger : Ledger) :
    (laterLedger base offset ledger).discard (offset + time) (jobs.map (offset + ·)) =
      laterLedger base offset (ledger.discard time jobs) := by
  induction jobs generalizing ledger with
  | nil => rfl
  | cons job jobs ih => exact ih (ledger.note (.discarded time job))

theorem later_take (time job : Nat) (session : Session) (ledger : Ledger) :
    (laterSession offset session).take script (offset + time) (offset + job) (laterLedger base offset ledger) =
      later base offset (session.take (advanced base.begun script) time job ledger) := by
  have told : script (laterLedger base offset ledger).begun = advanced base.begun script ledger.begun := rfl
  simp only [Session.take, told, later_beginRun]
  split
  · rw [later_endRun]
    rfl
  · simp [later, laterSession, laterFlight, Nat.add_assoc]

theorem later_serve (time : Nat) (jobs : List Nat) (session : Session) (ledger : Ledger) :
    Session.serve script (offset + time) (jobs.map (offset + ·)) (laterSession offset session)
        (laterLedger base offset ledger) =
      later base offset (Session.serve (advanced base.begun script) time jobs session ledger) := by
  induction jobs generalizing session ledger with
  | nil => rfl
  | cons job rest ih =>
    have idle : (laterSession offset session).idle = session.idle := rfl
    have flying : (laterSession offset session).flights.isEmpty = session.flights.isEmpty := by
      simp [laterSession]
    simp only [List.map_cons, Session.serve, idle, flying, later_take]
    split
    · split
      · rw [← List.map_cons, later_discard]
        rfl
      · rfl
    · exact ih _ _

theorem later_live (session : Session) : (laterSession offset session).live = session.live := by
  simp [Session.live, laterSession]

theorem later_tick (session : Session) (ledger : Ledger) :
    (laterSession offset session).tick settings script (laterLedger base offset ledger) =
      later base offset (session.tick settings (advanced base.begun script) ledger) := by
  let ticked : Session := { session with nextTick := session.nextTick + settings.interval }
  have moved : { laterSession offset session with
      nextTick := (laterSession offset session).nextTick + settings.interval } =
        laterSession offset ticked := by
    simp [laterSession, ticked, Nat.add_assoc]
  have length : (laterSession offset session).queue.length = session.queue.length := by
    simp [laterSession]
  have queue : (laterSession offset session).queue ++ [(laterSession offset session).nextTick] =
      (session.queue ++ [session.nextTick]).map (offset + ·) := by
    simp [laterSession]
  simp only [Session.tick, moved, later_live, length, queue]
  split
  · rfl
  · split
    · exact later_serve base offset session.nextTick _ ticked (ledger.note (.queued session.nextTick))
    · rfl

theorem later_earliest (flights : List Flight) :
    Session.earliest (flights.map (laterFlight offset)) =
      (Session.earliest flights).map (Prod.map (laterFlight offset) (List.map (laterFlight offset))) := by
  induction flights with
  | nil => rfl
  | cons flight rest ih =>
    simp only [List.map_cons, Session.earliest, ih]
    cases Session.earliest rest with
    | none => rfl
    | some best =>
      have order : (laterFlight offset best.1).ends < (laterFlight offset flight).ends ↔
          best.1.ends < flight.ends := by
        simp [laterFlight]
      simp only [Option.map_some, Prod.map_fst, Prod.map_snd, order]
      split <;> rfl

theorem later_land (flight : Flight) (others : List Flight) (session : Session) (ledger : Ledger) :
    (laterSession offset session).land script (laterFlight offset flight)
        (others.map (laterFlight offset)) (laterLedger base offset ledger) =
      later base offset (session.land (advanced base.begun script) flight others ledger) := by
  have ending : (laterFlight offset flight).ending = flight.ending := rfl
  simp only [Session.land, ending, ← later_serve, ← later_endRun]
  rfl

theorem later_step? (limit : Nat) (session : Session) (ledger : Ledger) :
    (laterSession offset session).step? settings script (offset + limit) (laterLedger base offset ledger) =
      (session.step? settings (advanced base.begun script) limit ledger).map (later base offset) := by
  have flights : (laterSession offset session).flights = session.flights.map (laterFlight offset) := rfl
  have early : (laterSession offset session).nextTick < offset + limit ↔ session.nextTick < limit :=
    Nat.add_lt_add_iff_left
  simp only [Session.step?, flights, later_earliest, early, later_tick]
  cases Session.earliest session.flights with
  | none =>
    simp only [Option.map_none]
    split <;> rfl
  | some best =>
    have sooner : (laterFlight offset best.1).ends < (laterSession offset session).nextTick ↔
        best.1.ends < session.nextTick := Nat.add_lt_add_iff_left
    have before : (laterFlight offset best.1).ends < offset + limit ↔ best.1.ends < limit :=
      Nat.add_lt_add_iff_left
    simp only [Option.map_some, Prod.map_fst, Prod.map_snd, sooner, before, later_land]
    split <;> split <;> rfl

theorem later_runSteps (limit steps : Nat) (session : Session) (ledger : Ledger) :
    (laterSession offset session).runSteps settings script (offset + limit) steps
        (laterLedger base offset ledger) =
      later base offset (session.runSteps settings (advanced base.begun script) limit steps ledger) := by
  induction steps generalizing session ledger with
  | zero => rfl
  | succ steps ih =>
    simp only [Session.runSteps, later_step?]
    cases session.step? settings (advanced base.begun script) limit ledger with
    | none => rfl
    | some after => exact ih after.1 after.2

theorem later_runUntil (limit : Nat) (session : Session) (ledger : Ledger) :
    (laterSession offset session).runUntil settings script (offset + limit) (laterLedger base offset ledger) =
      later base offset (session.runUntil settings (advanced base.begun script) limit ledger) := by
  have ticks : (laterSession offset session).ticksBefore settings (offset + limit) =
      session.ticksBefore settings limit := by
    simp only [Session.ticksBefore, laterSession, Nat.add_sub_add_left]
  have jobs : (laterSession offset session).queue.length = session.queue.length := by
    simp [laterSession]
  have flights : (laterSession offset session).flights.length = session.flights.length := by
    simp [laterSession]
  simp only [Session.runUntil, ticks, jobs, flights, later_runSteps]

theorem later_drain (count : Nat) (flights : List Flight) (ledger : Ledger) :
    Session.drain count (flights.map (laterFlight offset)) (laterLedger base offset ledger) =
      laterLedger base offset (Session.drain count flights ledger) := by
  induction count generalizing flights ledger with
  | zero => rfl
  | succ count ih =>
    simp only [Session.drain, later_earliest]
    cases Session.earliest flights with
    | none => rfl
    | some best =>
      simp only [Option.map_some, Prod.map_fst, Prod.map_snd, ← ih, ← later_endRun]
      rfl

theorem later_lastEnd (time : Nat) (session : Session) :
    (laterSession offset session).lastEnd (offset + time) = offset + session.lastEnd time := by
  simp only [Session.lastEnd, laterSession]
  induction session.flights generalizing time with
  | nil => rfl
  | cons flight rest ih =>
    have latest : max (offset + time) (laterFlight offset flight).ends = offset + max time flight.ends :=
      Nat.add_max_add_left ..
    simp only [List.map_cons, List.foldl_cons, latest, ih]

/-- What has become of a new scheduler, behind what another one had done when it was stopped. -/
def continued (old scheduler : Scheduler) : Scheduler where
  now := old.now + scheduler.now
  session := scheduler.session.map (laterSession old.now)
  ledger := laterLedger old.ledger old.now scheduler.ledger

variable (old scheduler : Scheduler)

theorem continued_obey (command : Command) :
    (continued old scheduler).obey settings script command =
      Prod.map id (continued old)
        (scheduler.obey settings (advanced old.ledger.begun script) command) := by
  obtain ⟨now, running, ledger⟩ := scheduler
  cases running with
  | none =>
    cases command with
    | start => rfl
    | stop => rfl
    | wait duration => simp [Scheduler.obey, Scheduler.wait, continued, Nat.add_assoc]
  | some session =>
    cases command with
    | start => rfl
    | stop =>
      have queue : (laterSession old.now session).queue = session.queue.map (old.now + ·) := rfl
      have flights : (laterSession old.now session).flights = session.flights.map (laterFlight old.now) := rfl
      simp only [Scheduler.obey, Scheduler.stop, continued, Option.map_some, queue, later_discard,
        flights, List.length_map, later_drain, later_lastEnd]
      rfl
    | wait duration =>
      simp only [Scheduler.obey, Scheduler.wait, continued, Option.map_some, Nat.add_assoc, later_runUntil]
      rfl

theorem continued_run (commands : List Command) :
    (continued old scheduler).run settings script commands =
      (scheduler.run settings (advanced old.ledger.begun script) commands).map
        (Prod.map id (continued old)) := by
  induction commands generalizing scheduler with
  | nil => rfl
  | cons command rest ih =>
    simp only [Scheduler.run, continued_obey, Prod.map_fst, Prod.map_snd, id, List.map_cons, ih]
    rfl

/-- Whatever a stopped scheduler is told to do from now on, it does what a new one would do with
the runs that are left of the script, only later, and behind what its ledger holds. -/
theorem stopped_like_fresh {scheduler : Scheduler} (stopped : scheduler.session = none)
    (commands : List Command) :
    scheduler.run settings script commands =
      (Scheduler.run settings (advanced scheduler.ledger.begun script) {} commands).map
        fun shown => (shown.1, continued scheduler shown.2) := by
  have same : continued scheduler {} = scheduler := by
    obtain ⟨now, running, ledger⟩ := scheduler
    cases stopped
    rfl
  have onward := @continued_run settings script scheduler {} commands
  rw [same] at onward
  exact onward

/-- The first session has lost a worker, left a job to wait and ended between two of its ticks. -/
theorem stopped_like_fresh_lost :
    let settings : Settings := ⟨10, 2, by decide, by decide⟩
    let script : Script := fun number =>
      if number = 0 then ⟨3, .panic⟩ else if number = 1 then ⟨45, .failure "late"⟩ else ⟨7, .success⟩
    ∃ shown ∈ Scheduler.run settings script {} [.start, .wait 25, .stop, .wait 3],
      shown.2.session = none ∧ shown.2.ledger.begun = 2 ∧ shown.2.now = 58 ∧
      shown.2.run settings script [.start, .wait 27, .stop] =
        (Scheduler.run settings (advanced shown.2.ledger.begun script) {} [.start, .wait 27, .stop]).map
          fun later => (later.1, continued shown.2 later.2) := by
  intro settings script
  have found : (Scheduler.run settings script {} [.start, .wait 25, .stop, .wait 3])[3]?.map
      (fun shown => (shown.2.session, shown.2.ledger.begun, shown.2.now)) = some (none, 2, 58) := by
    decide
  obtain ⟨shown, last, told⟩ := Option.map_eq_some_iff.mp found
  obtain ⟨stopped, told⟩ := Prod.mk.inj told
  obtain ⟨begun, time⟩ := Prod.mk.inj told
  exact ⟨shown, List.mem_of_getElem? last, stopped, begun, time, stopped_like_fresh stopped _⟩

end MessagePress.Proofs.FreshSessions
