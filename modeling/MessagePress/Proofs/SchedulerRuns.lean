import MessagePress.Proofs.SessionCourse
import MessagePress.Schedule.Scheduler

/-! Runs of a scheduler. Wherever its commands lead while it runs, the session has taken the
course of its events from the last start to now, and a stop ends the flights that are left. -/

namespace MessagePress.Proofs.SchedulerRuns
open Schedule SessionRecords SessionCourse

variable {settings : Settings} {script : Script} {scheduler : Scheduler} {session : Session}

/-- The first flights to end, at most so many, in the order of their ends. -/
def departures : Nat → List Flight → List Flight
  | 0, _ => []
  | count + 1, flights =>
    match Session.earliest flights with
    | some (flight, others) => flight :: departures count others
    | none => []

@[simp] def landed (flight : Flight) : Occurrence := .ended flight.ends flight.ending

theorem drain_eq (count : Nat) (flights : List Flight) (ledger : Ledger) :
    Session.drain count flights ledger = entered ledger ((departures count flights).map landed) := by
  induction count generalizing flights ledger with
  | zero => rfl
  | succ count ih =>
    cases first : Session.earliest flights with
    | none => simp [Session.drain, departures, first]
    | some best =>
      simp only [Session.drain, departures, first, List.map_cons, entered_cons]
      exact ih best.2 _

theorem departures_perm {count : Nat} {flights : List Flight} (enough : count ≤ flights.length) :
    (departures count flights).length = count ∧
      ∃ left, flights.Perm (departures count flights ++ left) := by
  induction count generalizing flights with
  | zero => exact ⟨rfl, flights, List.Perm.refl _⟩
  | succ count ih =>
    cases first : Session.earliest flights with
    | none =>
      rw [earliest_eq_none.mp first] at enough
      cases enough
    | some best =>
      obtain ⟨flight, others⟩ := best
      have length := earliest_length first
      obtain ⟨counted, left, same⟩ := @ih others (by omega)
      simp only [departures, first, List.length_cons, counted, true_and]
      exact ⟨left, (earliest_perm first).trans (same.cons flight)⟩

theorem departures_mem {count : Nat} {flights : List Flight} {flight : Flight}
    (enough : count ≤ flights.length) (member : flight ∈ departures count flights) :
    flight ∈ flights := by
  obtain ⟨-, left, same⟩ := departures_perm enough
  exact same.mem_iff.mpr (List.mem_append_left left member)

theorem departures_ordered {count : Nat} {flights : List Flight} (enough : count ≤ flights.length) :
    (departures count flights).Pairwise fun earlier later => earlier.ends ≤ later.ends := by
  induction count generalizing flights with
  | zero => exact List.Pairwise.nil
  | succ count ih =>
    cases first : Session.earliest flights with
    | none =>
      rw [earliest_eq_none.mp first] at enough
      cases enough
    | some best =>
      obtain ⟨flight, others⟩ := best
      have length := earliest_length first
      obtain ⟨-, least⟩ := earliest_eq_some first
      have fewer : count ≤ others.length := by omega
      simp only [departures, first, List.pairwise_cons]
      exact ⟨fun other member => least other (departures_mem fewer member), ih fewer⟩

theorem departures_all (flights : List Flight) : (departures flights.length flights).Perm flights := by
  obtain ⟨counted, left, same⟩ := @departures_perm flights.length flights (Nat.le_refl _)
  have none_left : left = [] := by
    have length := same.length_eq
    rw [List.length_append, counted] at length
    exact List.eq_nil_of_length_eq_zero (by omega)
  rw [none_left, List.append_nil] at same
  exact same.symm

private theorem latest_bounds (time : Nat) (flights : List Flight) :
    time ≤ flights.foldl (fun latest flight => max latest flight.ends) time ∧
      ∀ flight ∈ flights, flight.ends ≤ flights.foldl (fun latest flight => max latest flight.ends) time := by
  induction flights generalizing time with
  | nil => exact ⟨Nat.le_refl _, fun _ member => nomatch member⟩
  | cons first rest ih =>
    obtain ⟨later, bounds⟩ := ih (max time first.ends)
    refine ⟨Nat.le_trans (Nat.le_max_left _ _) later, ?_⟩
    intro flight member
    rcases List.mem_cons.mp member with rfl | member
    · exact Nat.le_trans (Nat.le_max_right _ _) later
    · exact bounds flight member

theorem le_lastEnd (time : Nat) (session : Session) : time ≤ session.lastEnd time :=
  (latest_bounds time session.flights).1

theorem ends_le_lastEnd (time : Nat) {session : Session} {flight : Flight}
    (member : flight ∈ session.flights) : flight.ends ≤ session.lastEnd time :=
  (latest_bounds time session.flights).2 flight member

theorem lastEnd_cases (time : Nat) (session : Session) :
    session.lastEnd time = time ∨ ∃ flight ∈ session.flights, flight.ends = session.lastEnd time := by
  rw [Session.lastEnd]
  induction session.flights generalizing time with
  | nil => exact Or.inl rfl
  | cons flight rest ih =>
    simp only [List.foldl_cons]
    rcases ih (max time flight.ends) with same | ⟨other, member, same⟩
    · rw [same]
      rcases Nat.le_total time flight.ends with before | behind
      · exact Or.inr ⟨flight, List.mem_cons_self, (Nat.max_eq_right before).symm⟩
      · exact Or.inl (Nat.max_eq_left behind)
    · exact Or.inr ⟨other, List.mem_cons_of_mem _ member, same⟩

def closing (time count : Nat) (session : Session) : List Occurrence :=
  session.queue.map (Occurrence.discarded time) ++ (departures count session.flights).map landed

theorem drain_discard (time count : Nat) (session : Session) (ledger : Ledger) :
    Session.drain count session.flights (ledger.discard time session.queue) =
      entered ledger (closing time count session) := by
  rw [drain_eq, discard_eq, ← entered_append, closing]

@[simp] theorem filterMap_closing {α : Type} (piece : Occurrence → Option α) (time count : Nat)
    (session : Session) :
    (closing time count session).filterMap piece =
      session.queue.filterMap (fun job => piece (.discarded time job)) ++
        (departures count session.flights).filterMap fun flight => piece (landed flight) := by
  simp [closing, Function.comp_def]

def closed (scheduler : Scheduler) (session : Session) : Scheduler where
  now := session.lastEnd scheduler.now
  session := none
  ledger := entered scheduler.ledger
    (closing scheduler.now session.flights.length session ++ [.stopped (session.lastEnd scheduler.now)])

theorem stop_eq (running : scheduler.session = some session) :
    scheduler.stop = .ok (closed scheduler session) := by
  simp [Scheduler.stop, running, closed, drain_discard, enter]

private theorem closing_unstarted (time count now : Nat) (session : Session) :
    (closing time count session ++ [Occurrence.stopped now]).filterMap start? = [] := by
  simp [List.filterMap_cons]

theorem closed_record (scheduler : Scheduler) (session : Session) :
    sessionRecord (closed scheduler session).ledger = sessionRecord scheduler.ledger ++
      (closing scheduler.now session.flights.length session ++
        [.stopped (session.lastEnd scheduler.now)]) :=
  sessionRecord_entered (closing_unstarted scheduler.now _ _ session)

theorem closed_lastStart (scheduler : Scheduler) (session : Session) :
    lastStart (closed scheduler session).ledger = lastStart scheduler.ledger :=
  lastStart_entered (closing_unstarted scheduler.now _ _ session)

theorem start_record {after : Scheduler} (started : scheduler.start settings = .ok after) :
    lastStart after.ledger = scheduler.now ∧ sessionRecord after.ledger = [] := by
  cases running : scheduler.session with
  | none =>
    simp only [Scheduler.start, running, Except.ok.injEq] at started
    subst started
    exact ⟨rfl, rfl⟩
  | some session => simp [Scheduler.start, running] at started

theorem obey_start (stopped : scheduler.session = none) :
    (scheduler.obey settings script .start).2 =
      { scheduler with
        session := some (.start settings scheduler.now)
        ledger := scheduler.ledger.note (.started scheduler.now) } := by
  simp [Scheduler.obey, Scheduler.start, Scheduler.obey.attempt, stopped]

theorem start_refused (running : scheduler.session = some session) :
    scheduler.obey settings script .start = (some .alreadyRunning, scheduler) := by
  simp [Scheduler.obey, Scheduler.start, Scheduler.obey.attempt, running]

theorem obey_start_running (running : scheduler.session = some session) :
    (scheduler.obey settings script .start).2 = scheduler := congrArg Prod.snd (start_refused running)

theorem stop_obeyed (running : scheduler.session = some session) :
    scheduler.obey settings script .stop = (none, closed scheduler session) := by
  simp [Scheduler.obey, Scheduler.obey.attempt, stop_eq running]

theorem obey_stop (running : scheduler.session = some session) :
    (scheduler.obey settings script .stop).2 = closed scheduler session :=
  congrArg Prod.snd (stop_obeyed running)

theorem stop_refused (stopped : scheduler.session = none) :
    scheduler.obey settings script .stop = (some .notRunning, scheduler) := by
  simp [Scheduler.obey, Scheduler.stop, Scheduler.obey.attempt, stopped]

theorem obey_stop_stopped (stopped : scheduler.session = none) :
    (scheduler.obey settings script .stop).2 = scheduler := congrArg Prod.snd (stop_refused stopped)

theorem wait_stopped (stopped : scheduler.session = none) (duration : Nat) :
    scheduler.wait settings script duration = { scheduler with now := scheduler.now + duration } := by
  simp [Scheduler.wait, stopped]

theorem wait_running (running : scheduler.session = some session) (duration : Nat) :
    scheduler.wait settings script duration =
      ⟨scheduler.now + duration,
        some (session.runUntil settings script (scheduler.now + duration) scheduler.ledger).1,
        (session.runUntil settings script (scheduler.now + duration) scheduler.ledger).2⟩ := by
  simp [Scheduler.wait, running]

/-- A state that a new scheduler comes to by obeying commands. -/
inductive Reached (settings : Settings) (script : Script) : Scheduler → Prop
  | fresh : Reached settings script {}
  | obeyed {scheduler : Scheduler} (command : Command) : Reached settings script scheduler →
    Reached settings script (scheduler.obey settings script command).2

private theorem Reached.run {commands : List Command} {shown : Option Fault × Scheduler}
    (reached : Reached settings script scheduler)
    (member : shown ∈ scheduler.run settings script commands) : Reached settings script shown.2 := by
  induction commands generalizing scheduler with
  | nil => cases member
  | cons command rest ih =>
    have next := reached.obeyed command
    simp only [Scheduler.run, List.mem_cons] at member
    rcases member with rfl | member
    · exact next
    · exact ih next member

theorem reached_of_shown {commands : List Command} {fault : Option Fault}
    (shown : (fault, scheduler) ∈ Scheduler.run settings script {} commands) :
    Reached settings script scheduler :=
  Reached.fresh.run shown

/-- What holds of a new scheduler, and is kept by each command that changes something, holds of
every state it comes to. -/
theorem Reached.keeps (holds : Scheduler → Prop) (fresh : holds {})
    (starts : ∀ {scheduler}, scheduler.session = none → holds scheduler → holds
      { scheduler with
        session := some (.start settings scheduler.now)
        ledger := scheduler.ledger.note (.started scheduler.now) })
    (passes : ∀ {scheduler} duration, scheduler.session = none → holds scheduler →
      holds { scheduler with now := scheduler.now + duration })
    (waits : ∀ {scheduler session} duration, Reached settings script scheduler →
      scheduler.session = some session → holds scheduler →
      holds (scheduler.wait settings script duration))
    (stops : ∀ {scheduler session}, Reached settings script scheduler →
      scheduler.session = some session → holds scheduler → holds (closed scheduler session))
    (reached : Reached settings script scheduler) : holds scheduler := by
  induction reached with
  | fresh => exact fresh
  | @obeyed scheduler command reached ih =>
    cases before : scheduler.session with
    | none =>
      cases command with
      | start =>
        rw [obey_start before]
        exact starts before ih
      | stop => rwa [obey_stop_stopped before]
      | wait duration =>
        change holds (scheduler.wait settings script duration)
        rw [wait_stopped before]
        exact passes duration before ih
    | some session =>
      cases command with
      | start => rwa [obey_start_running before]
      | stop =>
        rw [obey_stop before]
        exact stops reached before ih
      | wait duration => exact waits duration reached before ih

/-- What has gone on since the session started. -/
structure Underway (settings : Settings) (script : Script) (scheduler : Scheduler) (session : Session) :
    Prop where
  course : ∃ time origin, Course settings script scheduler.now
    ⟨lastStart scheduler.ledger, .start settings (lastStart scheduler.ledger), origin⟩
    (sessionRecord scheduler.ledger) ⟨time, session, scheduler.ledger⟩
  started : lastStart scheduler.ledger ≤ scheduler.now
  tick : scheduler.now ≤ session.nextTick
  flights : ∀ flight ∈ session.flights, scheduler.now ≤ flight.ends

theorem start_settled (settings : Settings) (time : Nat) : Settled (.start settings time) := Or.inl rfl

theorem Underway.settled (underway : Underway settings script scheduler session) : Settled session := by
  obtain ⟨time, origin, course⟩ := underway.course
  exact course.settled (start_settled settings _)

theorem course_unstarted {limit : Nat} {origin moment : Moment} {record : List Occurrence}
    (course : Course settings script limit origin record moment) : record.filterMap start? = [] := by
  refine course.keeps (fun _ record => record.filterMap start? = []) rfl ?_ ?_
  · intro moment next record added event none_before
    cases event <;> simpa [List.filterMap_cons] using none_before
  · intro moment next record added service none_before
    cases service with
    | discarded => simpa [Function.comp_def] using none_before
    | _ => simpa [List.filterMap_cons] using none_before

theorem Underway.runSteps (underway : Underway settings script scheduler session) {limit : Nat}
    (later : scheduler.now ≤ limit) (steps : Nat) :
    ∃ time origin added,
      (session.runSteps settings script limit steps scheduler.ledger).2 = entered scheduler.ledger added ∧
      lastStart (entered scheduler.ledger added) = lastStart scheduler.ledger ∧
      sessionRecord (entered scheduler.ledger added) = sessionRecord scheduler.ledger ++ added ∧
      Course settings script limit
        ⟨lastStart scheduler.ledger, .start settings (lastStart scheduler.ledger), origin⟩
        (sessionRecord scheduler.ledger ++ added)
        ⟨time, (session.runSteps settings script limit steps scheduler.ledger).1,
          (session.runSteps settings script limit steps scheduler.ledger).2⟩ := by
  obtain ⟨_, origin, course⟩ := underway.course
  obtain ⟨time, added, onward⟩ :=
    runSteps_course steps (start_settled settings _) (course.later later)
  have ledger := onward.ledger
  rw [entered_append, ← course.ledger] at ledger
  have unstarted := course_unstarted onward
  rw [List.filterMap_append, List.append_eq_nil_iff] at unstarted
  exact ⟨time, origin, added, ledger, lastStart_entered unstarted.2,
    sessionRecord_entered unstarted.2, onward⟩

theorem Underway.wait (underway : Underway settings script scheduler session) (duration : Nat)
    (running : scheduler.session = some session) :
    ∃ after added, (scheduler.wait settings script duration).session = some after ∧
      Underway settings script (scheduler.wait settings script duration) after ∧
      (scheduler.wait settings script duration).ledger = entered scheduler.ledger added ∧
      sessionRecord (scheduler.wait settings script duration).ledger =
        sessionRecord scheduler.ledger ++ added := by
  rw [wait_running running]
  obtain ⟨tick, flights⟩ :=
    runUntil_rest settings script (scheduler.now + duration) scheduler.ledger underway.settled
  obtain ⟨time, origin, added, ledger, start, record, onward⟩ :=
    underway.runSteps (Nat.le_add_right scheduler.now duration)
      (2 * session.ticksBefore settings (scheduler.now + duration) + session.queue.length +
        session.flights.length)
  change (session.runUntil settings script (scheduler.now + duration) scheduler.ledger).2 = _ at ledger
  change Course _ _ _ _ _
    ⟨time, (session.runUntil settings script (scheduler.now + duration) scheduler.ledger).1,
      (session.runUntil settings script (scheduler.now + duration) scheduler.ledger).2⟩ at onward
  refine ⟨_, added, rfl, ⟨⟨time, origin, ?_⟩, ?_, tick, flights⟩, ledger, by rw [ledger, record]⟩
  · rw [ledger] at onward
    simp only [ledger, start, record]
    exact onward
  · simp only [ledger, start]
    exact Nat.le_trans underway.started (Nat.le_add_right _ _)

theorem Underway.onward (underway : Underway settings script scheduler session)
    (running : scheduler.session = some session) (duration : Nat) :
    ∃ time after added,
      scheduler.wait settings script duration =
        ⟨scheduler.now + duration, some after, entered scheduler.ledger added⟩ ∧
      Course settings script (scheduler.now + duration) ⟨scheduler.now, session, scheduler.ledger⟩ added
        ⟨time, after, entered scheduler.ledger added⟩ := by
  have still : Course settings script (scheduler.now + duration)
      ⟨scheduler.now, session, scheduler.ledger⟩ [] ⟨scheduler.now, session, scheduler.ledger⟩ := .rest
  obtain ⟨time, added, course⟩ := runSteps_course
    (2 * session.ticksBefore settings (scheduler.now + duration) + session.queue.length +
      session.flights.length) underway.settled still
  change Course settings script (scheduler.now + duration) ⟨scheduler.now, session, scheduler.ledger⟩ added
    ⟨time, (session.runUntil settings script (scheduler.now + duration) scheduler.ledger).1,
      (session.runUntil settings script (scheduler.now + duration) scheduler.ledger).2⟩ at course
  have ledger := course.ledger
  simp only at ledger
  rw [ledger] at course
  refine ⟨time, _, added, ?_, course⟩
  rw [wait_running running, ledger]

theorem Reached.underway (reached : Reached settings script scheduler)
    (running : scheduler.session = some session) : Underway settings script scheduler session := by
  refine reached.keeps (fun scheduler => ∀ session, scheduler.session = some session →
    Underway settings script scheduler session) ?fresh ?starts ?passes ?waits ?stops session running
  case fresh =>
    intro session running
    cases running
  case starts =>
    intro scheduler _ _ session running
    cases running
    exact ⟨⟨scheduler.now, _, .rest⟩, Nat.le_refl _, Nat.le_refl _, fun _ member => nomatch member⟩
  case passes =>
    intro scheduler duration stopped _ session running
    exact absurd (stopped.symm.trans running) nofun
  case waits =>
    intro scheduler earlier duration _ before ih session running
    obtain ⟨after, added, found, onward, -⟩ := (ih earlier before).wait duration before
    cases found.symm.trans running
    exact onward
  case stops =>
    intro scheduler earlier _ _ _ session running
    cases running

/-- Whatever a scheduler is told to do, its ledger keeps what it holds. -/
theorem Reached.obey_entered (reached : Reached settings script scheduler) (command : Command) :
    ∃ added, (scheduler.obey settings script command).2.ledger = entered scheduler.ledger added := by
  cases before : scheduler.session with
  | none =>
    cases command with
    | start =>
      rw [obey_start before]
      exact ⟨[.started scheduler.now], rfl⟩
    | stop =>
      rw [obey_stop_stopped before]
      exact ⟨[], rfl⟩
    | wait duration =>
      change ∃ added, (scheduler.wait settings script duration).ledger = entered scheduler.ledger added
      rw [wait_stopped before]
      exact ⟨[], rfl⟩
  | some session =>
    cases command with
    | start =>
      rw [obey_start_running before]
      exact ⟨[], rfl⟩
    | stop =>
      rw [obey_stop before]
      exact ⟨_, rfl⟩
    | wait duration =>
      obtain ⟨time, after, added, result, -⟩ := (reached.underway before).onward before duration
      exact ⟨added, congrArg Scheduler.ledger result⟩

end MessagePress.Proofs.SchedulerRuns
