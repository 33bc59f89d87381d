import MessagePress.Proofs.TickTimes

/-! Runs that begin in time. Where every run is over within as many intervals as there are
workers, a tick always finds an idle worker: of the flights that began in the intervals before
it, the oldest has landed. -/

namespace MessagePress.Proofs.PunctualRuns
open Schedule SessionRecords SessionCourse SchedulerRuns TickTimes

variable {settings : Settings} {script : Script} {scheduler : Scheduler} {start limit : Nat}

/-- No run panics, and each is over before as many intervals have passed as there are workers. -/
def Steady (settings : Settings) (script : Script) : Prop :=
  ∀ number, (script number).ending ≠ .panic ∧
    (script number).duration < settings.workers * settings.interval

/-- Each flight ends before a bound by an interval for itself, for each flight that has begun
after it, and for each of so many that are still to begin. -/
def Staggered (interval bound coming : Nat) : List Flight → Prop
  | [] => True
  | flight :: rest =>
    flight.ends + (rest.length + 1 + coming) * interval < bound ∧ Staggered interval bound coming rest

variable {interval bound coming : Nat} {flights : List Flight}

theorem Staggered.fewer (staggered : Staggered interval bound (coming + 1) flights) :
    Staggered interval bound coming flights := by
  induction flights with
  | nil => trivial
  | cons flight rest ih =>
    refine ⟨?_, ih staggered.2⟩
    have ahead := staggered.1
    rw [← Nat.add_assoc, Nat.succ_mul] at ahead
    omega

theorem Staggered.later (staggered : Staggered interval bound coming flights) :
    Staggered interval (bound + interval) (coming + 1) flights := by
  induction flights with
  | nil => trivial
  | cons flight rest ih =>
    refine ⟨?_, ih staggered.2⟩
    have ahead := staggered.1
    rw [← Nat.add_assoc, Nat.succ_mul]
    omega

theorem Staggered.join {flight : Flight} (staggered : Staggered interval bound (coming + 1) flights)
    (ahead : flight.ends + (coming + 1) * interval < bound) :
    Staggered interval bound coming (flights ++ [flight]) := by
  induction flights with
  | nil =>
    refine ⟨?_, trivial⟩
    rw [List.length_nil, Nat.zero_add, Nat.add_comm 1]
    exact ahead
  | cons other rest ih =>
    refine ⟨?_, ih staggered.2⟩
    have same : (rest ++ [flight]).length + 1 + coming = rest.length + 1 + (coming + 1) := by
      rw [List.length_append, List.length_singleton]
      omega
    change other.ends + ((rest ++ [flight]).length + 1 + coming) * interval < bound
    rw [same]
    exact staggered.1

theorem Staggered.leave {before after : List Flight} {flight : Flight}
    (staggered : Staggered interval bound coming (before ++ flight :: after)) :
    Staggered interval bound coming (before ++ after) := by
  induction before with
  | nil => exact staggered.2
  | cons other before ih =>
    refine ⟨Nat.lt_of_le_of_lt ?_ staggered.1, ih staggered.2⟩
    have fewer : (before ++ after).length + 1 + coming ≤
        (before ++ flight :: after).length + 1 + coming := by
      simp only [List.length_append, List.length_cons]
      omega
    exact Nat.add_le_add_left (Nat.mul_le_mul_right interval fewer) _

/-- Flights that are still to land at a time have begun in fewer intervals before it than the
bound allows. -/
theorem Staggered.length_lt {time workers : Nat} (positive : 0 < workers)
    (staggered : Staggered interval (time + workers * interval) 0 flights)
    (flying : ∀ flight ∈ flights, time ≤ flight.ends) : flights.length < workers := by
  cases flights with
  | nil => exact positive
  | cons flight rest =>
    have ahead := staggered.1
    have later := flying flight List.mem_cons_self
    have less : (rest.length + 1) * interval < workers * interval := by
      rw [Nat.add_zero] at ahead
      omega
    exact Nat.lt_of_mul_lt_mul_right less

/-- A session whose ticks have all led to a run at once, but for a tick that has just come. -/
structure Punctual (settings : Settings) (start : Nat) (moment : Moment) (record : List Occurrence) :
    Prop where
  runs : ∃ count, moment.session.nextTick = start + count * settings.interval ∧
    record.filterMap run? ++ moment.session.queue.map (fun tick => (tick, tick)) =
      (firstTicks settings start count).map fun tick => (tick, tick)
  staffed : moment.session.idle + moment.session.flights.length = settings.workers
  sound : ∀ flight ∈ moment.session.flights, flight.ending ≠ .panic
  staggered : Staggered settings.interval
    (moment.session.nextTick + settings.workers * settings.interval) moment.session.queue.length
    moment.session.flights
  waiting : moment.session.queue = [] ∨ moment.session.queue = [moment.time] ∧
    moment.session.idle ≠ 0 ∧ moment.session.nextTick = moment.time + settings.interval
  heard : record.filterMap refusal? = [] ∧ record.filterMap discard? = []

theorem Punctual.settled {moment : Moment} {record : List Occurrence}
    (punctual : Punctual settings start moment record) (settled : Settled moment.session) :
    moment.session.queue = [] := by
  rcases settled with empty | ⟨busy, _⟩
  · exact empty
  · rcases punctual.waiting with empty | ⟨_, idle, _⟩
    · exact empty
    · exact absurd busy idle

theorem Punctual.event {moment next : Moment} {record added : List Occurrence}
    (punctual : Punctual settings start moment record)
    (event : Event settings limit moment added next) :
    Punctual settings start next (record ++ added) := by
  obtain ⟨count, phase, runs⟩ := punctual.runs
  have staffed := punctual.staffed
  have positive := settings.workers_pos
  have heard := punctual.heard
  cases event with
  | unheard due gone =>
    simp only [Session.live] at gone
    omega
  | dropped due alive full =>
    rw [punctual.settled due.settled, List.length_nil] at full
    omega
  | queued due alive room =>
    have empty := punctual.settled due.settled
    have staggered := punctual.staggered
    rw [empty, List.length_nil] at staggered
    -- Fewer flights than workers are left by the tick, so a worker is idle.
    have free := staggered.length_lt positive due.first
    refine ⟨⟨count + 1, ?_, ?_⟩, staffed, punctual.sound, ?_, Or.inr ⟨?_, ?_, rfl⟩, ?_⟩
    · rw [Nat.succ_mul, ← Nat.add_assoc, ← phase]
      rfl
    · rw [empty, List.map_nil, List.append_nil] at runs
      simp [firstTicks_succ, List.filterMap_cons, empty, runs, phase]
    · have later := staggered.later
      simp only [ticked_nextTick, ticked_flights, empty, List.nil_append, List.length_singleton]
      rwa [Nat.add_right_comm] at later
    · simp [empty]
    · simp only [ticked_idle]
      omega
    · simpa [List.filterMap_cons] using heard
  | @landed flight others settled first =>
    have empty := punctual.settled settled
    have length := earliest_length first
    have same := earliest_perm first
    have sound : flight.ending ≠ .panic :=
      punctual.sound flight (same.mem_iff.mpr List.mem_cons_self)
    obtain ⟨⟨before, after, whole, left⟩, -⟩ := earliest_eq_some first
    refine ⟨⟨count, phase, ?_⟩, ?_, ?_, ?_, Or.inl empty, ?_⟩
    · simpa [List.filterMap_cons] using runs
    · simp only [if_neg sound]
      omega
    · intro other member
      exact punctual.sound other (same.mem_iff.mpr (List.mem_cons_of_mem flight member))
    · have staggered := punctual.staggered
      rw [whole] at staggered
      rw [left]
      exact staggered.leave
    · simpa [List.filterMap_cons] using heard

theorem Punctual.service {moment next : Moment} {record added : List Occurrence}
    (steady : Steady settings script) (punctual : Punctual settings start moment record)
    (service : Service script moment added next) :
    Punctual settings start next (record ++ added) := by
  obtain ⟨count, phase, runs⟩ := punctual.runs
  have staffed := punctual.staffed
  have positive := settings.workers_pos
  have heard := punctual.heard
  have staggered := punctual.staggered
  cases service with
  | @begun job rest run waiting idle told =>
    obtain ⟨sound, duration⟩ := steady moment.ledger.begun
    rw [told] at sound duration
    obtain ⟨queue, -, next⟩ := punctual.waiting.resolve_left (by simp [waiting])
    obtain ⟨rfl, rfl⟩ : job = moment.time ∧ rest = [] := by simpa [waiting] using queue
    rw [queue, List.length_singleton] at staggered
    refine ⟨⟨count, phase, ?_⟩, ?_, ?_, ?_, Or.inl rfl, ?_⟩
    · rw [queue] at runs
      simpa [List.filterMap_cons] using runs
    · simp only [List.length_append, List.length_singleton]
      omega
    · intro flight member
      rcases List.mem_append.mp member with member | member
      · exact punctual.sound flight member
      · cases List.mem_singleton.mp member
        exact sound
    · -- The new flight is the last, and the next tick leaves it as many intervals as workers.
      apply staggered.join
      simp only
      omega
    · simpa [List.filterMap_cons] using heard
  | @atOnce job rest run waiting idle told =>
    obtain ⟨sound, -⟩ := steady moment.ledger.begun
    rw [told] at sound
    obtain ⟨queue, -, next⟩ := punctual.waiting.resolve_left (by simp [waiting])
    obtain ⟨rfl, rfl⟩ : job = moment.time ∧ rest = [] := by simpa [waiting] using queue
    rw [queue, List.length_singleton] at staggered
    refine ⟨⟨count, phase, ?_⟩, ?_, punctual.sound, staggered.fewer, Or.inl rfl, ?_⟩
    · rw [queue] at runs
      simpa [List.filterMap_cons] using runs
    · simpa only [if_neg sound] using staffed
    · simpa [List.filterMap_cons] using heard
  | discarded gone =>
    simp only [Session.live] at gone
    omega

theorem punctual_start (settings : Settings) (start : Nat) (ledger : Ledger) :
    Punctual settings start ⟨start, .start settings start, ledger⟩ [] where
  runs := ⟨0, by simp [Session.start], rfl⟩
  staffed := rfl
  sound := fun _ member => nomatch member
  staggered := trivial
  waiting := Or.inl rfl
  heard := ⟨rfl, rfl⟩

theorem course_punctual {origin : Ledger} {moment : Moment} {record : List Occurrence}
    (steady : Steady settings script)
    (course : Course settings script limit ⟨start, .start settings start, origin⟩ record moment) :
    Punctual settings start moment record :=
  course.keeps _ (punctual_start settings start origin) (fun event held => held.event event)
    (fun service held => held.service steady service)

/-- A record has one run for every tick before a limit, at the time of the tick and for its job,
and nothing was dropped or given up. -/
structure OnTime (settings : Settings) (start limit : Nat) (record : List Occurrence) : Prop where
  runs : ∀ index, (record.filterMap run?)[index]? =
    if start + index * settings.interval < limit then
      some (start + index * settings.interval, start + index * settings.interval)
    else none
  dropped : record.filterMap refusal? = []
  discarded : record.filterMap discard? = []

theorem underway_onTime {session : Session} (steady : Steady settings script)
    (underway : Underway settings script scheduler session) :
    session.queue = [] ∧
      OnTime settings (lastStart scheduler.ledger) scheduler.now (sessionRecord scheduler.ledger) := by
  obtain ⟨time, origin, course⟩ := underway.course
  have punctual := course_punctual steady course
  have empty : session.queue = [] := punctual.settled underway.settled
  obtain ⟨count, next, runs⟩ := punctual.runs
  rw [← ticks_come (course_timely course) underway.started underway.tick next] at runs
  simp only [empty, List.map_nil, List.append_nil] at runs
  refine ⟨empty, ?_, punctual.heard.1, punctual.heard.2⟩
  intro index
  rw [runs, List.getElem?_map, ticks_getElem?]
  split <;> rfl

theorem reached_undropped (steady : Steady settings script)
    (reached : Reached settings script scheduler) : scheduler.ledger.statistics.dropped = 0 := by
  apply reached.keeps fun scheduler => scheduler.ledger.statistics.dropped = 0
  case fresh => rfl
  case starts =>
    intro scheduler _ none_dropped
    exact none_dropped
  case passes =>
    intro scheduler duration _ none_dropped
    exact none_dropped
  case waits =>
    intro scheduler session duration reached before none_dropped
    obtain ⟨after, added, -, onward, ledger, record⟩ :=
      (reached.underway before).wait duration before
    have refused := (underway_onTime steady onward).2.dropped
    rw [record, List.filterMap_append, List.append_eq_nil_iff] at refused
    rw [ledger, entered_dropped, none_dropped, refused.2]
    rfl
  case stops =>
    intro scheduler session _ _ none_dropped
    rw [closed, entered_dropped, none_dropped]
    simp [List.filterMap_cons]

/-- What a scheduler owes to runs that are short enough: no tick is dropped, at no instant does a
job wait, and each run of the session begins at its tick, up to now or to a stop. -/
structure KeepsTime (settings : Settings) (script : Script) (scheduler : Scheduler) : Prop where
  dropped : scheduler.ledger.statistics.dropped = 0
  starting : ∀ after, scheduler.start settings = .ok after →
    lastStart after.ledger = scheduler.now ∧ sessionRecord after.ledger = []
  running : ∀ session, scheduler.session = some session →
    OnTime settings (lastStart scheduler.ledger) scheduler.now (sessionRecord scheduler.ledger)
  waiting : ∀ session, scheduler.session = some session → ∀ duration steps,
    (session.runSteps settings script (scheduler.now + duration) steps scheduler.ledger).1.queue = []
  stopping : ∀ after, scheduler.stop = .ok after →
    OnTime settings (lastStart scheduler.ledger) scheduler.now (sessionRecord after.ledger)

/-- Where no run panics and every run is over within as many intervals as there are workers, the
run of each tick before a stop begins with the tick, in every session of every scheduler. -/
theorem runs_punctual {commands : List Command} {fault : Option Fault} (steady : Steady settings script)
    (shown : (fault, scheduler) ∈ Scheduler.run settings script {} commands) :
    KeepsTime settings script scheduler := by
  have reached := reached_of_shown shown
  refine ⟨reached_undropped steady reached, fun _ => start_record, ?_, ?_, ?_⟩
  · intro session running
    exact (underway_onTime steady (reached.underway running)).2
  · intro session running duration steps
    obtain ⟨time, origin, added, -, -, -, course⟩ :=
      (reached.underway running).runSteps (Nat.le_add_right scheduler.now duration) steps
    exact (course_punctual steady course).settled (course.settled (start_settled settings _))
  · intro after stopped
    cases running : scheduler.session with
    | none => simp [Scheduler.stop, running] at stopped
    | some session =>
      rw [stop_eq running] at stopped
      cases stopped
      obtain ⟨empty, runs, dropped, discarded⟩ :=
        underway_onTime steady (reached.underway running)
      rw [closed_record]
      refine ⟨?_, ?_, ?_⟩
      · simpa [List.filterMap_cons] using runs
      · simpa [List.filterMap_cons] using dropped
      · simpa [List.filterMap_cons, empty] using discarded

/-- Three workers, and runs that take nearly three intervals: the second session. -/
theorem runs_punctual_long :
    let settings : Settings := ⟨10, 3, by decide, by decide⟩
    let script : Script := fun number => if number % 2 = 0 then ⟨29, .success⟩ else ⟨29, .failure "late"⟩
    Steady settings script ∧
      ∃ shown ∈ Scheduler.run settings script {} [.start, .wait 45, .stop, .start, .wait 35],
        (sessionRecord shown.2.ledger).filterMap run? = [(69, 69), (79, 79), (89, 89), (99, 99)] ∧
        KeepsTime settings script shown.2 := by
  intro settings script
  have steady : Steady settings script := by
    intro number
    by_cases even : number % 2 = 0
    · simp [script, settings, even]
    · simp [script, settings, even]
  have found : (Scheduler.run settings script {} [.start, .wait 45, .stop, .start, .wait 35])[4]?.map
      (fun shown => (sessionRecord shown.2.ledger).filterMap run?) =
        some [(69, 69), (79, 79), (89, 89), (99, 99)] := by
    decide
  obtain ⟨shown, last, recorded⟩ := Option.map_eq_some_iff.mp found
  have member := List.mem_of_getElem? last
  exact ⟨steady, shown, member, recorded, runs_punctual steady member⟩

end MessagePress.Proofs.PunctualRuns
