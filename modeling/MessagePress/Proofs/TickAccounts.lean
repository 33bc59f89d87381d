import MessagePress.Proofs.TickTimes

/-! What becomes of ticks. Every tick that a worker is left to hear puts a job into the queue or
is dropped, jobs leave the queue in the order in which they came, and none of them is run twice
or lost without a word in the record. -/

namespace MessagePress.Proofs.TickAccounts
open Schedule SessionRecords SessionCourse SchedulerRuns TickTimes

variable {settings : Settings} {script : Script} {scheduler : Scheduler} {start limit : Nat}

theorem arrivals_perm (record : List Occurrence) :
    (record.filterMap arrival?).Perm (record.filterMap acceptance? ++ record.filterMap refusal?) := by
  induction record with
  | nil => exact List.Perm.refl _
  | cons occurrence record ih =>
    cases occurrence with
    | queued time => exact ih.cons time
    | dropped time => exact (ih.cons time).trans List.perm_middle.symm
    | _ => exact ih

theorem acceptances_sublist (record : List Occurrence) :
    (record.filterMap acceptance?).Sublist (record.filterMap arrival?) := by
  induction record with
  | nil => exact List.Sublist.slnil
  | cons occurrence record ih =>
    cases occurrence with
    | queued time => exact ih.cons_cons time
    | dropped time => exact ih.cons time
    | _ => exact ih

/-- A record has those of the ticks before the next one that found a worker alive. -/
def Heard (settings : Settings) (start next : Nat) (record : List Occurrence) : Prop :=
  ∃ count, next = start + count * settings.interval ∧
    record.filterMap arrival? =
      (firstTicks settings start count).filter fun tick => lost record tick < settings.workers

variable {record added : List Occurrence} {next time : Nat}

/-- A loss is of no account to the ticks before it. -/
private theorem lost_later {ticks : List Nat} (before : ∀ tick ∈ ticks, tick ≤ time)
    (later : ∀ landing ∈ added.filterMap landing?, time ≤ landing.1) :
    (ticks.filter fun tick => lost (record ++ added) tick < settings.workers) =
      ticks.filter fun tick => lost record tick < settings.workers := by
  apply List.filter_congr
  intro tick member
  have none_more : lost added tick = 0 := by
    apply lost_eq_zero
    intro landing inside
    exact Nat.le_trans (before tick member) (later landing inside)
  rw [lost_append, none_more, Nat.add_zero]

private theorem Heard.silent (heard : Heard settings start next record)
    (recent : next ≤ time + settings.interval) (none_heard : added.filterMap arrival? = [])
    (later : ∀ landing ∈ added.filterMap landing?, time ≤ landing.1) :
    Heard settings start next (record ++ added) := by
  obtain ⟨count, same, heard⟩ := heard
  have past : ∀ tick ∈ firstTicks settings start count, tick ≤ time := by
    intro tick member
    have bound := firstTicks_before member
    omega
  refine ⟨count, same, ?_⟩
  rw [lost_later past later, ← heard, List.filterMap_append, none_heard, List.append_nil]

private theorem Heard.tick (heard : Heard settings start next record)
    (earlier : ∀ landing ∈ record.filterMap landing?, landing.1 < next)
    (none_landed : added.filterMap landing? = [])
    (noticed : added.filterMap arrival? = if panics record < settings.workers then [next] else []) :
    Heard settings start (next + settings.interval) (record ++ added) := by
  obtain ⟨count, rfl, heard⟩ := heard
  have past : ∀ tick ∈ firstTicks settings start count, tick ≤ start + count * settings.interval := by
    intro tick member
    exact Nat.le_of_add_right_le (firstTicks_before member)
  have known : lost (record ++ added) (start + count * settings.interval) = panics record := by
    rw [lost_append, lost_eq_panics earlier]
    simp [lost, none_landed]
  refine ⟨count + 1, by rw [Nat.succ_mul]; omega, ?_⟩
  rw [firstTicks_succ, List.filter_append, lost_later past (by simp [none_landed]), ← heard,
    List.filterMap_append, noticed]
  by_cases alive : panics record < settings.workers
  · simp [known, alive]
  · simp [known, alive]

/-- The state of a session agrees with its record. -/
structure Accounts (settings : Settings) (start : Nat) (moment : Moment) (record : List Occurrence) :
    Prop where
  heard : Heard settings start moment.session.nextTick record
  queue : record.filterMap acceptance? =
    (record.filterMap run?).map Prod.snd ++ (record.filterMap discard?).map Prod.snd ++ moment.session.queue
  live : moment.session.live + panics record = settings.workers
  discarded : ∀ discard ∈ record.filterMap discard?, settings.workers ≤ lost record (discard.1 + 1)

private theorem discarded_kept
    (discarded : ∀ discard ∈ record.filterMap discard?, settings.workers ≤ lost record (discard.1 + 1)) :
    ∀ discard ∈ record.filterMap discard?, settings.workers ≤ lost (record ++ added) (discard.1 + 1) := by
  intro discard member
  rw [lost_append]
  exact Nat.le_trans (discarded discard member) (Nat.le_add_right _ _)

theorem Accounts.discards_nil {moment : Moment} (accounts : Accounts settings start moment record)
    (alive : moment.session.live ≠ 0) : record.filterMap discard? = [] := by
  apply List.eq_nil_iff_forall_not_mem.mpr
  intro discard member
  have all := accounts.discarded discard member
  have some_left := lost_le_panics record (discard.1 + 1)
  have live := accounts.live
  omega

theorem Accounts.event {moment next : Moment} (timely : Timely settings start limit moment record)
    (accounts : Accounts settings start moment record)
    (event : Event settings limit moment added next) :
    Accounts settings start next (record ++ added) := by
  have live := accounts.live
  have queue := accounts.queue
  have discarded := @discarded_kept settings record added accounts.discarded
  have earlier : ∀ landing ∈ record.filterMap landing?, landing.1 < moment.session.nextTick :=
    fun landing member => (timely.endings landing member).2
  cases event with
  | unheard due gone =>
    refine ⟨accounts.heard.tick earlier rfl ?_, ?_, ?_, ?_⟩
    · rw [if_neg (by omega)]
      rfl
    · simpa using queue
    · rwa [panics_kept rfl]
    · simpa using discarded
  | dropped due alive =>
    refine ⟨accounts.heard.tick earlier rfl ?_, ?_, ?_, ?_⟩
    · rw [if_pos (by omega)]
      rfl
    · simpa [List.filterMap_cons] using queue
    · rwa [panics_kept rfl]
    · simpa [List.filterMap_cons] using discarded
  | queued due alive =>
    refine ⟨accounts.heard.tick earlier rfl ?_, ?_, ?_, ?_⟩
    · rw [if_pos (by omega)]
      rfl
    · simp [List.filterMap_cons, queue]
    · rwa [panics_kept rfl]
    · simpa [List.filterMap_cons] using discarded
  | @landed flight others _ first =>
    have length := earliest_length first
    have later : moment.time ≤ flight.ends :=
      timely.flights flight ((earliest_perm first).mem_iff.mpr List.mem_cons_self)
    refine ⟨accounts.heard.silent timely.recent rfl ?_, ?_, ?_, ?_⟩
    · simpa [List.filterMap_cons] using later
    · simpa [List.filterMap_cons] using queue
    · simp only [Session.live, panics_append, panics_ended] at live ⊢
      split <;> omega
    · simpa [List.filterMap_cons] using discarded

theorem Accounts.service {moment next : Moment} (timely : Timely settings start limit moment record)
    (accounts : Accounts settings start moment record)
    (service : Service script moment added next) :
    Accounts settings start next (record ++ added) := by
  have live := accounts.live
  have queue := accounts.queue
  have discarded := @discarded_kept settings record added accounts.discarded
  cases service with
  | @begun job rest run waiting idle =>
    have none_given_up := accounts.discards_nil (by simp only [Session.live]; omega)
    refine ⟨accounts.heard.silent timely.recent rfl ?_, ?_, ?_, ?_⟩
    · simp [List.filterMap_cons]
    · simpa [List.filterMap_cons, none_given_up, waiting] using queue
    · rw [panics_kept rfl]
      simp only [Session.live, List.length_append, List.length_singleton] at live ⊢
      omega
    · simpa [List.filterMap_cons] using discarded
  | @atOnce job rest run waiting idle =>
    have none_given_up := accounts.discards_nil (by simp only [Session.live]; omega)
    refine ⟨accounts.heard.silent timely.recent rfl ?_, ?_, ?_, ?_⟩
    · simp [List.filterMap_cons]
    · simpa [List.filterMap_cons, none_given_up, waiting] using queue
    · have more : panics (record ++ [.begun moment.time job, .ended moment.time run.ending]) =
          panics record + if run.ending = .panic then 1 else 0 := by
        rw [panics_append]
        exact congrArg _ (panics_ended moment.time run.ending)
      rw [more]
      simp only [Session.live] at live ⊢
      split <;> omega
    · simpa [List.filterMap_cons] using discarded
  | discarded gone =>
    refine ⟨accounts.heard.silent timely.recent ?_ ?_, ?_, ?_, ?_⟩
    · simp [Function.comp_def]
    · simp [Function.comp_def]
    · simpa [Function.comp_def] using queue
    · rw [panics_kept (by simp [Function.comp_def])]
      exact live
    · intro discard member
      rw [List.filterMap_append, List.mem_append] at member
      rcases member with member | member
      · exact discarded discard member
      · -- Jobs are given up now, and all the workers have been lost by now.
        have now : discard.1 = moment.time := by
          obtain ⟨occurrence, inside, told⟩ := List.mem_filterMap.mp member
          obtain ⟨job, -, rfl⟩ := List.mem_map.mp inside
          exact (congrArg Prod.fst (Option.some.inj told)).symm
        have all : lost record (moment.time + 1) = panics record :=
          lost_eq_panics fun landing inside => Nat.lt_succ_of_le (timely.endings landing inside).1
        rw [now, lost_append, all]
        omega

private theorem accounts_start (settings : Settings) (start : Nat) (ledger : Ledger) :
    Accounts settings start ⟨start, .start settings start, ledger⟩ [] where
  heard := ⟨0, by simp [Session.start], rfl⟩
  queue := rfl
  live := rfl
  discarded := fun _ member => nomatch member

theorem course_accounts {origin : Ledger} {moment : Moment} {record : List Occurrence}
    (course : Course settings script limit ⟨start, .start settings start, origin⟩ record moment) :
    Accounts settings start moment record := by
  refine (course.keeps (fun moment record =>
    Timely settings start limit moment record ∧ Accounts settings start moment record)
    ⟨timely_start settings start limit origin, accounts_start settings start origin⟩ ?_ ?_).2
  · intro moment next record added event held
    exact ⟨held.1.event event, held.2.event held.1 event⟩
  · intro moment next record added service held
    exact ⟨held.1.service service, held.2.service held.1 service⟩

theorem underway_accounts {session : Session} (underway : Underway settings script scheduler session) :
    ∃ time, Accounts settings (lastStart scheduler.ledger) ⟨time, session, scheduler.ledger⟩
      (sessionRecord scheduler.ledger) := by
  obtain ⟨time, origin, course⟩ := underway.course
  exact ⟨time, course_accounts course⟩

/-- The ticks of a session from its start to before a limit, while some of its jobs wait. -/
structure Conserved (settings : Settings) (start limit : Nat) (queue : List Nat)
    (record : List Occurrence) : Prop where
  fired : ∀ tick, tick ∈ ticks settings start limit ↔
    tick < limit ∧ ∃ index, tick = start + index * settings.interval
  /-- The record has those of them that find a worker alive. -/
  heard : record.filterMap arrival? =
    (ticks settings start limit).filter fun tick => lost record tick < settings.workers
  /-- Each has led to a run, to a job that waits or was given up, or to nothing but a count. -/
  conserved : (record.filterMap arrival?).Perm
    ((record.filterMap run?).map Prod.snd ++ queue ++ (record.filterMap discard?).map Prod.snd ++
      record.filterMap refusal?)
  once : ((record.filterMap run?).map Prod.snd ++ queue ++ (record.filterMap discard?).map Prod.snd ++
    record.filterMap refusal?).Nodup
  /-- Jobs are given up at the limit, or when the last worker is lost. -/
  discarded : ∀ discard ∈ record.filterMap discard?,
    discard.1 = limit ∨ settings.workers ≤ lost record (discard.1 + 1)

private theorem conserved_of {queue : List Nat} {record : List Occurrence}
    (heard : record.filterMap arrival? =
      (ticks settings start limit).filter fun tick => lost record tick < settings.workers)
    (queued : record.filterMap acceptance? =
      (record.filterMap run?).map Prod.snd ++ (record.filterMap discard?).map Prod.snd ++ queue)
    (discarded : ∀ discard ∈ record.filterMap discard?,
      discard.1 = limit ∨ settings.workers ≤ lost record (discard.1 + 1)) :
    Conserved settings start limit queue record := by
  have conserved := arrivals_perm record
  rw [queued, List.append_assoc ((record.filterMap run?).map Prod.snd)] at conserved
  have conserved := conserved.trans
    ((List.perm_append_comm.append_left ((record.filterMap run?).map Prod.snd)).append_right _)
  rw [← List.append_assoc ((record.filterMap run?).map Prod.snd)] at conserved
  refine ⟨fun _ => mem_ticks, heard, conserved, ?_, discarded⟩
  apply conserved.nodup_iff.mp
  rw [heard]
  exact ((firstTicks_increase settings start _).imp Nat.ne_of_lt).filter _

theorem underway_heard {session : Session} (underway : Underway settings script scheduler session) :
    (sessionRecord scheduler.ledger).filterMap arrival? =
      (ticks settings (lastStart scheduler.ledger) scheduler.now).filter
        fun tick => lost (sessionRecord scheduler.ledger) tick < settings.workers := by
  obtain ⟨time, origin, course⟩ := underway.course
  obtain ⟨count, next, heard⟩ := (course_accounts course).heard
  rw [ticks_come (course_timely course) underway.started underway.tick next]
  exact heard

theorem underway_conserved {session : Session} (underway : Underway settings script scheduler session) :
    Conserved settings (lastStart scheduler.ledger) scheduler.now session.queue
      (sessionRecord scheduler.ledger) := by
  obtain ⟨time, accounts⟩ := underway_accounts underway
  exact conserved_of (underway_heard underway) accounts.queue
    fun discard member => Or.inr (accounts.discarded discard member)

theorem closed_conserved {session : Session} (underway : Underway settings script scheduler session) :
    Conserved settings (lastStart scheduler.ledger) scheduler.now []
      (sessionRecord (closed scheduler session).ledger) := by
  obtain ⟨time, accounts⟩ := underway_accounts underway
  rw [closed_record]
  have past : ∀ tick ∈ ticks settings (lastStart scheduler.ledger) scheduler.now, tick ≤ scheduler.now :=
    fun tick member => Nat.le_of_lt (mem_ticks.mp member).1
  apply conserved_of
  · rw [lost_later past, ← underway_heard underway]
    · simp [List.filterMap_cons]
    · intro landing member
      obtain ⟨flight, leaving, rfl⟩ :
          ∃ flight ∈ departures session.flights.length session.flights,
            (flight.ends, flight.ending) = landing := by
        simpa [List.filterMap_cons] using member
      exact underway.flights flight (departures_mem (Nat.le_refl _) leaving)
  · have queue := accounts.queue
    simp only at queue
    simp [List.filterMap_cons, Function.comp_def, queue]
  · intro discard member
    rw [List.filterMap_append, List.mem_append] at member
    rcases member with member | member
    · exact Or.inr (discarded_kept accounts.discarded discard member)
    · obtain ⟨job, -, rfl⟩ : ∃ job ∈ session.queue, (scheduler.now, job) = discard := by
        simpa [List.filterMap_cons] using member
      exact Or.inl rfl

private theorem runSteps_lost {session : Session} {ledger : Ledger} (steps : Nat)
    (gone : session.live = 0) :
    (session.runSteps settings script limit steps ledger).2 = ledger := by
  induction steps generalizing session with
  | zero => rfl
  | succ steps ih =>
    have none_flying : session.flights = [] := by
      apply List.eq_nil_of_length_eq_zero
      simp only [Session.live] at gone
      omega
    have step : session.step? settings script limit ledger =
        if session.nextTick < limit then some (session.tick settings script ledger) else none := by
      simp [Session.step?, none_flying, Session.earliest]
    have tick : session.tick settings script ledger = (ticked settings session, ledger) := by
      have still : (ticked settings session).live = 0 := gone
      simp only [Session.tick]
      exact if_pos still
    by_cases early : session.nextTick < limit
    · simp only [Session.runSteps, step, early, if_true, tick]
      exact ih gone
    · simp [Session.runSteps, step, early]

/-- Once all its workers are lost, a session records nothing more. -/
theorem wait_lost {session : Session} (underway : Underway settings script scheduler session)
    (running : scheduler.session = some session)
    (gone : panics (sessionRecord scheduler.ledger) = settings.workers) (duration : Nat) :
    (scheduler.wait settings script duration).ledger = scheduler.ledger := by
  obtain ⟨time, accounts⟩ := underway_accounts underway
  have live : session.live + panics (sessionRecord scheduler.ledger) = settings.workers := accounts.live
  rw [wait_running running]
  exact runSteps_lost _ (by omega)

def waiting (scheduler : Scheduler) : List Nat := (scheduler.session.map Session.queue).getD []

/-- The counters of all sessions agree with what has been recorded of them. -/
structure Balanced (scheduler : Scheduler) : Prop where
  begun : scheduler.ledger.begun = (scheduler.ledger.journal.filterMap run?).length
  dropped : scheduler.ledger.statistics.dropped = (scheduler.ledger.journal.filterMap refusal?).length
  arrivals : (scheduler.ledger.journal.filterMap arrival?).length =
    scheduler.ledger.begun + (waiting scheduler).length +
      (scheduler.ledger.journal.filterMap discard?).length + scheduler.ledger.statistics.dropped

private theorem Balanced.entered {after : Scheduler} (record : List Occurrence)
    (balanced : Balanced scheduler) (ledger : after.ledger = entered scheduler.ledger record)
    (jobs : (record.filterMap acceptance?).length + (waiting scheduler).length =
      (record.filterMap run?).length + (record.filterMap discard?).length + (waiting after).length) :
    Balanced after := by
  have begun := balanced.begun
  have dropped := balanced.dropped
  have arrivals := balanced.arrivals
  have arrived := (arrivals_perm record).length_eq
  rw [List.length_append] at arrived
  refine ⟨?_, ?_, ?_⟩ <;>
    simp only [ledger, entered_begun, entered_dropped, entered_journal, List.filterMap_append,
      List.filterMap_reverse, List.length_append, List.length_reverse] <;> omega

theorem reached_balanced (reached : Reached settings script scheduler) : Balanced scheduler := by
  apply reached.keeps Balanced
  case fresh => exact ⟨rfl, rfl, rfl⟩
  case starts =>
    intro scheduler stopped balanced
    apply balanced.entered [.started scheduler.now] rfl
    simp [waiting, stopped, Session.start, List.filterMap_cons]
  case passes =>
    intro scheduler duration _ balanced
    exact ⟨balanced.begun, balanced.dropped, balanced.arrivals⟩
  case waits =>
    intro scheduler session duration reached before balanced
    have underway := reached.underway before
    obtain ⟨after, added, running, onward, ledger, record⟩ := underway.wait duration before
    obtain ⟨_, old⟩ := underway_accounts underway
    obtain ⟨_, new⟩ := underway_accounts onward
    have old := congrArg List.length old.queue
    have new := congrArg List.length new.queue
    apply balanced.entered added ledger
    simp only [record, List.filterMap_append, List.length_append, List.length_map] at old new
    simp only [waiting, before, running, Option.map_some, Option.getD_some]
    omega
  case stops =>
    intro scheduler session _ running balanced
    apply balanced.entered _ rfl
    simp [waiting, running, closed, List.filterMap_cons]

/-- The account of a scheduler: that of all its sessions, and that of the session that runs,
now and when it is stopped. -/
structure Accounted (settings : Settings) (script : Script) (scheduler : Scheduler) : Prop where
  balanced : Balanced scheduler
  starting : ∀ after, scheduler.start settings = .ok after →
    lastStart after.ledger = scheduler.now ∧ sessionRecord after.ledger = []
  running : ∀ session, scheduler.session = some session →
    Conserved settings (lastStart scheduler.ledger) scheduler.now session.queue
      (sessionRecord scheduler.ledger)
  unheard : scheduler.isRunning →
    panics (sessionRecord scheduler.ledger) = settings.workers →
    ∀ duration, (scheduler.wait settings script duration).ledger = scheduler.ledger
  stopping : ∀ after, scheduler.stop = .ok after →
    lastStart after.ledger = lastStart scheduler.ledger ∧
      Conserved settings (lastStart scheduler.ledger) scheduler.now [] (sessionRecord after.ledger)

/-- Whatever a scheduler is told to do and however its runs end, each tick that a worker is left
to hear leads to one run, to one job that waits or has been given up, or to one more dropped tick,
and the ticks behind the loss of the last worker lead to nothing. -/
theorem ticks_conserved {commands : List Command} {fault : Option Fault}
    (shown : (fault, scheduler) ∈ Scheduler.run settings script {} commands) :
    Accounted settings script scheduler := by
  have reached := reached_of_shown shown
  refine ⟨reached_balanced reached, fun _ => start_record, ?_, ?_, ?_⟩
  · intro session running
    exact underway_conserved (reached.underway running)
  · intro running gone duration
    obtain ⟨session, running⟩ := Option.isSome_iff_exists.mp running
    exact wait_lost (reached.underway running) running gone duration
  · intro after stopped
    cases running : scheduler.session with
    | none => simp [Scheduler.stop, running] at stopped
    | some session =>
      rw [stop_eq running] at stopped
      cases stopped
      exact ⟨closed_lastStart scheduler session, closed_conserved (reached.underway running)⟩

/-- One worker: two ticks dropped behind a long run, and a job given up when the next run panics. -/
theorem ticks_conserved_panic :
    let settings : Settings := ⟨10, 1, by decide, by decide⟩
    let script : Script := fun number => if number = 1 then ⟨35, .success⟩ else ⟨7, .panic⟩
    let commands := [.start, .wait 5, .stop, .wait 3, .start, .wait 65]
    ∃ shown ∈ Scheduler.run settings script {} commands,
      sessionRecord shown.2.ledger = [.queued 10, .begun 10 10, .queued 20, .dropped 30, .dropped 40,
        .ended 45 .success, .begun 45 20, .queued 50, .ended 52 .panic, .discarded 52 50] ∧
      Accounted settings script shown.2 := by
  intro settings script commands
  have found : (Scheduler.run settings script {} commands)[5]?.map
      (fun shown => sessionRecord shown.2.ledger) = some [.queued 10, .begun 10 10, .queued 20,
        .dropped 30, .dropped 40, .ended 45 .success, .begun 45 20, .queued 50, .ended 52 .panic,
        .discarded 52 50] := by
    decide
  obtain ⟨shown, last, recorded⟩ := Option.map_eq_some_iff.mp found
  have member := List.mem_of_getElem? last
  exact ⟨shown, member, recorded, ticks_conserved member⟩

end MessagePress.Proofs.TickAccounts
