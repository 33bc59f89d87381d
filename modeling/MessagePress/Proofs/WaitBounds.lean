import MessagePress.Proofs.JournalOrder
import MessagePress.Proofs.TickAccounts

/-! How long a job waits. As long as no run panics, a job that comes finds fewer jobs ahead of it
than runs in flight. All of these are over within the longest duration, and each leaves a worker
to the queue, so the job has had its turn by then. -/

namespace MessagePress.Proofs.WaitBounds
open Schedule SessionRecords SessionCourse SchedulerRuns TickTimes TickAccounts JournalOrder

variable {settings : Settings} {script : Script} {scheduler : Scheduler} {start limit longest : Nat}

/-- None of the runs from one number to before another panics or lasts longer than this. -/
def Brief (script : Script) (longest first last : Nat) : Prop :=
  ∀ number, first ≤ number → number < last →
    (script number).ending ≠ .panic ∧ (script number).duration ≤ longest

theorem Brief.part {first last lower upper : Nat} (brief : Brief script longest first last)
    (behind : first ≤ lower) (before : upper ≤ last) : Brief script longest lower upper := by
  intro number above below
  exact brief number (Nat.le_trans behind above) (Nat.lt_of_lt_of_le below before)

/-- How many flights have landed by the time that a job may be kept waiting. -/
def landedBy (longest tick : Nat) (flights : List Flight) : Nat :=
  flights.countP fun flight => flight.ends ≤ tick + longest

theorem landedBy_earliest {flights others : List Flight} {flight : Flight}
    (first : Session.earliest flights = some (flight, others)) (longest tick : Nat) :
    landedBy longest tick flights ≤ landedBy longest tick others + 1 := by
  rw [landedBy, (earliest_perm first).countP_eq, List.countP_cons]
  apply Nat.add_le_add_left
  split <;> decide

/-- A session that has lost no worker, and keeps no job waiting for longer than the longest run. -/
structure Attended (settings : Settings) (longest : Nat) (moment : Moment) (record : List Occurrence) :
    Prop where
  staffed : moment.session.idle + moment.session.flights.length = settings.workers
  sound : ∀ flight ∈ moment.session.flights, flight.ending ≠ .panic
  brief : ∀ flight ∈ moment.session.flights, flight.ends ≤ moment.time + longest
  /-- Each job that waits has fewer of them ahead of it than workers come free for it in time. -/
  turns : ∀ index tick, moment.session.queue[index]? = some tick →
    index < moment.session.idle + landedBy longest tick moment.session.flights
  waiting : ∀ tick ∈ moment.session.queue, tick ≤ moment.time ∧ moment.time ≤ tick + longest
  served : ∀ run ∈ record.filterMap run?, run.2 ≤ run.1 ∧ run.1 ≤ run.2 + longest

variable {moment next : Moment} {record added : List Occurrence}

/-- While a job waits and no worker is idle, some flight lands in time for it. -/
theorem Attended.relief (attended : Attended settings longest moment record)
    (settled : Settled moment.session) {tick : Nat} (member : tick ∈ moment.session.queue) :
    ∃ flight ∈ moment.session.flights, flight.ends ≤ tick + longest := by
  obtain ⟨index, found⟩ := List.mem_iff_getElem?.mp member
  have turn := attended.turns index tick found
  rcases settled with empty | ⟨busy, -⟩
  · rw [empty] at member
    cases member
  · have some_landed : 0 < landedBy longest tick moment.session.flights := by omega
    obtain ⟨flight, present, early⟩ := List.countP_pos_iff.mp some_landed
    exact ⟨flight, present, of_decide_eq_true early⟩

private theorem Attended.tick (attended : Attended settings longest moment record)
    (ahead : Ahead moment) (due : TickDue limit moment.session) {ledger : Ledger}
    (none_begun : added.filterMap run? = []) :
    Attended settings longest ⟨moment.session.nextTick, ticked settings moment.session, ledger⟩
      (record ++ added) := by
  have passed := ahead.tick
  refine ⟨attended.staffed, attended.sound, ?_, attended.turns, ?_, ?_⟩
  · intro flight member
    have early := attended.brief flight member
    simp only
    omega
  · intro tick member
    obtain ⟨flight, present, early⟩ := attended.relief due.settled member
    have come := (attended.waiting tick member).1
    have first := due.first flight present
    simp only
    omega
  · rw [List.filterMap_append, none_begun, List.append_nil]
    exact attended.served

theorem Attended.event (attended : Attended settings longest moment record) (ahead : Ahead moment)
    (event : Event settings limit moment added next) :
    Attended settings longest next (record ++ added) := by
  cases event with
  | unheard due => exact attended.tick ahead due rfl
  | dropped due => exact attended.tick ahead due rfl
  | queued due alive room =>
    have before := @Attended.tick settings limit longest moment record [.queued moment.session.nextTick]
      attended ahead due (enter moment.ledger (.queued moment.session.nextTick)) rfl
    refine ⟨before.staffed, before.sound, before.brief, ?_, ?_, before.served⟩
    · intro index tick found
      rcases Nat.lt_or_ge index moment.session.queue.length with inside | behind
      · rw [List.getElem?_append_left inside] at found
        exact before.turns index tick found
      · -- The job that has come: every flight has begun by now, so all of them land in time for it.
        rw [List.getElem?_append_right behind] at found
        obtain ⟨last, same⟩ := List.getElem?_eq_some_iff.mp found
        simp only [List.length_singleton] at last
        have all : landedBy longest tick moment.session.flights = moment.session.flights.length := by
          apply List.countP_eq_length.mpr
          intro flight member
          have early := before.brief flight member
          simp only [List.getElem_singleton] at same
          simpa [← same] using early
        have staffed := attended.staffed
        simp only [ticked_idle, ticked_flights, all]
        omega
    · intro tick member
      rcases List.mem_append.mp member with member | member
      · exact before.waiting tick member
      · cases List.mem_singleton.mp member
        exact ⟨Nat.le_refl _, Nat.le_add_right _ _⟩
  | @landed flight others settled first =>
    have same := earliest_perm first
    obtain ⟨-, least⟩ := earliest_eq_some first
    have passed := ahead.flights flight (same.mem_iff.mpr List.mem_cons_self)
    have sound := attended.sound flight (same.mem_iff.mpr List.mem_cons_self)
    have length := earliest_length first
    have staffed := attended.staffed
    refine ⟨?_, ?_, ?_, ?_, ?_, ?_⟩
    · simp only [if_neg sound]
      omega
    · intro other member
      exact attended.sound other (same.mem_iff.mpr (List.mem_cons_of_mem flight member))
    · intro other member
      have early := attended.brief other (same.mem_iff.mpr (List.mem_cons_of_mem flight member))
      simp only
      omega
    · intro index tick found
      have turn := attended.turns index tick found
      have fewer := landedBy_earliest first longest tick
      simp only [if_neg sound]
      omega
    · intro tick member
      have come := (attended.waiting tick member).1
      obtain ⟨other, present, early⟩ := attended.relief settled member
      have first : flight.ends ≤ other.ends := by
        rcases List.mem_cons.mp (same.mem_iff.mp present) with rfl | among
        · exact Nat.le_refl _
        · exact least other among
      simp only
      omega
    · simpa [List.filterMap_cons] using attended.served

private theorem Attended.turn (attended : Attended settings longest moment record) {job : Nat}
    {rest : List Nat} (waiting : moment.session.queue = job :: rest) :
    (∀ index tick, rest[index]? = some tick →
      index + 1 < moment.session.idle + landedBy longest tick moment.session.flights) ∧
    (∀ tick ∈ rest, tick ≤ moment.time ∧ moment.time ≤ tick + longest) ∧
    ∀ run ∈ record.filterMap run? ++ [(moment.time, job)], run.2 ≤ run.1 ∧ run.1 ≤ run.2 + longest := by
  refine ⟨?_, ?_, ?_⟩
  · intro index tick found
    apply attended.turns
    rw [waiting, List.getElem?_cons_succ]
    exact found
  · intro tick member
    apply attended.waiting
    rw [waiting]
    exact List.mem_cons_of_mem job member
  · intro run member
    rcases List.mem_append.mp member with member | member
    · exact attended.served run member
    · cases List.mem_singleton.mp member
      apply attended.waiting
      rw [waiting]
      exact List.mem_cons_self

theorem Attended.service (attended : Attended settings longest moment record)
    (service : Service script moment added next)
    (brief : Brief script longest moment.ledger.begun next.ledger.begun) :
    Attended settings longest next (record ++ added) := by
  have staffed := attended.staffed
  have positive := settings.workers_pos
  cases service with
  | @begun job rest run queue idle told =>
    obtain ⟨turns, waiting, served⟩ := attended.turn queue
    obtain ⟨sound, duration⟩ := brief moment.ledger.begun (Nat.le_refl _) (Nat.lt_succ_self _)
    rw [told] at sound duration
    refine ⟨?_, ?_, ?_, ?_, waiting, ?_⟩
    · simp only [List.length_append, List.length_singleton]
      omega
    · intro flight member
      rcases List.mem_append.mp member with member | member
      · exact attended.sound flight member
      · cases List.mem_singleton.mp member
        exact sound
    · intro flight member
      rcases List.mem_append.mp member with member | member
      · exact attended.brief flight member
      · cases List.mem_singleton.mp member
        exact Nat.add_le_add_left duration _
    · intro index tick found
      have turn := turns index tick found
      simp only [landedBy, List.countP_append] at turn ⊢
      omega
    · simpa [List.filterMap_cons] using served
  | @atOnce job rest run queue idle told =>
    obtain ⟨turns, waiting, served⟩ := attended.turn queue
    obtain ⟨sound, -⟩ := brief moment.ledger.begun (Nat.le_refl _) (by
      rw [entered_begun]
      exact Nat.lt_succ_self _)
    rw [told] at sound
    refine ⟨?_, attended.sound, attended.brief, ?_, waiting, ?_⟩
    · simpa only [if_neg sound] using staffed
    · intro index tick found
      have turn := turns index tick found
      simp only [if_neg sound]
      omega
    · simpa [List.filterMap_cons] using served
  | discarded gone =>
    simp only [Session.live] at gone
    omega

theorem attended_start (settings : Settings) (longest start : Nat) (ledger : Ledger) :
    Attended settings longest ⟨start, .start settings start, ledger⟩ [] where
  staffed := rfl
  sound := fun _ member => nomatch member
  brief := fun _ member => nomatch member
  turns := fun _ _ found => nomatch found
  waiting := fun _ member => nomatch member
  served := fun _ member => nomatch member

theorem course_attended {origin : Ledger}
    (course : Course settings script limit ⟨start, .start settings start, origin⟩ record moment)
    (brief : Brief script longest origin.begun moment.ledger.begun) :
    Attended settings longest moment record := by
  refine (course.keeps (fun moment record => origin.begun ≤ moment.ledger.begun ∧ Ahead moment ∧
    (Brief script longest origin.begun moment.ledger.begun → Attended settings longest moment record))
    ⟨Nat.le_refl _, start_ahead settings start origin, fun _ => attended_start settings longest start origin⟩
    ?_ ?_).2.2 brief
  · intro moment next record added event ⟨later, ahead, attended⟩
    refine ⟨Nat.le_trans later event.begun_le, (ahead.event event).1, fun brief => ?_⟩
    exact (attended (brief.part (Nat.le_refl _) event.begun_le)).event ahead event
  · intro moment next record added service ⟨later, ahead, attended⟩
    refine ⟨Nat.le_trans later service.begun_le, (ahead.service service).1, fun brief => ?_⟩
    exact (attended (brief.part (Nat.le_refl _) service.begun_le)).service service (brief.part later (Nat.le_refl _))

/-- The number of the first run of the latest session. -/
def firstRun (ledger : Ledger) : Nat := ledger.begun - ((sessionRecord ledger).filterMap run?).length

/-- What has become of the ticks that a session accepted before a limit. -/
structure Prompt (settings : Settings) (longest start limit : Nat) (record : List Occurrence) : Prop where
  accepted : (record.filterMap acceptance?).Sublist (ticks settings start limit)
  inOrder : (record.filterMap run?).Pairwise fun earlier later => earlier.1 ≤ later.1
  matched : (record.filterMap run?).length ≤ (record.filterMap acceptance?).length
  /-- The run of the same number serves a tick within the longest duration, or there is still
  time for it at the limit. -/
  served : ∀ index tick : Nat, (record.filterMap acceptance?)[index]? = some tick →
    (∃ time, (record.filterMap run?)[index]? = some (time, tick) ∧ tick ≤ time ∧ time ≤ tick + longest) ∨
      (record.filterMap run?)[index]? = none ∧ limit ≤ tick + longest

private theorem underway_prompt {session : Session} (reached : Reached settings script scheduler)
    (underway : Underway settings script scheduler session)
    (brief : Brief script longest (firstRun scheduler.ledger) scheduler.ledger.begun) :
    Prompt settings longest (lastStart scheduler.ledger) scheduler.now (sessionRecord scheduler.ledger) := by
  obtain ⟨time, origin, course⟩ := underway.course
  have begun := congrArg Ledger.begun course.ledger
  simp only [entered_begun] at begun
  rw [firstRun, begun, Nat.add_sub_cancel, ← begun] at brief
  have attended := course_attended course brief
  have accounts := course_accounts course
  have positive := settings.workers_pos
  have staffed : session.idle + session.flights.length = settings.workers := attended.staffed
  have alive : session.live ≠ 0 := by
    rw [Session.live, staffed]
    exact Nat.ne_of_gt positive
  have queue := accounts.queue
  rw [accounts.discards_nil alive, List.map_nil, List.append_nil] at queue
  refine ⟨?_, ?_, ?_, ?_⟩
  · apply (acceptances_sublist _).trans
    rw [underway_heard underway]
    exact List.filter_sublist
  · have timed : ∀ occurrence found, run? occurrence = some found → instant occurrence = found.1 := by
      intro occurrence found told
      cases occurrence <;> cases told
      rfl
    exact ((reached_ordered reached).pieces timed).sublist
      ((sessionRecord_sublist scheduler.ledger).filterMap run?)
  · rw [queue, List.length_append, List.length_map]
    exact Nat.le_add_right _ _
  · intro index tick found
    rw [queue] at found
    rcases Nat.lt_or_ge index ((sessionRecord scheduler.ledger).filterMap run?).length with inside | behind
    · rw [List.getElem?_append_left (by rwa [List.length_map]), List.getElem?_map] at found
      obtain ⟨run, taken, rfl⟩ := Option.map_eq_some_iff.mp found
      exact Or.inl ⟨run.1, taken, attended.served run (List.mem_of_getElem? taken)⟩
    · rw [List.getElem?_append_right (by rwa [List.length_map])] at found
      obtain ⟨flight, present, early⟩ := attended.relief underway.settled (List.mem_of_getElem? found)
      exact Or.inr ⟨List.getElem?_eq_none behind, Nat.le_trans (underway.flights flight present) early⟩

/-- What a scheduler owes to the ticks of a session, up to now or to a stop. -/
structure Responsive (settings : Settings) (longest : Nat) (scheduler : Scheduler) : Prop where
  starting : ∀ after, scheduler.start settings = .ok after →
    lastStart after.ledger = scheduler.now ∧ sessionRecord after.ledger = []
  running : ∀ session, scheduler.session = some session →
    Prompt settings longest (lastStart scheduler.ledger) scheduler.now (sessionRecord scheduler.ledger)
  stopping : ∀ after, scheduler.stop = .ok after →
    Prompt settings longest (lastStart scheduler.ledger) scheduler.now (sessionRecord after.ledger)

/-- In a session of which no run panics or lasts longer than a longest, accepted ticks are served
in their order, the k-th of them by the k-th run, and none of them waits for longer than that. -/
theorem ticks_served_promptly {commands : List Command} {fault : Option Fault}
    (brief : Brief script longest (firstRun scheduler.ledger) scheduler.ledger.begun)
    (shown : (fault, scheduler) ∈ Scheduler.run settings script {} commands) :
    Responsive settings longest scheduler := by
  have reached := reached_of_shown shown
  refine ⟨fun _ => start_record, ?_, ?_⟩
  · intro session running
    exact underway_prompt reached (reached.underway running) brief
  · intro after stopped
    cases running : scheduler.session with
    | none => simp [Scheduler.stop, running] at stopped
    | some session =>
      rw [stop_eq running] at stopped
      cases stopped
      obtain ⟨accepted, inOrder, matched, served⟩ :=
        underway_prompt reached (reached.underway running) brief
      rw [closed_record]
      refine ⟨?_, ?_, ?_, ?_⟩
      · simpa [List.filterMap_cons] using accepted
      · simpa [List.filterMap_cons] using inOrder
      · simpa [List.filterMap_cons] using matched
      · simpa [List.filterMap_cons] using served

/-- Two workers behind ticks that come faster than they work. The run of the session before
panicked. -/
theorem ticks_served_promptly_late :
    let settings : Settings := ⟨10, 2, by decide, by decide⟩
    let script : Script := fun number => if number = 0 then ⟨3, .panic⟩ else ⟨27, .success⟩
    ∃ shown ∈ Scheduler.run settings script {} [.start, .wait 5, .stop, .start, .wait 60],
      Brief script 27 (firstRun shown.2.ledger) shown.2.ledger.begun ∧
      (sessionRecord shown.2.ledger).filterMap run? = [(5, 5), (15, 15), (32, 25), (42, 35), (59, 45)] ∧
      Responsive settings 27 shown.2 := by
  intro settings script
  have found : (Scheduler.run settings script {} [.start, .wait 5, .stop, .start, .wait 60])[4]?.map
      (fun shown => (firstRun shown.2.ledger, (sessionRecord shown.2.ledger).filterMap run?)) =
        some (1, [(5, 5), (15, 15), (32, 25), (42, 35), (59, 45)]) := by
    decide
  obtain ⟨shown, last, recorded⟩ := Option.map_eq_some_iff.mp found
  obtain ⟨first, runs⟩ := Prod.mk.inj recorded
  have member := List.mem_of_getElem? last
  have brief : Brief script 27 (firstRun shown.2.ledger) shown.2.ledger.begun := by
    intro number behind _
    rw [first] at behind
    simp [script, Nat.ne_of_gt behind]
  exact ⟨shown, member, brief, runs, ticks_served_promptly brief member⟩

end MessagePress.Proofs.WaitBounds
