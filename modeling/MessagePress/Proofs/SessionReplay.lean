import MessagePress.Proofs.SessionCourse

/-! What a session makes of its script. The course that it takes is settled by the script, so a
session can be found out from any course that comes to rest. A run that is still in flight has
mattered to nothing else, so its end may be told differently as long as it is not past. -/

namespace MessagePress.Proofs.SessionReplay
open Schedule SessionRecords SessionCourse

variable {settings : Settings} {script : Script} {limit : ℕ}

/-- The jobs that are served are given apart, whatever the queue is. -/
theorem serve_queue (time : ℕ) (jobs queue : List ℕ) (session : Session) (ledger : Ledger) :
    Session.serve script time jobs { session with queue } ledger =
      Session.serve script time jobs session ledger := by
  induction jobs generalizing session ledger with
  | nil => rfl
  | cons job rest ih =>
    have taken : Session.take script time job { session with queue } ledger =
        ({ (session.take script time job ledger).1 with queue },
          (session.take script time job ledger).2) := by
      simp only [Session.take]
      split <;> rfl
    simp only [Session.serve, taken, ih]

theorem serve_of_served {moment final : Moment} {record : List Occurrence}
    (served : Served script moment record final) :
    Session.serve script moment.time moment.session.queue moment.session moment.ledger =
      (final.session, final.ledger) := by
  induction served with
  | @settled moment settled =>
    obtain ⟨time, ⟨nextTick, queue, idle, flights⟩, ledger⟩ := moment
    rcases settled with empty | ⟨busy, flying⟩
    · simp only at empty
      subst empty
      rfl
    · cases queue with
      | nil => rfl
      | cons job rest => simp_all [Session.serve]
  | @next moment between final added record service served ih =>
    obtain ⟨time, ⟨nextTick, queue, idle, flights⟩, ledger⟩ := moment
    cases service with
    | @begun job rest run waiting idle told lasting =>
      simp only at waiting idle told
      subst waiting
      rw [← ih]
      simp only [Session.serve, idle, if_false, Session.take, told, lasting]
      exact (serve_queue time rest rest _ _).symm
    | @atOnce job rest run waiting idle told instant =>
      simp only at waiting idle told
      subst waiting
      rw [← ih]
      simp only [Session.serve, idle, if_false, Session.take, told, instant, if_true]
      exact (serve_queue time rest rest _ _).symm
    | discarded lost =>
      simp only [Session.live, Nat.add_eq_zero_iff, List.length_eq_zero_iff] at lost
      obtain ⟨rfl, rfl⟩ := lost
      rw [← ih]
      cases queue with
      | nil => rfl
      | cons job rest => simp [Session.serve, discard_eq]

theorem step_of_due {session : Session} (due : TickDue limit session) (ledger : Ledger) :
    session.step? settings script limit ledger = some (session.tick settings script ledger) := by
  cases first : Session.earliest session.flights with
  | none => simp only [Session.step?, first, due.early, if_true]
  | some best =>
    obtain ⟨flight, others⟩ := best
    have later := due.first flight ((earliest_perm first).mem_iff.mpr List.mem_cons_self)
    simp only [Session.step?, first, Nat.not_lt.mpr later, due.early, if_true, if_false]

theorem step_of_event {moment between next : Moment} {added services : List Occurrence}
    (event : Event settings limit moment added between) (served : Served script between services next) :
    moment.session.step? settings script limit moment.ledger = some (next.session, next.ledger) := by
  have live_ticked : ({ moment.session with
      nextTick := moment.session.nextTick + settings.interval } : Session).live = moment.session.live := rfl
  rw [← serve_of_served served]
  cases event with
  | unheard due lost =>
    have still := serve_of_served (.settled due.settled : Served script
      ⟨moment.session.nextTick, ticked settings moment.session, moment.ledger⟩ [] _)
    rw [step_of_due due, still]
    simp [Session.tick, live_ticked, lost, ticked]
  | dropped due alive full =>
    have still := serve_of_served (.settled due.settled : Served script
      ⟨moment.session.nextTick, ticked settings moment.session,
        enter moment.ledger (.dropped moment.session.nextTick)⟩ [] _)
    rw [step_of_due due, still]
    simp [Session.tick, live_ticked, alive, Nat.not_lt.mpr full, ticked, enter]
  | queued due alive room =>
    rw [step_of_due due, serve_queue]
    simp [Session.tick, live_ticked, alive, room, ticked, enter]
  | landed settled first sooner early =>
    simp only [Session.step?, first, sooner, early, if_true, Session.land]
    rfl

theorem runSteps_add (first second : ℕ) (session : Session) (ledger : Ledger) :
    session.runSteps settings script limit (first + second) ledger =
      (session.runSteps settings script limit first ledger).1.runSteps settings script limit second
        (session.runSteps settings script limit first ledger).2 := by
  induction first generalizing session ledger with
  | zero => rw [Nat.zero_add]; rfl
  | succ first ih =>
    rw [Nat.succ_add, Session.runSteps, Session.runSteps]
    cases step : session.step? settings script limit ledger with
    | none =>
      cases second with
      | zero => rfl
      | succ second => simp only [Session.runSteps, step]
    | some after => exact ih after.1 after.2

theorem runSteps_of_course {origin moment : Moment} {record : List Occurrence}
    (course : Course settings script limit origin record moment) :
    ∃ steps, origin.session.runSteps settings script limit steps origin.ledger =
      (moment.session, moment.ledger) := by
  induction course with
  | rest => exact ⟨0, rfl⟩
  | step _ event served ih =>
    obtain ⟨steps, reached⟩ := ih
    refine ⟨steps + 1, ?_⟩
    rw [runSteps_add, reached]
    simp only [Session.runSteps, step_of_event event served]

/-- Nothing is due before a limit. -/
def Rests (limit : ℕ) (session : Session) : Prop :=
  limit ≤ session.nextTick ∧ ∀ flight ∈ session.flights, limit ≤ flight.ends

theorem step_of_rests {session : Session} (rests : Rests limit session) (ledger : Ledger) :
    session.step? settings script limit ledger = none := by
  obtain ⟨tick, flights⟩ := rests
  cases first : Session.earliest session.flights with
  | none => simp only [Session.step?, first, Nat.not_lt.mpr tick, if_false]
  | some best =>
    obtain ⟨flight, others⟩ := best
    have later := flights flight ((earliest_perm first).mem_iff.mpr List.mem_cons_self)
    simp only [Session.step?, first, Nat.not_lt.mpr tick, Nat.not_lt.mpr later, if_false, ite_self]

theorem runSteps_of_rests {session : Session} (rests : Rests limit session) (steps : ℕ)
    (ledger : Ledger) : session.runSteps settings script limit steps ledger = (session, ledger) := by
  cases steps with
  | zero => rfl
  | succ steps => simp only [Session.runSteps, step_of_rests rests]

/-- A course that comes to rest is the one that the session takes. -/
theorem runUntil_of_course {origin moment : Moment} {record : List Occurrence}
    (settled : Settled origin.session)
    (course : Course settings script limit origin record moment) (rests : Rests limit moment.session) :
    origin.session.runUntil settings script limit origin.ledger = (moment.session, moment.ledger) := by
  obtain ⟨steps, reached⟩ := runSteps_of_course course
  have rest : Rests limit (origin.session.runUntil settings script limit origin.ledger).1 :=
    runUntil_rest settings script limit origin.ledger settled
  rw [Session.runUntil] at rest ⊢
  generalize 2 * origin.session.ticksBefore settings limit + origin.session.queue.length +
    origin.session.flights.length = enough at rest ⊢
  have onward : Session.runSteps settings script limit steps _ _ = _ :=
    runSteps_of_rests rest steps (origin.session.runSteps settings script limit enough origin.ledger).2
  rw [← runSteps_add, Nat.add_comm, runSteps_add, reached] at onward
  exact onward.symm.trans (runSteps_of_rests rests enough moment.ledger)

/-- The flight of a run, if runs begin at these times. -/
def flightOf (script : Script) (times : ℕ → ℕ) (number : ℕ) : Flight :=
  ⟨times number + (script number).duration, (script number).ending⟩

/-- The runs of a record begin at these times. -/
def BeginsAt (times : ℕ → ℕ) (record : List Occurrence) : Prop :=
  ∀ number run, (record.filterMap run?)[number]? = some run → run.1 = times number

/-- The run of each number is the same in both scripts, or ends at the limit or later in both. -/
def Retold (script other : Script) (times : ℕ → ℕ) (limit : ℕ) : Prop :=
  ∀ number, script number = other number ∨
    limit ≤ (flightOf script times number).ends ∧ limit ≤ (flightOf other times number).ends

variable {other : Script} {times : ℕ → ℕ} {numbers : List ℕ}

theorem BeginsAt.left {record added : List Occurrence} (begins : BeginsAt times (record ++ added)) :
    BeginsAt times record := by
  intro number run known
  refine begins number run ?_
  rw [List.filterMap_append, List.getElem?_append_left (List.getElem?_eq_some_iff.mp known).1]
  exact known

theorem BeginsAt.next {record rest : List Occurrence} {time job : ℕ}
    (begins : BeginsAt times (record ++ .begun time job :: rest)) :
    time = times (record.filterMap run?).length := by
  refine begins _ (time, job) ?_
  rw [List.filterMap_append, List.getElem?_append_right (Nat.le_refl _), Nat.sub_self]
  rfl

theorem Retold.flight (retold : Retold script other times limit) (number : ℕ) :
    flightOf other times number = flightOf script times number ∨
      limit ≤ (flightOf script times number).ends ∧ limit ≤ (flightOf other times number).ends :=
  (retold number).imp_left fun same => by rw [flightOf, flightOf, same]

/-- What is not later than a run in one script is not later in the other, up to the limit. -/
theorem Retold.later (retold : Retold script other times limit) {time number : ℕ}
    (within : time ≤ limit) (later : time ≤ (flightOf script times number).ends) :
    time ≤ (flightOf other times number).ends := by
  rcases retold.flight number with same | ⟨-, late⟩
  · rwa [same]
  · exact Nat.le_trans within late

/-- Of the flights that end before the limit the first is the same in both scripts. -/
theorem earliest_retold (retold : Retold script other times limit) {flight : Flight}
    {others : List Flight} (early : flight.ends < limit)
    (first : Session.earliest (numbers.map (flightOf script times)) = some (flight, others)) :
    ∃ before number after, numbers = before ++ number :: after ∧
      flight = flightOf script times number ∧
      others = (before ++ after).map (flightOf script times) ∧
      Session.earliest (numbers.map (flightOf other times)) =
        some (flight, (before ++ after).map (flightOf other times)) := by
  obtain ⟨before, after, whole, left, ahead, behind⟩ := earliest_cut first
  obtain ⟨front, rest, rfl, rfl, cut⟩ := List.map_eq_append_iff.mp whole
  obtain ⟨number, back, rfl, rfl, rfl⟩ := List.map_eq_cons_iff.mp cut
  have same : flightOf other times number = flightOf script times number := by
    rcases retold.flight number with same | ⟨late, -⟩
    · exact same
    · omega
  refine ⟨front, number, back, rfl, rfl, by rw [left, List.map_append], ?_⟩
  rw [List.map_append, List.map_cons, List.map_append, same]
  refine earliest_of_cut ?_ ?_
  · intro flight member
    obtain ⟨another, inside, rfl⟩ := List.mem_map.mp member
    exact retold.later early (ahead _ (List.mem_map_of_mem inside))
  · intro flight member
    obtain ⟨another, inside, rfl⟩ := List.mem_map.mp member
    exact retold.later (Nat.le_of_lt early) (behind _ (List.mem_map_of_mem inside))

/-- The run of a number ends at the limit or later. -/
def lasts (script : Script) (times : ℕ → ℕ) (limit number : ℕ) : Bool :=
  limit ≤ (flightOf script times number).ends

/-- The flights of a session are these of the runs that have begun before a limit, among them all
that end at the limit or later. -/
structure Traced (script : Script) (times : ℕ → ℕ) (limit : ℕ) (numbers : List ℕ) (moment : Moment) :
    Prop where
  flights : moment.session.flights = numbers.map (flightOf script times)
  lasting : numbers.filter (lasts script times limit) =
    (List.range moment.ledger.begun).filter (lasts script times limit)
  early : ∀ number < moment.ledger.begun, times number < limit

/-- The moment as it is in another script. -/
def told (script : Script) (times : ℕ → ℕ) (numbers : List ℕ) (moment : Moment) : Moment :=
  ⟨moment.time, { moment.session with flights := numbers.map (flightOf script times) }, moment.ledger⟩

variable {moment next : Moment} {added : List Occurrence}

theorem settled_told (flights : moment.session.flights = numbers.map (flightOf script times)) :
    Settled (told other times numbers moment).session ↔ Settled moment.session := by
  simp [Settled, told, flights]

theorem live_told (flights : moment.session.flights = numbers.map (flightOf script times)) :
    (told other times numbers moment).session.live = moment.session.live := by
  simp [Session.live, told, flights]

theorem tickDue_told (retold : Retold script other times limit)
    (flights : moment.session.flights = numbers.map (flightOf script times))
    (due : TickDue limit moment.session) : TickDue limit (told other times numbers moment).session := by
  refine ⟨(settled_told flights).mpr due.settled, fun flight member => ?_, due.early⟩
  obtain ⟨number, inside, rfl⟩ := List.mem_map.mp member
  exact retold.later (Nat.le_of_lt due.early)
    (due.first (flightOf script times number) (flights ▸ List.mem_map_of_mem inside))

theorem Event.retold (retold : Retold script other times limit)
    (traced : Traced script times limit numbers moment) (event : Event settings limit moment added next) :
    ∃ left, Traced script times limit left next ∧ next.time < limit ∧
      Event settings limit (told other times numbers moment) added (told other times left next) := by
  obtain ⟨flights, lasting, early⟩ := traced
  cases event with
  | unheard due lost =>
    refine ⟨numbers, ⟨flights, lasting, early⟩, due.early, ?_⟩
    exact .unheard (tickDue_told retold flights due) ((live_told flights).trans lost)
  | dropped due alive full =>
    refine ⟨numbers, ⟨flights, lasting, early⟩, due.early, ?_⟩
    exact .dropped (tickDue_told retold flights due) ((live_told flights).trans_ne alive) full
  | queued due alive room =>
    refine ⟨numbers, ⟨flights, lasting, early⟩, due.early, ?_⟩
    exact .queued (tickDue_told retold flights due) ((live_told flights).trans_ne alive) room
  | @landed flight others settled first sooner before =>
    rw [flights] at first
    obtain ⟨front, number, back, rfl, same, left, firstTold⟩ := earliest_retold retold before first
    refine ⟨front ++ back, ⟨left, ?_, early⟩, before, ?_⟩
    · have gone : lasts script times limit number = false := decide_eq_false (by rw [← same]; omega)
      refine Eq.trans ?_ lasting
      simp [gone]
    · exact .landed ((settled_told flights).mpr settled) firstTold sooner before

theorem Service.retold {record : List Occurrence} (retold : Retold script other times limit)
    (begins : BeginsAt times (record ++ added))
    (counted : moment.ledger.begun = (record.filterMap run?).length)
    (traced : Traced script times limit numbers moment) (soon : moment.time < limit)
    (service : Service script moment added next) :
    ∃ left, Traced script times limit left next ∧
      Service other (told other times numbers moment) added (told other times left next) := by
  obtain ⟨flights, lasting, early⟩ := traced
  cases service with
  | @begun job rest run waiting idle known present =>
    have time : moment.time = times moment.ledger.begun := counted ▸ begins.next
    have present' : (other moment.ledger.begun).duration ≠ 0 := by
      rcases retold moment.ledger.begun with same | ⟨-, late⟩
      · rwa [← same, known]
      · change limit ≤ times moment.ledger.begun + (other moment.ledger.begun).duration at late
        omega
    refine ⟨numbers ++ [moment.ledger.begun], ⟨?_, ?_, ?_⟩, ?_⟩
    · simp [flights, flightOf, time, known]
    · change _ = (List.range (moment.ledger.begun + 1)).filter _
      rw [List.range_succ, List.filter_append, List.filter_append, lasting]
    · exact Nat.forall_lt_succ_right.mpr ⟨early, time ▸ soon⟩
    · have begun : Service other (told other times numbers moment) _ _ :=
        .begun waiting idle rfl present'
      simp only [told, time, List.map_append, List.map_singleton, flightOf] at begun ⊢
      exact begun
  | @atOnce job rest run waiting idle known instant =>
    have time : moment.time = times moment.ledger.begun := counted ▸ begins.next
    have ends : (flightOf script times moment.ledger.begun).ends = moment.time := by
      rw [flightOf, known, instant, time, Nat.add_zero]
    have same : script moment.ledger.begun = other moment.ledger.begun := by
      rcases retold moment.ledger.begun with same | ⟨late, -⟩
      · exact same
      · omega
    have counted : (entered moment.ledger [.begun moment.time job, .ended moment.time run.ending]).begun =
        moment.ledger.begun + 1 := entered_begun moment.ledger _
    refine ⟨numbers, ⟨flights, ?_, ?_⟩, ?_⟩
    · have past : lasts script times limit moment.ledger.begun = false := decide_eq_false (by omega)
      rw [counted, List.range_succ, List.filter_append, lasting]
      simp [past]
    · rw [counted]
      exact Nat.forall_lt_succ_right.mpr ⟨early, time ▸ soon⟩
    · exact .atOnce waiting idle (same.symm.trans known) instant
  | discarded lost =>
    have counted : (entered moment.ledger
        (moment.session.queue.map (Occurrence.discarded moment.time))).begun = moment.ledger.begun := by
      simp [entered_begun, Function.comp_def]
    refine ⟨numbers, ⟨flights, ?_, ?_⟩, ?_⟩
    · rw [counted, lasting]
    · rwa [counted]
    · exact .discarded ((live_told flights).trans lost)

theorem Served.retold {record services : List Occurrence} (retold : Retold script other times limit)
    (begins : BeginsAt times (record ++ services))
    (counted : moment.ledger.begun = (record.filterMap run?).length)
    (traced : Traced script times limit numbers moment) (soon : moment.time < limit)
    (served : Served script moment services next) :
    ∃ left, Traced script times limit left next ∧
      Served other (told other times numbers moment) services (told other times left next) := by
  induction served generalizing record numbers with
  | settled done => exact ⟨numbers, traced, .settled ((settled_told traced.flights).mpr done)⟩
  | @next moment between final added services service _ ih =>
    rw [← List.append_assoc] at begins
    obtain ⟨middle, between_traced, first⟩ :=
      Service.retold retold begins.left counted traced soon service
    have counted : between.ledger.begun = ((record ++ added).filterMap run?).length := by
      rw [service.ledger, entered_begun, counted, List.filterMap_append, List.length_append]
    have soon : between.time < limit := by cases service <;> exact soon
    obtain ⟨left, final_traced, others⟩ := ih begins counted between_traced soon
    exact ⟨left, final_traced, .next first others⟩

/-- A session takes the same course where runs that end at its limit or later are told otherwise. -/
theorem Course.retold {start : ℕ} {ledger : Ledger} {record : List Occurrence}
    (retold : Retold script other times limit) (fresh : ledger.begun = 0)
    (begins : BeginsAt times record)
    (course : Course settings script limit ⟨start, .start settings start, ledger⟩ record moment) :
    ∃ numbers, Traced script times limit numbers moment ∧
      Course settings other limit ⟨start, .start settings start, ledger⟩ record
        (told other times numbers moment) := by
  induction course with
  | rest =>
    refine ⟨[], ⟨rfl, ?_, ?_⟩, .rest⟩
    · rw [fresh]
      rfl
    · rw [fresh]
      exact nofun
  | @step record added services moment between next course event served ih =>
    obtain ⟨numbers, traced, onward⟩ := ih begins.left.left
    obtain ⟨middle, between_traced, soon, happened⟩ := Event.retold retold traced event
    have counted : between.ledger.begun = ((record ++ added).filterMap run?).length := by
      have ledger := event.ledger
      rw [course.ledger, ← entered_append] at ledger
      rw [ledger, entered_begun, fresh, Nat.zero_add]
    obtain ⟨left, next_traced, followed⟩ :=
      Served.retold retold begins counted between_traced soon served
    exact ⟨left, next_traced, .step onward happened followed⟩

/-- At the limit the runs in flight are all those that end there or later. -/
theorem Traced.rests (traced : Traced script times limit numbers moment)
    (rests : Rests limit moment.session) :
    numbers = (List.range moment.ledger.begun).filter (lasts script times limit) := by
  rw [← traced.lasting, List.filter_eq_self.mpr]
  intro number inside
  exact decide_eq_true (rests.2 _ (traced.flights ▸ List.mem_map_of_mem inside))

end MessagePress.Proofs.SessionReplay
