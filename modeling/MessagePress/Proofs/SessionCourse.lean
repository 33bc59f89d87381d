import Mathlib.Data.List.Basic
import MessagePress.Proofs.SessionRecords
import MessagePress.Schedule.Session

/-! The course of a session. A step is an event, that is a tick or the end of a run, and then
what idle workers make of the queue. Each of these is entered into the ledger, and a session
comes to rest when nothing is due before the limit. -/

namespace MessagePress.Proofs.SessionCourse
open Schedule SessionRecords

variable {settings : Settings} {script : Script} {limit : Nat}

theorem earliest_eq_none {flights : List Flight} : Session.earliest flights = none ↔ flights = [] := by
  cases flights with
  | nil => simp [Session.earliest]
  | cons flight rest =>
    simp only [Session.earliest, reduceCtorEq, iff_false]
    split
    · split <;> simp
    · simp

/-- Those that began before the first flight to end are still longer in flight. -/
theorem earliest_cut {flights others : List Flight} {flight : Flight}
    (first : Session.earliest flights = some (flight, others)) :
    ∃ before after, flights = before ++ flight :: after ∧ others = before ++ after ∧
      (∀ other ∈ before, flight.ends < other.ends) ∧ ∀ other ∈ after, flight.ends ≤ other.ends := by
  induction flights generalizing flight others with
  | nil => cases first
  | cons head rest ih =>
    cases found : Session.earliest rest with
    | none =>
      have empty := earliest_eq_none.mp found
      subst empty
      cases first
      exact ⟨[], [], rfl, rfl, nofun, nofun⟩
    | some best =>
      obtain ⟨other, remaining⟩ := best
      obtain ⟨before, after, whole, left, ahead, behind⟩ := ih found
      rw [Session.earliest, found] at first
      by_cases sooner : other.ends < head.ends
      · simp only [sooner, if_true, Option.some.injEq, Prod.mk.injEq] at first
        obtain ⟨rfl, rfl⟩ := first
        exact ⟨head :: before, after, by rw [whole]; rfl, by rw [left]; rfl,
          List.forall_mem_cons.mpr ⟨sooner, ahead⟩, behind⟩
      · simp only [sooner, if_false, Option.some.injEq, Prod.mk.injEq] at first
        obtain ⟨rfl, rfl⟩ := first
        have latest : head.ends ≤ other.ends := Nat.le_of_not_lt sooner
        refine ⟨[], rest, rfl, rfl, nofun, fun another member => ?_⟩
        rw [whole] at member
        rcases List.mem_append.mp member with member | member
        · exact Nat.le_trans latest (Nat.le_of_lt (ahead another member))
        · rcases List.mem_cons.mp member with rfl | member
          · exact latest
          · exact Nat.le_trans latest (behind another member)

theorem earliest_of_cut {before after : List Flight} {flight : Flight}
    (ahead : ∀ other ∈ before, flight.ends < other.ends)
    (behind : ∀ other ∈ after, flight.ends ≤ other.ends) :
    Session.earliest (before ++ flight :: after) = some (flight, before ++ after) := by
  induction before with
  | nil =>
    rw [List.nil_append, Session.earliest]
    cases found : Session.earliest after with
    | none => rw [earliest_eq_none.mp found, List.nil_append]
    | some best =>
      obtain ⟨front, back, whole, -⟩ := earliest_cut found
      have later := behind best.1 (by simp [whole])
      simp only [Nat.not_lt.mpr later, if_false, List.nil_append]
  | cons head before ih =>
    obtain ⟨sooner, ahead⟩ := List.forall_mem_cons.mp ahead
    rw [List.cons_append, Session.earliest, ih ahead]
    simp only [sooner, if_true, List.cons_append]

theorem earliest_eq_some {flights others : List Flight} {flight : Flight}
    (first : Session.earliest flights = some (flight, others)) :
    (∃ before after, flights = before ++ flight :: after ∧ others = before ++ after) ∧
      ∀ other ∈ others, flight.ends ≤ other.ends := by
  obtain ⟨before, after, whole, left, ahead, behind⟩ := earliest_cut first
  refine ⟨⟨before, after, whole, left⟩, fun other member => ?_⟩
  rw [left] at member
  exact (List.mem_append.mp member).elim (fun member => Nat.le_of_lt (ahead other member)) (behind other)

theorem earliest_length {flights others : List Flight} {flight : Flight}
    (first : Session.earliest flights = some (flight, others)) : flights.length = others.length + 1 := by
  obtain ⟨⟨before, after, rfl, rfl⟩, -⟩ := earliest_eq_some first
  simp only [List.length_append, List.length_cons]
  omega

theorem earliest_perm {flights others : List Flight} {flight : Flight}
    (first : Session.earliest flights = some (flight, others)) : flights.Perm (flight :: others) := by
  obtain ⟨⟨before, after, rfl, rfl⟩, -⟩ := earliest_eq_some first
  exact List.perm_middle

/-- A session with its ledger, and the time of the last event. -/
structure Moment where
  time : Nat
  session : Session
  ledger : Ledger

/-- No job waits for an idle worker, nor for workers who are lost. -/
def Settled (session : Session) : Prop :=
  session.queue = [] ∨ session.idle = 0 ∧ session.flights ≠ []

structure TickDue (limit : Nat) (session : Session) : Prop where
  settled : Settled session
  first : ∀ flight ∈ session.flights, session.nextTick ≤ flight.ends
  early : session.nextTick < limit

def ticked (settings : Settings) (session : Session) : Session :=
  { session with nextTick := session.nextTick + settings.interval }

@[simp] theorem ticked_queue (session : Session) : (ticked settings session).queue = session.queue := rfl

@[simp] theorem ticked_idle (session : Session) : (ticked settings session).idle = session.idle := rfl

@[simp] theorem ticked_flights (session : Session) :
    (ticked settings session).flights = session.flights := rfl

@[simp] theorem ticked_nextTick (session : Session) :
    (ticked settings session).nextTick = session.nextTick + settings.interval := rfl

/-- What an event records, and where it leads to before idle workers look at the queue. -/
inductive Event (settings : Settings) (limit : Nat) (moment : Moment) : List Occurrence → Moment → Prop
  /-- No worker is left to hear the tick. -/
  | unheard (due : TickDue limit moment.session) (lost : moment.session.live = 0) :
    Event settings limit moment []
      ⟨moment.session.nextTick, ticked settings moment.session, moment.ledger⟩
  | dropped (due : TickDue limit moment.session) (alive : moment.session.live ≠ 0)
      (full : settings.workers ≤ moment.session.queue.length) :
    Event settings limit moment [.dropped moment.session.nextTick]
      ⟨moment.session.nextTick, ticked settings moment.session,
        enter moment.ledger (.dropped moment.session.nextTick)⟩
  | queued (due : TickDue limit moment.session) (alive : moment.session.live ≠ 0)
      (room : moment.session.queue.length < settings.workers) :
    Event settings limit moment [.queued moment.session.nextTick]
      ⟨moment.session.nextTick,
        { ticked settings moment.session with
          queue := moment.session.queue ++ [moment.session.nextTick] },
        enter moment.ledger (.queued moment.session.nextTick)⟩
  | landed {flight : Flight} {others : List Flight} (settled : Settled moment.session)
      (first : Session.earliest moment.session.flights = some (flight, others))
      (sooner : flight.ends < moment.session.nextTick) (early : flight.ends < limit) :
    Event settings limit moment [.ended flight.ends flight.ending]
      ⟨flight.ends,
        { moment.session with
          idle := if flight.ending = .panic then moment.session.idle else moment.session.idle + 1
          flights := others },
        enter moment.ledger (.ended flight.ends flight.ending)⟩

/-- What becomes of the queue: an idle worker takes its first job, or, once all workers are
lost, its jobs are given up. -/
inductive Service (script : Script) (moment : Moment) : List Occurrence → Moment → Prop
  | begun {job : Nat} {rest : List Nat} {run : Run} (waiting : moment.session.queue = job :: rest)
      (idle : moment.session.idle ≠ 0) (told : script moment.ledger.begun = run)
      (lasting : run.duration ≠ 0) :
    Service script moment [.begun moment.time job]
      ⟨moment.time,
        { moment.session with
          queue := rest
          idle := moment.session.idle - 1
          flights := moment.session.flights ++ [⟨moment.time + run.duration, run.ending⟩] },
        enter moment.ledger (.begun moment.time job)⟩
  | atOnce {job : Nat} {rest : List Nat} {run : Run} (waiting : moment.session.queue = job :: rest)
      (idle : moment.session.idle ≠ 0) (told : script moment.ledger.begun = run)
      (instant : run.duration = 0) :
    Service script moment [.begun moment.time job, .ended moment.time run.ending]
      ⟨moment.time,
        { moment.session with
          queue := rest
          idle := if run.ending = .panic then moment.session.idle - 1 else moment.session.idle },
        entered moment.ledger [.begun moment.time job, .ended moment.time run.ending]⟩
  | discarded (lost : moment.session.live = 0) :
    Service script moment (moment.session.queue.map (Occurrence.discarded moment.time))
      ⟨moment.time, { moment.session with queue := [] },
        entered moment.ledger (moment.session.queue.map (Occurrence.discarded moment.time))⟩

/-- Services until there is nothing more to do. -/
inductive Served (script : Script) : Moment → List Occurrence → Moment → Prop
  | settled {moment : Moment} : Settled moment.session → Served script moment [] moment
  | next {moment between final : Moment} {added record : List Occurrence} :
    Service script moment added between → Served script between record final →
      Served script moment (added ++ record) final

theorem Served.settles {moment final : Moment} {record : List Occurrence}
    (served : Served script moment record final) : Settled final.session := by
  induction served with
  | settled done => exact done
  | next _ _ ih => exact ih

private theorem take_service (time job : Nat) (rest : List Nat) {session : Session} (ledger : Ledger)
    (idle : session.idle ≠ 0) :
    ∃ added, Service script ⟨time, { session with queue := job :: rest }, ledger⟩ added
      ⟨time, { (session.take script time job ledger).1 with queue := rest },
        (session.take script time job ledger).2⟩ := by
  by_cases instant : (script ledger.begun).duration = 0
  · refine ⟨[.begun time job, .ended time (script ledger.begun).ending], ?_⟩
    simp only [Session.take, instant, if_true]
    exact .atOnce rfl idle rfl instant
  · refine ⟨[.begun time job], ?_⟩
    simp only [Session.take, instant, if_false]
    exact .begun rfl idle rfl instant

theorem serve_served (time : Nat) (jobs : List Nat) (session : Session) (ledger : Ledger) :
    ∃ record, Served script ⟨time, { session with queue := jobs }, ledger⟩ record
      ⟨time, (Session.serve script time jobs session ledger).1,
        (Session.serve script time jobs session ledger).2⟩ := by
  induction jobs generalizing session ledger with
  | nil => exact ⟨[], .settled (Or.inl rfl)⟩
  | cons job rest ih =>
    by_cases busy : session.idle = 0
    · by_cases none_flying : session.flights = []
      · have lost : session.live = 0 := by simp [Session.live, busy, none_flying]
        have result : Session.serve script time (job :: rest) session ledger =
            ({ session with queue := [] }, ledger.discard time (job :: rest)) := by
          simp [Session.serve, busy, none_flying]
        rw [result, discard_eq]
        exact ⟨_, .next (.discarded lost) (.settled (Or.inl rfl))⟩
      · have result : Session.serve script time (job :: rest) session ledger =
            ({ session with queue := job :: rest }, ledger) := by
          simp [Session.serve, busy, none_flying]
        rw [result]
        exact ⟨_, .settled (Or.inr ⟨busy, none_flying⟩)⟩
    · have result : Session.serve script time (job :: rest) session ledger =
          Session.serve script time rest (session.take script time job ledger).1
            (session.take script time job ledger).2 := by
        simp [Session.serve, busy]
      obtain ⟨added, service⟩ := @take_service script time job rest session ledger busy
      obtain ⟨record, served⟩ := ih (session.take script time job ledger).1
        (session.take script time job ledger).2
      rw [result]
      exact ⟨_, .next service served⟩

private theorem tick_cases {session : Session} {ledger : Ledger} (time : Nat)
    (due : TickDue limit session) :
    ∃ added next record, Event settings limit ⟨time, session, ledger⟩ added next ∧
      Served script next record
        ⟨next.time, (session.tick settings script ledger).1, (session.tick settings script ledger).2⟩ := by
  have live_ticked : ({ session with nextTick := session.nextTick + settings.interval } : Session).live =
      session.live := rfl
  by_cases lost : session.live = 0
  · have result : session.tick settings script ledger = (ticked settings session, ledger) := by
      simp [Session.tick, live_ticked, lost, ticked]
    rw [result]
    exact ⟨_, _, [], .unheard due lost, .settled due.settled⟩
  · by_cases room : session.queue.length < settings.workers
    · have result : session.tick settings script ledger =
          Session.serve script session.nextTick (session.queue ++ [session.nextTick])
            (ticked settings session) (enter ledger (.queued session.nextTick)) := by
        simp [Session.tick, live_ticked, lost, room, ticked, enter]
      obtain ⟨record, served⟩ := @serve_served script session.nextTick
        (session.queue ++ [session.nextTick]) (ticked settings session)
        (enter ledger (.queued session.nextTick))
      rw [result]
      exact ⟨_, _, record, .queued due lost room, served⟩
    · have result : session.tick settings script ledger =
          (ticked settings session, enter ledger (.dropped session.nextTick)) := by
        simp [Session.tick, live_ticked, lost, room, ticked, enter]
      rw [result]
      exact ⟨_, _, [], .dropped due lost (Nat.le_of_not_lt room), .settled due.settled⟩

/-- A step is an event and what idle workers make of it. -/
theorem step_cases {session : Session} {ledger : Ledger} {after : Session × Ledger} (time : Nat)
    (settled : Settled session) (step : session.step? settings script limit ledger = some after) :
    ∃ added next record, Event settings limit ⟨time, session, ledger⟩ added next ∧
      Served script next record ⟨next.time, after.1, after.2⟩ := by
  cases first : Session.earliest session.flights with
  | none =>
    have empty := earliest_eq_none.mp first
    by_cases early : session.nextTick < limit
    · simp only [Session.step?, first, early, if_true, Option.some.injEq] at step
      subst step
      exact tick_cases time ⟨settled, by simp [empty], early⟩
    · simp [Session.step?, first, early] at step
  | some best =>
    obtain ⟨flight, others⟩ := best
    by_cases sooner : flight.ends < session.nextTick
    · by_cases early : flight.ends < limit
      · simp only [Session.step?, first, sooner, early, if_true, Option.some.injEq] at step
        subst step
        obtain ⟨record, served⟩ := @serve_served script flight.ends session.queue
          { session with
            idle := if flight.ending = .panic then session.idle else session.idle + 1
            flights := others }
          (enter ledger (.ended flight.ends flight.ending))
        exact ⟨_, _, record, .landed settled first sooner early, served⟩
      · simp [Session.step?, first, sooner, early] at step
    · by_cases early : session.nextTick < limit
      · simp only [Session.step?, first, sooner, early, if_true, if_false, Option.some.injEq] at step
        subst step
        refine tick_cases time ⟨settled, ?_, early⟩
        intro other member
        obtain ⟨-, least⟩ := earliest_eq_some first
        have tick : session.nextTick ≤ flight.ends := Nat.le_of_not_lt sooner
        rcases List.mem_cons.mp ((earliest_perm first).mem_iff.mp member) with rfl | member
        · exact tick
        · exact Nat.le_trans tick (least other member)
      · simp [Session.step?, first, sooner, early] at step

theorem step_none {session : Session} {ledger : Ledger}
    (rest : session.step? settings script limit ledger = none) :
    limit ≤ session.nextTick ∧ ∀ flight ∈ session.flights, limit ≤ flight.ends := by
  cases first : Session.earliest session.flights with
  | none =>
    simp only [Session.step?, first, ite_eq_right_iff, reduceCtorEq, imp_false] at rest
    exact ⟨Nat.le_of_not_lt rest, by simp [earliest_eq_none.mp first]⟩
  | some best =>
    obtain ⟨flight, others⟩ := best
    obtain ⟨-, least⟩ := earliest_eq_some first
    have bounds : limit ≤ session.nextTick ∧ limit ≤ flight.ends := by
      simp only [Session.step?, first] at rest
      split at rest
      next sooner =>
        have late : ¬flight.ends < limit := by simpa using rest
        omega
      next =>
        have late : ¬session.nextTick < limit := by simpa using rest
        omega
    refine ⟨bounds.1, ?_⟩
    intro other member
    rcases List.mem_cons.mp ((earliest_perm first).mem_iff.mp member) with rfl | member
    · exact bounds.2
    · exact Nat.le_trans bounds.2 (least other member)

/-- Any number of steps before a limit, with all that they record. -/
inductive Course (settings : Settings) (script : Script) (limit : Nat) (origin : Moment) :
    List Occurrence → Moment → Prop
  | rest : Course settings script limit origin [] origin
  | step {record added services : List Occurrence} {moment between next : Moment} :
    Course settings script limit origin record moment → Event settings limit moment added between →
      Served script between services next →
      Course settings script limit origin (record ++ added ++ services) next

/-- What holds at the origin and is kept by each event and each service holds all along. -/
theorem Course.keeps {origin moment : Moment} {record : List Occurrence}
    (holds : Moment → List Occurrence → Prop) (start : holds origin [])
    (event : ∀ {moment next record added}, Event settings limit moment added next →
      holds moment record → holds next (record ++ added))
    (service : ∀ {moment next record added}, Service script moment added next →
      holds moment record → holds next (record ++ added))
    (course : Course settings script limit origin record moment) : holds moment record := by
  have serves : ∀ {moment next services} (_ : Served script moment services next) (record),
      holds moment record → holds next (record ++ services) := by
    intro moment next services served
    induction served with
    | settled => intro record held; simpa using held
    | next first _ ih =>
      intro record held
      rw [← List.append_assoc]
      exact ih _ (service first held)
  induction course with
  | rest => exact start
  | step _ occurred served ih => exact serves served _ (event occurred ih)

theorem Course.settled {origin moment : Moment} {record : List Occurrence}
    (start : Settled origin.session) (course : Course settings script limit origin record moment) :
    Settled moment.session := by
  cases course with
  | rest => exact start
  | step _ _ served => exact served.settles

theorem Event.later {moment next : Moment} {added : List Occurrence} {later : Nat}
    (event : Event settings limit moment added next) (sooner : limit ≤ later) :
    Event settings later moment added next := by
  have due_later : TickDue limit moment.session → TickDue later moment.session :=
    fun due => ⟨due.settled, due.first, Nat.lt_of_lt_of_le due.early sooner⟩
  cases event with
  | unheard due lost => exact .unheard (due_later due) lost
  | dropped due alive full => exact .dropped (due_later due) alive full
  | queued due alive room => exact .queued (due_later due) alive room
  | landed settled first before early => exact .landed settled first before (Nat.lt_of_lt_of_le early sooner)

theorem Course.later {origin moment : Moment} {record : List Occurrence} {later : Nat}
    (course : Course settings script limit origin record moment) (sooner : limit ≤ later) :
    Course settings script later origin record moment := by
  induction course with
  | rest => exact .rest
  | step _ event served ih => exact .step ih (event.later sooner) served

theorem Event.ledger {moment next : Moment} {added : List Occurrence}
    (event : Event settings limit moment added next) : next.ledger = entered moment.ledger added := by
  cases event <;> rfl

theorem Service.ledger {moment next : Moment} {added : List Occurrence}
    (service : Service script moment added next) : next.ledger = entered moment.ledger added := by
  cases service <;> rfl

theorem Event.begun_le {moment next : Moment} {added : List Occurrence}
    (event : Event settings limit moment added next) : moment.ledger.begun ≤ next.ledger.begun := by
  rw [event.ledger]
  exact begun_le_entered _ _

theorem Service.begun_le {moment next : Moment} {added : List Occurrence}
    (service : Service script moment added next) : moment.ledger.begun ≤ next.ledger.begun := by
  rw [service.ledger]
  exact begun_le_entered _ _

theorem Served.begun_le {moment final : Moment} {record : List Occurrence}
    (served : Served script moment record final) : moment.ledger.begun ≤ final.ledger.begun := by
  induction served with
  | settled => exact Nat.le_refl _
  | next service _ ih => exact Nat.le_trans service.begun_le ih

theorem Course.ledger {origin moment : Moment} {record : List Occurrence}
    (course : Course settings script limit origin record moment) :
    moment.ledger = entered origin.ledger record := by
  apply course.keeps (fun moment record => moment.ledger = entered origin.ledger record) rfl
  · intro moment next record added event same
    rw [event.ledger, same, entered_append]
  · intro moment next record added service same
    rw [service.ledger, same, entered_append]

theorem runSteps_course {origin moment : Moment} {record : List Occurrence} (steps : Nat)
    (start : Settled origin.session) (course : Course settings script limit origin record moment) :
    ∃ time added, Course settings script limit origin (record ++ added)
      ⟨time, (moment.session.runSteps settings script limit steps moment.ledger).1,
        (moment.session.runSteps settings script limit steps moment.ledger).2⟩ := by
  induction steps generalizing moment record with
  | zero => exact ⟨moment.time, [], by simpa [Session.runSteps] using course⟩
  | succ steps ih =>
    cases step : moment.session.step? settings script limit moment.ledger with
    | none =>
      refine ⟨moment.time, [], ?_⟩
      simpa [Session.runSteps, step] using course
    | some after =>
      obtain ⟨session, ledger⟩ := after
      obtain ⟨added, between, services, event, served⟩ :=
        step_cases moment.time (course.settled start) step
      obtain ⟨time, others, onward⟩ := ih (course.step event served)
      refine ⟨time, added ++ services ++ others, ?_⟩
      simpa [Session.runSteps, step] using onward

/-- A bound on the steps that are left before a limit. -/
def load (settings : Settings) (limit : Nat) (session : Session) : Nat :=
  2 * session.ticksBefore settings limit + session.queue.length + session.flights.length

private theorem ticksBefore_ticked {session : Session} (early : session.nextTick < limit) :
    (ticked settings session).ticksBefore settings limit + 1 = session.ticksBefore settings limit := by
  have positive := settings.interval_pos
  simp only [Session.ticksBefore, ticked]
  by_cases within : settings.interval ≤ limit - session.nextTick
  · have split : limit - session.nextTick + (settings.interval - 1) =
        limit - (session.nextTick + settings.interval) + (settings.interval - 1) +
          settings.interval := by omega
    rw [split, Nat.add_div_right _ positive]
  · have none_left : limit - (session.nextTick + settings.interval) + (settings.interval - 1) =
        settings.interval - 1 := by omega
    have one_left : limit - session.nextTick + (settings.interval - 1) =
        limit - session.nextTick - 1 + settings.interval := by omega
    rw [none_left, one_left, Nat.add_div_right _ positive,
      Nat.div_eq_of_lt (by omega), Nat.div_eq_of_lt (by omega)]

private theorem Event.load_lt {moment next : Moment} {added : List Occurrence}
    (event : Event settings limit moment added next) :
    load settings limit next.session < load settings limit moment.session := by
  have counted := @ticksBefore_ticked settings limit moment.session
  cases event with
  | unheard due =>
    have fewer := counted due.early
    simp only [load, ticked] at fewer ⊢
    omega
  | dropped due =>
    have fewer := counted due.early
    simp only [load, ticked] at fewer ⊢
    omega
  | queued due =>
    have fewer := counted due.early
    simp only [load, ticked, Session.ticksBefore, List.length_append, List.length_singleton] at fewer ⊢
    omega
  | landed _ first =>
    have fewer := earliest_length first
    simp only [load, Session.ticksBefore]
    omega

private theorem Service.load_le {moment next : Moment} {added : List Occurrence}
    (service : Service script moment added next) :
    load settings limit next.session ≤ load settings limit moment.session := by
  cases service with
  | begun waiting =>
    simp only [load, Session.ticksBefore, waiting, List.length_cons, List.length_append, List.length_nil]
    omega
  | atOnce waiting =>
    simp only [load, Session.ticksBefore, waiting, List.length_cons]
    omega
  | discarded =>
    simp only [load, Session.ticksBefore, List.length_nil]
    omega

private theorem Served.load_le {moment final : Moment} {record : List Occurrence}
    (settings : Settings) (limit : Nat) (served : Served script moment record final) :
    load settings limit final.session ≤ load settings limit moment.session := by
  induction served with
  | settled => exact Nat.le_refl _
  | next service _ ih => exact Nat.le_trans ih service.load_le

private theorem runSteps_rest {session : Session} {ledger : Ledger} {steps : Nat} (settled : Settled session)
    (enough : load settings limit session ≤ steps) :
    (session.runSteps settings script limit steps ledger).1.step? settings script limit
      (session.runSteps settings script limit steps ledger).2 = none := by
  induction steps generalizing session ledger with
  | zero =>
    cases step : session.step? settings script limit ledger with
    | none => exact step
    | some after =>
      obtain ⟨_, _, _, event, _⟩ := step_cases 0 settled step
      have fewer := event.load_lt
      simp only at fewer
      omega
  | succ steps ih =>
    cases step : session.step? settings script limit ledger with
    | none => simp [Session.runSteps, step]
    | some after =>
      obtain ⟨_, _, _, event, served⟩ := step_cases 0 settled step
      have fewer := event.load_lt
      have noMore := served.load_le settings limit
      simp only [Session.runSteps, step]
      exact ih served.settles (by simp only at fewer noMore; omega)

theorem runUntil_rest (settings : Settings) (script : Script) (limit : Nat) {session : Session}
    (ledger : Ledger) (settled : Settled session) :
    limit ≤ (session.runUntil settings script limit ledger).1.nextTick ∧
      ∀ flight ∈ (session.runUntil settings script limit ledger).1.flights, limit ≤ flight.ends :=
  step_none (runSteps_rest settled (Nat.le_refl _))

end MessagePress.Proofs.SessionCourse
