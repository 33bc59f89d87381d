import MessagePress.Proofs.SessionReplay
import MessagePress.Proofs.SingleSessions
import MessagePress.Schedule.Watch

/-! A scheduler that is watched at work. The ends of its runs become known one after the other, and
each time the scheduler is the one that has known from the start how long they take. -/

namespace MessagePress.Proofs.WatchedRuns
open Schedule SessionRecords SessionCourse SessionReplay SchedulerRuns RunStatistics SingleSessions

variable {settings : Settings} {script other : Script} {watch : Watch} {limit : ℕ}
  {landings : List (ℕ × Flight)}

/-- What a watch comes to. The landings that it was told are kept, each by the number of its run. -/
inductive Watched (settings : Settings) : List (ℕ × Flight) → Watch → Prop
  | started : Watched settings [] ⟨started settings, []⟩
  | advanced {landings : List (ℕ × Flight)} {watch : Watch} (time : ℕ) (early : time + 1 < Watch.horizon) :
    Watched settings landings watch → Watched settings landings (watch.advance settings time).1
  | landed {landings : List (ℕ × Flight)} {watch : Watch} (time : ℕ) (landing : Landing)
      (early : time < Watch.horizon) (flying : landing.number ∈ watch.flying)
      (first : ∀ known ∈ landings, known.1 ≠ landing.number) : Watched settings landings watch →
    Watched settings ((landing.number, ⟨max watch.scheduler.now time, landing.ending⟩) :: landings)
      (watch.land time landing)

/-- When the runs of a ledger began, by their numbers. -/
def beginning (ledger : Ledger) (number : ℕ) : ℕ := ledger.begunTimes.getD number 0

/-- A watch has come to what a script comes to. In this the runs that have landed end as it was told,
and all others end when nobody looks at them any more. -/
structure Follows (settings : Settings) (script : Script) (landings : List (ℕ × Flight)) (watch : Watch) :
    Prop where
  course : ∃ session time record, watch.scheduler.session = some session ∧
    Course settings script watch.scheduler.now ⟨0, .start settings 0, (started settings).ledger⟩ record
      ⟨time, session, watch.scheduler.ledger⟩ ∧ Rests watch.scheduler.now session
  flying : watch.flying = (List.range watch.scheduler.ledger.begun).filter
    (lasts script (beginning watch.scheduler.ledger) watch.scheduler.now)
  landed : ∀ known ∈ landings, known.1 < watch.scheduler.ledger.begun ∧ known.2.ends < Watch.horizon ∧
    flightOf script (beginning watch.scheduler.ledger) known.1 = known.2
  unended : ∀ number, (∀ known ∈ landings, known.1 ≠ number) → script number = Watch.unended number
  early : watch.scheduler.now < Watch.horizon

theorem beginsAt_beginning (settings : Settings) {ledger : Ledger} {record : List Occurrence}
    (entries : ledger = entered (started settings).ledger record) :
    BeginsAt (beginning ledger) record := by
  intro number run known
  rw [beginning, entries, begunTimes_entered, List.getD_eq_getElem?_getD]
  have none_before : (started settings).ledger.begunTimes = [] := rfl
  rw [none_before, List.nil_append, List.getElem?_map, known]
  rfl

theorem begunTimes_counted (settings : Settings) {ledger : Ledger} {record : List Occurrence}
    (entries : ledger = entered (started settings).ledger record) :
    ledger.begunTimes.length = ledger.begun := by
  rw [entries, begunTimes_entered, entered_begun, List.length_append, List.length_map]
  rfl

theorem beginning_entered {ledger : Ledger} {record : List Occurrence} {number : ℕ}
    (counted : ledger.begunTimes.length = ledger.begun) (before : number < ledger.begun) :
    beginning (entered ledger record) number = beginning ledger number := by
  rw [beginning, beginning, begunTimes_entered, List.getD_eq_getElem?_getD, List.getD_eq_getElem?_getD,
    List.getElem?_append_left (counted.symm ▸ before)]

/-- Services go by what the script tells of the runs that have not begun. -/
theorem Served.ahead {moment next : Moment} {record : List Occurrence}
    (same : ∀ number, moment.ledger.begun ≤ number → script number = other number)
    (served : Served script moment record next) : Served other moment record next := by
  induction served with
  | settled done => exact .settled done
  | @next moment between final added record service served ih =>
    refine .next ?_ (ih fun number after => same number (Nat.le_trans service.begun_le after))
    cases service with
    | begun waiting idle known lasting =>
      exact .begun waiting idle ((same _ (Nat.le_refl _)).symm.trans known) lasting
    | atOnce waiting idle known instant =>
      exact .atOnce waiting idle ((same _ (Nat.le_refl _)).symm.trans known) instant
    | discarded lost => exact .discarded lost

/-- A course goes on in a script with the runs that another one tells of those to come. -/
theorem runSteps_ahead {origin moment : Moment} {record : List Occurrence} (steps : ℕ)
    (start : Settled origin.session)
    (same : ∀ number, moment.ledger.begun ≤ number → other number = script number)
    (course : Course settings script limit origin record moment) :
    ∃ time added, Course settings script limit origin (record ++ added)
      ⟨time, (moment.session.runSteps settings other limit steps moment.ledger).1,
        (moment.session.runSteps settings other limit steps moment.ledger).2⟩ := by
  induction steps generalizing moment record with
  | zero => exact ⟨moment.time, [], by simpa [Session.runSteps] using course⟩
  | succ steps ih =>
    cases step : moment.session.step? settings other limit moment.ledger with
    | none => exact ⟨moment.time, [], by simpa [Session.runSteps, step] using course⟩
    | some after =>
      obtain ⟨added, between, services, event, served⟩ :=
        step_cases moment.time (course.settled start) step
      have served := Served.ahead
        (fun number after => same number (Nat.le_trans event.begun_le after)) served
      have begun := Nat.le_trans event.begun_le served.begun_le
      have onward := course.step event served
      obtain ⟨time, others, onward⟩ :=
        ih (fun number after => same number (Nat.le_trans begun after)) onward
      refine ⟨time, added ++ services ++ others, ?_⟩
      simpa [Session.runSteps, step] using onward

theorem filter_zip {α β : Type} (image : α → β) (keep : β → Bool) (items : List α) :
    ((items.zip (items.map image)).filter fun pair => keep pair.2).map Prod.fst =
      items.filter fun item => keep (image item) := by
  induction items with
  | nil => rfl
  | cons item items ih =>
    simp only [List.map_cons, List.zip_cons_cons, List.filter_cons]
    split <;> simp [ih]

theorem set_idxOf {α β : Type} [BEq α] [LawfulBEq α] {image changed : α → β} {item : α}
    {items : List α} (distinct : items.Nodup) (same : ∀ other, other ≠ item → changed other = image other)
    (inside : item ∈ items) :
    (items.map image).set (items.idxOf item) (changed item) = items.map changed := by
  induction items with
  | nil => cases inside
  | cons head items ih =>
    obtain ⟨apart, distinct⟩ := List.nodup_cons.mp distinct
    by_cases found : head = item
    · subst found
      have others : items.map image = items.map changed := by
        refine List.map_congr_left fun other member => (same other ?_).symm
        rintro rfl
        exact apart member
      simp [others]
    · have inside := (List.mem_cons.mp inside).resolve_left fun same => found same.symm
      rw [List.idxOf_cons_ne items found, List.map_cons, List.map_cons, List.set_cons_succ,
        ih distinct inside, same head found]

/-- In the course of a script that comes to rest the flights are those of all runs that last. -/
theorem flights_of_course {session : Session} {time now : ℕ} {ledger : Ledger}
    {record : List Occurrence}
    (course : Course settings script now ⟨0, .start settings 0, (started settings).ledger⟩ record
      ⟨time, session, ledger⟩) (rests : Rests now session) :
    Traced script (beginning ledger) now
      ((List.range ledger.begun).filter (lasts script (beginning ledger) now)) ⟨time, session, ledger⟩ := by
  obtain ⟨numbers, traced, -⟩ :=
    Course.retold (fun _ => Or.inl rfl) rfl (beginsAt_beginning settings course.ledger) course
  exact traced.rests rests ▸ traced

/-- Of the runs in flight those are left that last, and with them all that have begun. -/
theorem lasting_onward {ledger ledger' : Ledger} {now : ℕ} (later : now ≤ limit)
    (within : limit < Watch.horizon) (begun : ledger.begun ≤ ledger'.begun)
    (kept : ∀ number < ledger.begun, beginning ledger' number = beginning ledger number)
    (ahead : ∀ number, ledger.begun ≤ number → Watch.unended number = script number) :
    ((List.range ledger.begun).filter (lasts script (beginning ledger) now)).filter
        (lasts script (beginning ledger) limit) ++
      List.range' ledger.begun (ledger'.begun - ledger.begun) =
        (List.range ledger'.begun).filter (lasts script (beginning ledger') limit) := by
  have whole : List.range ledger'.begun =
      List.range ledger.begun ++ List.range' ledger.begun (ledger'.begun - ledger.begun) := by
    obtain ⟨more, same⟩ := Nat.exists_eq_add_of_le begun
    rw [same, Nat.add_sub_cancel_left, List.range_eq_range', List.range_eq_range', ← List.range'_append_1,
      Nat.zero_add]
  rw [whole, List.filter_append, List.filter_filter]
  congr 1
  · refine List.filter_congr fun number inside => ?_
    rw [lasts, lasts, lasts, flightOf, flightOf, kept number (List.mem_range.mp inside)]
    simp only [← Bool.decide_and]
    exact decide_eq_decide.mpr ⟨And.left, fun late => ⟨late, Nat.le_trans later late⟩⟩
  · refine (List.filter_eq_self.mpr fun number member => decide_eq_true ?_).symm
    obtain ⟨after, -⟩ := List.mem_range'_1.mp member
    rw [flightOf, ← ahead number after]
    exact Nat.le_trans (Nat.le_of_lt within) (Nat.le_add_left _ _)

/-- A wait in which no run is told to end goes on with a course in whose script none does. -/
theorem wait_ahead {now : ℕ} {session : Session} {time : ℕ} {ledger : Ledger} {record : List Occurrence}
    (course : Course settings script now ⟨0, .start settings 0, (started settings).ledger⟩ record
      ⟨time, session, ledger⟩)
    (ahead : ∀ number, ledger.begun ≤ number → Watch.unended number = script number) (duration : ℕ) :
    ∃ later after added,
      (⟨now, some session, ledger⟩ : Scheduler).wait settings Watch.unended duration =
        ⟨now + duration, some after, entered ledger added⟩ ∧
      Course settings script (now + duration) ⟨0, .start settings 0, (started settings).ledger⟩
        (record ++ added) ⟨later, after, entered ledger added⟩ ∧
      Rests (now + duration) after := by
  have settled := course.settled (start_settled settings 0)
  have rests : Rests (now + duration) (session.runUntil settings Watch.unended (now + duration) ledger).1 :=
    runUntil_rest settings Watch.unended (now + duration) ledger settled
  obtain ⟨later, added, onward⟩ := runSteps_ahead
    (2 * session.ticksBefore settings (now + duration) + session.queue.length + session.flights.length)
    (start_settled settings 0) ahead (course.later (Nat.le_add_right now duration))
  change Course settings script (now + duration) _ _
    ⟨later, (session.runUntil settings Watch.unended (now + duration) ledger).1,
      (session.runUntil settings Watch.unended (now + duration) ledger).2⟩ at onward
  have entries := onward.ledger
  rw [entered_append, ← course.ledger] at entries
  simp only at entries
  rw [entries] at onward
  refine ⟨later, _, added, ?_, onward, rests⟩
  rw [wait_running rfl, entries]

theorem Follows.ahead (follows : Follows settings script landings watch) {number : ℕ}
    (after : watch.scheduler.ledger.begun ≤ number) : script number = Watch.unended number := by
  refine follows.unended number fun known member => ?_
  have inside := (follows.landed known member).1
  omega

theorem Follows.advance (follows : Follows settings script landings watch) {time : ℕ}
    (early : time + 1 < Watch.horizon) :
    Follows settings script landings (watch.advance settings time).1 := by
  have ahead : ∀ number, watch.scheduler.ledger.begun ≤ number →
      Watch.unended number = script number := fun number after => (follows.ahead after).symm
  obtain ⟨⟨now, running, ledger⟩, flying⟩ := watch
  obtain ⟨⟨session, last, record, present, course, rests⟩, known, landed, unended, before⟩ := follows
  simp only at present course rests known landed before ahead
  subst known present
  have flights : session.flights = _ := (flights_of_course course rests).flights
  obtain ⟨last', session', added, waited, onward, rests'⟩ := wait_ahead course ahead (time + 1 - now)
  have later : now ≤ now + (time + 1 - now) := Nat.le_add_right _ _
  have within : now + (time + 1 - now) < Watch.horizon := by omega
  generalize now + (time + 1 - now) = limit at *
  have begun : ledger.begun ≤ (entered ledger added).begun := begun_le_entered ledger added
  have kept : ∀ number < ledger.begun,
      beginning (entered ledger added) number = beginning ledger number :=
    fun number before => beginning_entered (begunTimes_counted settings course.ledger) before
  have flying := lasting_onward later within begun kept ahead
  have advanced : (Watch.advance settings time ⟨⟨now, some session, ledger⟩,
      (List.range ledger.begun).filter (lasts script (beginning ledger) now)⟩).1 =
      ⟨⟨limit, some session', entered ledger added⟩, (List.range (entered ledger added).begun).filter
        (lasts script (beginning (entered ledger added)) limit)⟩ := by
    simp only [Watch.advance, waited, flights, Option.map_some, Option.getD_some]
    rw [filter_zip (flightOf script (beginning ledger)) fun flight => decide (limit ≤ flight.ends)]
    exact congrArg (Watch.mk _) flying
  rw [advanced]
  refine ⟨⟨session', last', _, rfl, onward, rests'⟩, rfl, ?_, unended, within⟩
  intro known member
  obtain ⟨inside, soon, ends⟩ := landed known member
  refine ⟨Nat.lt_of_lt_of_le inside begun, soon, ?_⟩
  rw [← ends, flightOf, flightOf, kept known.1 inside]

/-- The script in which a run that began in its time ends as a flight does. -/
def ended (script : Script) (times : ℕ → ℕ) (number : ℕ) (flight : Flight) : Script :=
  Function.update script number ⟨flight.ends - times number, flight.ending⟩

variable {times : ℕ → ℕ} {number another : ℕ} {flight : Flight}

theorem flightOf_ended (sooner : times number ≤ flight.ends) :
    flightOf (ended script times number flight) times number = flight := by
  rw [flightOf, ended, Function.update_self, Nat.add_sub_cancel' sooner]

theorem flightOf_ended_of_ne (different : another ≠ number) :
    flightOf (ended script times number flight) times another = flightOf script times another := by
  rw [flightOf, flightOf, ended, Function.update_of_ne different]

theorem retold_ended (sooner : times number ≤ flight.ends) (late : limit ≤ flight.ends)
    (lasting : lasts script times limit number) :
    Retold script (ended script times number flight) times limit := by
  intro another
  by_cases same : another = number
  · subst same
    refine Or.inr ⟨of_decide_eq_true lasting, ?_⟩
    rwa [flightOf_ended sooner]
  · exact Or.inl (Function.update_of_ne same _ _).symm

theorem lasts_ended (sooner : times number ≤ flight.ends) (late : limit ≤ flight.ends)
    (lasting : lasts script times limit number) (another : ℕ) :
    lasts (ended script times number flight) times limit another = lasts script times limit another := by
  by_cases same : another = number
  · subst same
    rw [lasting, lasts, flightOf_ended sooner, decide_eq_true late]
  · rw [lasts, lasts, flightOf_ended_of_ne same]

/-- A run in flight that lands later than it is looked at has always been going to land then. -/
theorem Follows.land (follows : Follows settings script landings watch) {time : ℕ}
    {landing : Landing} (early : time < Watch.horizon) (flying : landing.number ∈ watch.flying)
    (first : ∀ known ∈ landings, known.1 ≠ landing.number) :
    ∃ other, Follows settings other
      ((landing.number, ⟨max watch.scheduler.now time, landing.ending⟩) :: landings)
      (watch.land time landing) := by
  obtain ⟨⟨now, running, ledger⟩, numbers⟩ := watch
  obtain ⟨⟨session, last, record, present, course, rests⟩, known, landed, unended, before⟩ := follows
  obtain ⟨number, ending⟩ := landing
  simp only at present course rests known landed before flying first ⊢
  subst known present
  obtain ⟨inside, lasting⟩ := List.mem_filter.mp flying
  have traced := flights_of_course course rests
  have begun := List.mem_range.mp inside
  have late : now ≤ max now time := Nat.le_max_left _ _
  have sooner : beginning ledger number ≤ max now time :=
    Nat.le_trans (Nat.le_of_lt (traced.early number begun)) late
  have retold := @retold_ended script now (beginning ledger) number ⟨max now time, ending⟩ sooner late lasting
  have same := @lasts_ended script now (beginning ledger) number ⟨max now time, ending⟩ sooner late lasting
  refine ⟨ended script (beginning ledger) number ⟨max now time, ending⟩, ?_⟩
  obtain ⟨numbers, again, onward⟩ := Course.retold retold rfl (beginsAt_beginning settings course.ledger) course
  obtain rfl := again.rests rests
  have flights := set_idxOf (List.nodup_range.filter _) (fun another different =>
    @flightOf_ended_of_ne script (beginning ledger) number another ⟨max now time, ending⟩ different) flying
  rw [flightOf_ended sooner, ← traced.flights] at flights
  refine ⟨⟨_, last, record, ?_, onward, rests.1, ?_⟩, ?_, ?_, ?_, before⟩
  · simp only [Watch.land, Option.map_some, flights]
  · intro flight member
    obtain ⟨another, listed, rfl⟩ := List.mem_map.mp member
    have lasting := (List.mem_filter.mp listed).2
    rw [← same another] at lasting
    exact of_decide_eq_true lasting
  · exact (List.filter_congr fun another _ => same another).symm
  · refine List.forall_mem_cons.mpr ⟨⟨begun, Nat.max_lt.mpr ⟨before, early⟩, flightOf_ended sooner⟩, ?_⟩
    intro known member
    obtain ⟨inside, soon, ends⟩ := landed known member
    exact ⟨inside, soon, (flightOf_ended_of_ne (first known member)).trans ends⟩
  · intro another apart
    obtain ⟨different, others⟩ := List.forall_mem_cons.mp apart
    rw [ended, Function.update_of_ne (Ne.symm different)]
    exact unended another others

theorem follows_of_watched (watched : Watched settings landings watch) :
    ∃ script, Follows settings script landings watch := by
  induction watched with
  | started =>
    refine ⟨Watch.unended, ⟨⟨_, 0, [], rfl, .rest, Nat.le_refl _, nofun⟩, rfl, nofun, fun _ _ => rfl, ?_⟩⟩
    exact Nat.pow_pos (show 0 < 2 by decide)
  | advanced time early _ ih =>
    obtain ⟨script, follows⟩ := ih
    exact ⟨script, follows.advance early⟩
  | landed time landing early flying first _ ih =>
    obtain ⟨script, follows⟩ := ih
    exact follows.land early flying first

theorem Follows.flights (follows : Follows settings script landings watch) :
    ∃ session, watch.scheduler.session = some session ∧ Rests watch.scheduler.now session ∧
      session.flights = watch.flying.map (flightOf script (beginning watch.scheduler.ledger)) := by
  obtain ⟨⟨session, time, record, running, course, rests⟩, flying, -, -, -⟩ := follows
  exact ⟨session, running, rests, flying ▸ (flights_of_course course rests).flights⟩

/-- The landings that are still to come are those of the runs in flight that were not told of. -/
theorem pending_eq (watched : Watched settings landings watch) : watch.pending =
    watch.flying.countP fun number => ∀ known ∈ landings, known.1 ≠ number := by
  obtain ⟨script, follows⟩ := follows_of_watched watched
  obtain ⟨session, running, -, flights⟩ := follows.flights
  simp only [Watch.pending, running, Option.map_some, Option.getD_some, flights, List.countP_map]
  refine List.countP_congr fun number _ => ?_
  simp only [Function.comp_apply, decide_eq_true_eq]
  constructor
  · rintro late known member rfl
    obtain ⟨-, soon, ends⟩ := follows.landed known member
    rw [ends] at late
    exact Nat.not_lt.mpr late soon
  · intro apart
    rw [flightOf, follows.unended number apart]
    exact Nat.le_add_left _ _

private theorem due_bounds (tick : ℕ) (flights : List Flight) :
    flights.foldl (fun due flight => min due flight.ends) tick ≤ tick ∧
      ∀ flight ∈ flights, flights.foldl (fun due flight => min due flight.ends) tick ≤ flight.ends := by
  induction flights generalizing tick with
  | nil => exact ⟨Nat.le_refl _, nofun⟩
  | cons first rest ih =>
    obtain ⟨sooner, bounds⟩ := ih (min tick first.ends)
    refine ⟨Nat.le_trans sooner (Nat.min_le_left _ _), List.forall_mem_cons.mpr ⟨?_, bounds⟩⟩
    exact Nat.le_trans sooner (Nat.min_le_right _ _)

/-- In a pause nothing happens but that time passes. -/
theorem advance_paused (watched : Watched settings landings watch) {time later : ℕ}
    (behind : time ≤ later) (paused : later < time + watch.pause time) :
    watch.advance settings later =
      ({ watch with scheduler.now := max watch.scheduler.now (later + 1) }, []) := by
  obtain ⟨script, follows⟩ := follows_of_watched watched
  obtain ⟨session, running, rests, flights⟩ := follows.flights
  obtain ⟨tick, ends⟩ := due_bounds session.nextTick session.flights
  simp only [Watch.pause, running, Option.map_some, Option.getD_some] at paused
  have limit : watch.scheduler.now + (later + 1 - watch.scheduler.now) =
      max watch.scheduler.now (later + 1) := by omega
  have still : Rests (max watch.scheduler.now (later + 1)) session := by
    refine ⟨Nat.max_le.mpr ⟨rests.1, by omega⟩, fun flight member => ?_⟩
    have sooner := ends flight member
    exact Nat.max_le.mpr ⟨rests.2 flight member, by omega⟩
  have waited : watch.scheduler.wait settings Watch.unended (later + 1 - watch.scheduler.now) =
      { watch.scheduler with now := max watch.scheduler.now (later + 1) } := by
    rw [wait_running running, limit, Session.runUntil, runSteps_of_rests still, ← running]
  have stay : (watch.flying.filter fun number => decide (max watch.scheduler.now (later + 1) ≤
      (flightOf script (beginning watch.scheduler.ledger) number).ends)) = watch.flying := by
    refine List.filter_eq_self.mpr fun number member => decide_eq_true ?_
    exact still.2 _ (flights ▸ List.mem_map_of_mem member)
  simp only [Watch.advance, waited, running, Option.map_some, Option.getD_some, flights, Nat.sub_self,
    List.range'_zero, List.append_nil]
  rw [filter_zip (flightOf script (beginning watch.scheduler.ledger)) fun flight =>
    decide (max watch.scheduler.now (later + 1) ≤ flight.ends), stay]

/-- Scripts that agree on the runs that have begun, and in which the others would last, come to the
same. -/
theorem Follows.wait (follows : Follows settings script landings watch)
    (begun : ∀ number < watch.scheduler.ledger.begun, script number = other number)
    (ahead : ∀ number, watch.scheduler.ledger.begun ≤ number →
      watch.scheduler.now ≤ (other number).duration) :
    watch.scheduler = (started settings).wait settings other watch.scheduler.now := by
  have retold : Retold script other (beginning watch.scheduler.ledger) watch.scheduler.now := by
    intro number
    by_cases before : number < watch.scheduler.ledger.begun
    · exact Or.inl (begun number before)
    · have after := Nat.le_of_not_lt before
      refine Or.inr ⟨?_, Nat.le_trans (ahead number after) (Nat.le_add_left _ _)⟩
      rw [flightOf, follows.ahead after]
      exact Nat.le_trans (Nat.le_of_lt follows.early) (Nat.le_add_left _ _)
  obtain ⟨session, time, record, running, course, rests⟩ := follows.course
  obtain ⟨numbers, traced, onward⟩ :=
    Course.retold retold rfl (beginsAt_beginning settings course.ledger) course
  have same : numbers.map (flightOf other (beginning watch.scheduler.ledger)) = session.flights := by
    refine Eq.trans (List.map_congr_left fun number member => ?_) traced.flights.symm
    rw [traced.rests rests] at member
    rw [flightOf, flightOf, begun number (List.mem_range.mp (List.mem_filter.mp member).1)]
  simp only [told, same] at onward
  have ran := runUntil_of_course (start_settled settings 0) onward rests
  have waited : (started settings).wait settings other watch.scheduler.now = _ :=
    wait_running rfl watch.scheduler.now
  simp only [started, Nat.zero_add] at waited ran
  rw [started, waited, ran, ← running]

/-- A watch always shows the scheduler that has known from its start how long the runs take. It may
be stopped at any time, and has then been started and stopped like any other. -/
theorem watched_run (watched : Watched settings landings watch) :
    ∃ script : Script,
      (∀ known ∈ landings, flightOf script (beginning watch.scheduler.ledger) known.1 = known.2) ∧
      watch.scheduler = (started settings).wait settings script watch.scheduler.now ∧
      ∃ after, watch.scheduler.stop = .ok after ∧
        Stopped settings script watch.scheduler.now after := by
  obtain ⟨script, follows⟩ := follows_of_watched watched
  have same : watch.scheduler = (started settings).wait settings script watch.scheduler.now := by
    refine follows.wait (fun _ _ => rfl) fun number after => ?_
    rw [follows.ahead after]
    exact Nat.le_of_lt follows.early
  obtain ⟨after, stops, stopped⟩ := stop_ok settings script watch.scheduler.now
  rw [← same] at stops
  exact ⟨script, fun known member => (follows.landed known member).2.2, same, after, stops, stopped⟩

end MessagePress.Proofs.WatchedRuns
