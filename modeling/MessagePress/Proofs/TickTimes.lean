import MessagePress.Proofs.SchedulerRuns

/-! The clock of a session. What happens in it happens in order, and when it has come to rest its
ticks are those of its start and of every interval behind it, up to now. -/

namespace MessagePress.Proofs.TickTimes
open Schedule SessionRecords SessionCourse SchedulerRuns

variable {settings : Settings} {script : Script} {start limit : Nat}

def firstTicks (settings : Settings) (start count : Nat) : List Nat :=
  (List.range count).map fun index => start + index * settings.interval

/-- The ticks of a session from its start to before a limit. -/
def ticks (settings : Settings) (start limit : Nat) : List Nat :=
  firstTicks settings start ((Session.start settings start).ticksBefore settings limit)

theorem firstTicks_succ (settings : Settings) (start count : Nat) :
    firstTicks settings start (count + 1) =
      firstTicks settings start count ++ [start + count * settings.interval] := by
  simp [firstTicks, List.range_succ]

theorem firstTicks_increase (settings : Settings) (start count : Nat) :
    (firstTicks settings start count).Pairwise (· < ·) := by
  apply List.pairwise_map.mpr
  refine List.pairwise_lt_range.imp fun {first second} less => ?_
  have := Nat.mul_lt_mul_of_pos_right less settings.interval_pos
  omega

theorem firstTicks_before {count tick : Nat} (member : tick ∈ firstTicks settings start count) :
    tick + settings.interval ≤ start + count * settings.interval := by
  obtain ⟨index, inside, rfl⟩ := List.mem_map.mp member
  have bound := Nat.mul_le_mul_right settings.interval (List.mem_range.mp inside)
  rw [Nat.succ_mul] at bound
  omega

theorem ticksBefore_eq {count : Nat} (started : start ≤ limit)
    (reached : limit ≤ start + count * settings.interval)
    (early : count = 0 ∨ start + count * settings.interval < limit + settings.interval) :
    (Session.start settings start).ticksBefore settings limit = count := by
  have positive := settings.interval_pos
  simp only [Session.ticksBefore, Session.start]
  rcases early with rfl | early
  · rw [Nat.zero_mul, Nat.add_zero] at reached
    exact Nat.div_eq_of_lt (by omega)
  · apply Nat.div_eq_of_lt_le
    · omega
    · rw [Nat.succ_mul]
      omega

theorem lt_ticksBefore {index : Nat} :
    index < (Session.start settings start).ticksBefore settings limit ↔
      start + index * settings.interval < limit := by
  have positive := settings.interval_pos
  rw [Session.ticksBefore, ← Nat.succ_le_iff, Nat.le_div_iff_mul_le positive, Nat.succ_mul]
  simp only [Session.start]
  omega

theorem ticks_getElem? (index : Nat) :
    (ticks settings start limit)[index]? =
      if start + index * settings.interval < limit then some (start + index * settings.interval)
      else none := by
  rw [ticks, firstTicks, List.getElem?_map]
  by_cases early : start + index * settings.interval < limit
  · simp [List.getElem?_range (lt_ticksBefore.mpr early), early]
  · rw [if_neg early, List.getElem?_eq_none]
    · rfl
    · simpa using fun inside => early (lt_ticksBefore.mp inside)

theorem mem_ticks {tick : Nat} :
    tick ∈ ticks settings start limit ↔
      tick < limit ∧ ∃ index, tick = start + index * settings.interval := by
  simp only [ticks, firstTicks, List.mem_map, List.mem_range, lt_ticksBefore]
  constructor
  · intro ⟨index, early, same⟩
    subst same
    exact ⟨early, index, rfl⟩
  · intro ⟨early, index, same⟩
    subst same
    exact ⟨index, early, rfl⟩

/-- A session that has started at a time is at a moment before a limit. -/
structure Timely (settings : Settings) (start limit : Nat) (moment : Moment)
    (record : List Occurrence) : Prop where
  phase : ∃ count, moment.session.nextTick = start + count * settings.interval ∧
    (count = 0 ∨ moment.session.nextTick < limit + settings.interval)
  reached : moment.time ≤ moment.session.nextTick
  recent : moment.session.nextTick ≤ moment.time + settings.interval
  waiting : moment.session.queue ≠ [] → moment.time < moment.session.nextTick
  flights : ∀ flight ∈ moment.session.flights, moment.time ≤ flight.ends
  endings : ∀ landing ∈ record.filterMap landing?,
    landing.1 ≤ moment.time ∧ landing.1 < moment.session.nextTick

theorem Timely.tick {moment : Moment} {record : List Occurrence}
    (timely : Timely settings start limit moment record) {added : List Occurrence} {queue : List Nat}
    {ledger : Ledger} (due : TickDue limit moment.session) (none_landed : added.filterMap landing? = []) :
    Timely settings start limit
      ⟨moment.session.nextTick, { ticked settings moment.session with queue }, ledger⟩
      (record ++ added) := by
  have positive := settings.interval_pos
  have early := due.early
  obtain ⟨count, next, -⟩ := timely.phase
  refine ⟨⟨count + 1, ?_, Or.inr ?_⟩, ?_, ?_, ?_, due.first, ?_⟩
  · simp only [ticked, next, Nat.succ_mul]
    omega
  · simp only [ticked]
    omega
  · simp only [ticked]
    omega
  · exact Nat.le_refl _
  · intro _
    simp only [ticked]
    omega
  · intro landing member
    rw [List.filterMap_append, none_landed, List.append_nil] at member
    have earlier := timely.endings landing member
    simp only [ticked]
    omega

theorem Timely.event {moment next : Moment} {record added : List Occurrence}
    (timely : Timely settings start limit moment record)
    (event : Event settings limit moment added next) :
    Timely settings start limit next (record ++ added) := by
  cases event with
  | unheard due => exact timely.tick due rfl
  | dropped due => exact timely.tick due rfl
  | queued due => exact timely.tick due rfl
  | @landed flight others _ first sooner =>
    obtain ⟨-, least⟩ := earliest_eq_some first
    have present : flight ∈ moment.session.flights :=
      (earliest_perm first).mem_iff.mpr List.mem_cons_self
    have later := timely.flights flight present
    have recent := timely.recent
    refine ⟨timely.phase, Nat.le_of_lt sooner, ?_, fun _ => sooner, least, ?_⟩
    · simp only
      omega
    · intro landing member
      rw [List.filterMap_append, List.mem_append] at member
      rcases member with member | member
      · have earlier := timely.endings landing member
        simp only
        omega
      · simp only [List.filterMap_cons, landing?, List.filterMap_nil, List.mem_singleton] at member
        subst member
        exact ⟨Nat.le_refl _, sooner⟩

theorem Timely.service {moment next : Moment} {record added : List Occurrence}
    (timely : Timely settings start limit moment record) (service : Service script moment added next) :
    Timely settings start limit next (record ++ added) := by
  cases service with
  | begun waiting =>
    refine ⟨timely.phase, timely.reached, timely.recent, ?_, ?_, ?_⟩
    · intro _
      exact timely.waiting (by simp [waiting])
    · intro flight member
      rcases List.mem_append.mp member with member | member
      · exact timely.flights flight member
      · cases List.mem_singleton.mp member
        exact Nat.le_add_right _ _
    · simpa [List.filterMap_cons] using timely.endings
  | atOnce waiting =>
    have ahead := timely.waiting (by simp [waiting])
    refine ⟨timely.phase, timely.reached, timely.recent, fun _ => ahead, timely.flights, ?_⟩
    intro landing member
    rw [List.filterMap_append, List.mem_append] at member
    rcases member with member | member
    · exact timely.endings landing member
    · simp only [List.filterMap_cons, landing?, List.filterMap_nil, List.mem_singleton] at member
      subst member
      exact ⟨Nat.le_refl _, ahead⟩
  | discarded =>
    refine ⟨timely.phase, timely.reached, timely.recent, fun some_left => absurd rfl some_left,
      timely.flights, ?_⟩
    simpa [Function.comp_def] using timely.endings

theorem timely_start (settings : Settings) (start limit : Nat) (ledger : Ledger) :
    Timely settings start limit ⟨start, .start settings start, ledger⟩ [] where
  phase := ⟨0, by simp [Session.start], Or.inl rfl⟩
  reached := Nat.le_refl _
  recent := Nat.le_add_right _ _
  waiting := fun some_left => absurd rfl some_left
  flights := fun _ member => nomatch member
  endings := fun _ member => nomatch member

theorem course_timely {origin : Ledger} {moment : Moment} {record : List Occurrence}
    (course : Course settings script limit ⟨start, .start settings start, origin⟩ record moment) :
    Timely settings start limit moment record :=
  course.keeps _ (timely_start settings start limit origin) (fun event held => held.event event)
    (fun service held => held.service service)

/-- The ticks that have come to a session at rest are all those before now. -/
theorem ticks_come {count : Nat} {moment : Moment} {record : List Occurrence}
    (timely : Timely settings start limit moment record) (started : start ≤ limit)
    (rest : limit ≤ moment.session.nextTick)
    (next : moment.session.nextTick = start + count * settings.interval) :
    ticks settings start limit = firstTicks settings start count := by
  obtain ⟨other, same, early⟩ := timely.phase
  have equal : other = count := by
    have products : other * settings.interval = count * settings.interval := by omega
    exact Nat.eq_of_mul_eq_mul_right settings.interval_pos products
  subst equal
  rw [next] at rest early
  rw [ticks, ticksBefore_eq started rest early]

end MessagePress.Proofs.TickTimes
