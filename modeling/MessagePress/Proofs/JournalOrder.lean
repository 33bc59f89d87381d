import MessagePress.Proofs.SchedulerRuns

/-! The order of a journal. What it tells of happened in that order, and none of it after now. -/

namespace MessagePress.Proofs.JournalOrder
open Schedule SessionRecords SessionCourse SchedulerRuns

variable {settings : Settings} {script : Script} {scheduler : Scheduler} {limit : Nat}

/-- When something happened. -/
@[simp] def instant : Occurrence → Nat
  | .started time | .queued time | .dropped time | .stopped time => time
  | .begun time _ | .ended time _ | .discarded time _ => time

/-- Occurrences in the order of their times, from a first one to a last. -/
structure Ordered (first last : Nat) (record : List Occurrence) : Prop where
  ascending : record.Pairwise fun earlier later => instant earlier ≤ instant later
  within : ∀ occurrence ∈ record, first ≤ instant occurrence ∧ instant occurrence ≤ last

variable {record added : List Occurrence} {first middle last : Nat}

theorem Ordered.nil : Ordered first last [] := ⟨List.Pairwise.nil, fun _ member => nomatch member⟩

theorem Ordered.append (before : Ordered first middle record) (behind : Ordered middle last added)
    (begins : first ≤ middle) (ends : middle ≤ last) : Ordered first last (record ++ added) := by
  refine ⟨List.pairwise_append.mpr ⟨before.ascending, behind.ascending, ?_⟩, ?_⟩
  · intro earlier inside later among
    exact Nat.le_trans (before.within earlier inside).2 (behind.within later among).1
  · intro occurrence member
    rcases List.mem_append.mp member with member | member
    · have bounds := before.within occurrence member
      exact ⟨bounds.1, Nat.le_trans bounds.2 ends⟩
    · have bounds := behind.within occurrence member
      exact ⟨Nat.le_trans begins bounds.1, bounds.2⟩

theorem Ordered.atOnce (begins : first ≤ last) (same : ∀ occurrence ∈ added, instant occurrence = last) :
    Ordered first last added := by
  refine ⟨List.pairwise_of_forall_mem_list ?_, ?_⟩
  · intro earlier inside later among
    exact Nat.le_of_eq ((same earlier inside).trans (same later among).symm)
  · intro occurrence member
    rw [same occurrence member]
    exact ⟨begins, Nat.le_refl _⟩

theorem Ordered.until (ordered : Ordered first middle record) (ends : middle ≤ last) :
    Ordered first last record := by
  refine ⟨ordered.ascending, ?_⟩
  intro occurrence member
  have bounds := ordered.within occurrence member
  exact ⟨bounds.1, Nat.le_trans bounds.2 ends⟩

theorem Ordered.pieces {α : Type} {piece : Occurrence → Option α} {time : α → Nat}
    (ordered : Ordered first last record)
    (told : ∀ occurrence found, piece occurrence = some found → instant occurrence = time found) :
    (record.filterMap piece).Pairwise fun earlier later => time earlier ≤ time later := by
  apply List.pairwise_filterMap.mpr
  refine ordered.ascending.imp fun {earlier later} less first found second among => ?_
  rw [← told earlier first found, ← told later second among]
  exact less

theorem Ordered.pieces_within {α : Type} {piece : Occurrence → Option α} {time : α → Nat}
    (ordered : Ordered first last record)
    (told : ∀ occurrence found, piece occurrence = some found → instant occurrence = time found) :
    ∀ found ∈ record.filterMap piece, first ≤ time found ∧ time found ≤ last := by
  intro found member
  obtain ⟨occurrence, inside, same⟩ := List.mem_filterMap.mp member
  rw [← told occurrence found same]
  exact ordered.within occurrence inside

/-- Nothing that is to come in a session is past. -/
structure Ahead (moment : Moment) : Prop where
  tick : moment.time ≤ moment.session.nextTick
  flights : ∀ flight ∈ moment.session.flights, moment.time ≤ flight.ends

theorem Ahead.event {moment next : Moment} (ahead : Ahead moment)
    (event : Event settings limit moment added next) :
    Ahead next ∧ moment.time ≤ next.time ∧ next.time < limit ∧
      ∀ occurrence ∈ added, instant occurrence = next.time := by
  cases event with
  | unheard due =>
    exact ⟨⟨Nat.le_add_right _ _, due.first⟩, ahead.tick, due.early, fun _ member => nomatch member⟩
  | dropped due => exact ⟨⟨Nat.le_add_right _ _, due.first⟩, ahead.tick, due.early, by simp⟩
  | queued due => exact ⟨⟨Nat.le_add_right _ _, due.first⟩, ahead.tick, due.early, by simp⟩
  | @landed flight others _ found sooner early =>
    obtain ⟨-, least⟩ := earliest_eq_some found
    have present : flight ∈ moment.session.flights := (earliest_perm found).mem_iff.mpr List.mem_cons_self
    exact ⟨⟨Nat.le_of_lt sooner, least⟩, ahead.flights flight present, early, by simp⟩

theorem Ahead.service {moment next : Moment} (ahead : Ahead moment)
    (service : Service script moment added next) :
    Ahead next ∧ next.time = moment.time ∧ ∀ occurrence ∈ added, instant occurrence = next.time := by
  cases service with
  | begun =>
    refine ⟨⟨ahead.tick, ?_⟩, rfl, by simp⟩
    intro flight member
    rcases List.mem_append.mp member with member | member
    · exact ahead.flights flight member
    · cases List.mem_singleton.mp member
      exact Nat.le_add_right _ _
  | atOnce => exact ⟨⟨ahead.tick, ahead.flights⟩, rfl, by simp⟩
  | discarded => exact ⟨⟨ahead.tick, ahead.flights⟩, rfl, by simp⟩

theorem course_ordered {origin moment : Moment} (ahead : Ahead origin) (begins : origin.time ≤ limit)
    (course : Course settings script limit origin record moment) :
    Ahead moment ∧ Ordered origin.time moment.time record ∧ origin.time ≤ moment.time ∧
      moment.time ≤ limit := by
  apply course.keeps fun moment record => Ahead moment ∧ Ordered origin.time moment.time record ∧
    origin.time ≤ moment.time ∧ moment.time ≤ limit
  · exact ⟨ahead, .nil, Nat.le_refl _, begins⟩
  · intro moment next record added event ⟨ahead, ordered, later, _⟩
    obtain ⟨onward, passed, early, same⟩ := ahead.event event
    exact ⟨onward, ordered.append (.atOnce passed same) later passed, Nat.le_trans later passed,
      Nat.le_of_lt early⟩
  · intro moment next record added service ⟨ahead, ordered, later, early⟩
    obtain ⟨onward, now, same⟩ := ahead.service service
    rw [now] at same ⊢
    exact ⟨onward, ordered.append (.atOnce (Nat.le_refl _) same) later (Nat.le_refl _), later, early⟩

theorem start_ahead (settings : Settings) (time : Nat) (ledger : Ledger) :
    Ahead ⟨time, .start settings time, ledger⟩ :=
  ⟨Nat.le_refl _, fun _ member => nomatch member⟩

theorem underway_ahead {session : Session} (underway : Underway settings script scheduler session) :
    Ahead ⟨scheduler.now, session, scheduler.ledger⟩ :=
  ⟨underway.tick, underway.flights⟩

theorem closing_ordered {session : Session} (underway : Underway settings script scheduler session) :
    Ordered scheduler.now (session.lastEnd scheduler.now)
      (closing scheduler.now session.flights.length session ++
        [.stopped (session.lastEnd scheduler.now)]) := by
  have later := le_lastEnd scheduler.now session
  have given_up : Ordered scheduler.now scheduler.now
      (session.queue.map (Occurrence.discarded scheduler.now)) :=
    .atOnce (Nat.le_refl _) (by simp)
  have landing : Ordered scheduler.now (session.lastEnd scheduler.now)
      ((departures session.flights.length session.flights).map landed) := by
    refine ⟨List.pairwise_map.mpr (departures_ordered (Nat.le_refl _)), ?_⟩
    intro occurrence member
    obtain ⟨flight, leaving, rfl⟩ := List.mem_map.mp member
    have present := departures_mem (Nat.le_refl _) leaving
    exact ⟨underway.flights flight present, ends_le_lastEnd scheduler.now present⟩
  exact (given_up.append landing (Nat.le_refl _) later).append (.atOnce (Nat.le_refl _) (by simp)) later
    (Nat.le_refl _)

theorem reached_ordered (reached : Reached settings script scheduler) :
    Ordered 0 scheduler.now scheduler.ledger.journal.reverse := by
  apply reached.keeps fun scheduler => Ordered 0 scheduler.now scheduler.ledger.journal.reverse
  case fresh => exact .nil
  case starts =>
    intro scheduler _ ordered
    simp only [Ledger.note, List.reverse_cons]
    exact ordered.append (.atOnce (Nat.le_refl _) (by simp)) (Nat.zero_le _) (Nat.le_refl _)
  case passes =>
    intro scheduler duration _ ordered
    exact ordered.until (Nat.le_add_right _ _)
  case waits =>
    intro scheduler session duration reached running ordered
    have underway := reached.underway running
    obtain ⟨time, after, added, result, course⟩ := underway.onward running duration
    obtain ⟨-, onward, later, early⟩ :=
      course_ordered (underway_ahead underway) (Nat.le_add_right scheduler.now duration) course
    simp only [result, entered_journal, List.reverse_append, List.reverse_reverse]
    exact (ordered.append onward (Nat.zero_le _) later).until early
  case stops =>
    intro scheduler session reached running ordered
    simp only [closed, entered_journal, List.reverse_append, List.reverse_reverse]
    exact ordered.append (closing_ordered (reached.underway running)) (Nat.zero_le _)
      (le_lastEnd scheduler.now session)

theorem sessionRecord_sublist (ledger : Ledger) : (sessionRecord ledger).Sublist ledger.journal.reverse :=
  (List.takeWhile_sublist _).reverse

end MessagePress.Proofs.JournalOrder
