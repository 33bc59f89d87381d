import MessagePress.Proofs.PunctualRuns
import MessagePress.Proofs.RunStatistics

/-! The only session of a scheduler. It is started, and stopped after so long, by when all of its
runs have been counted. -/

namespace MessagePress.Proofs.SingleSessions
open Schedule SessionRecords SessionCourse SchedulerRuns RunStatistics PunctualRuns

variable {settings : Settings} {script : Script} {task : Schedule.Task} {patience : ℕ}
  {scheduler : Scheduler}

/-- A scheduler that was started, and stopped after so long. -/
structure Stopped (settings : Settings) (script : Script) (patience : ℕ) (scheduler : Scheduler) :
    Prop where
  shown : (none, scheduler) ∈ Scheduler.run settings script {} [.start, .wait patience, .stop]
  resting : scheduler.session = none
  /-- Where no run lasts for too many intervals, there is one for every tick before the stop. -/
  punctual : Steady settings script → scheduler.ledger.statistics.dropped = 0 ∧
    ∀ number, number < scheduler.ledger.begun ↔ number * settings.interval < patience

/-- A scheduler whose runs do not panic has counted each of them by the time that it is stopped. -/
theorem Stopped.counted (stopped : Stopped settings task.script patience scheduler)
    (sound : ∀ number, (task number).result ≠ .panicked) :
    scheduler.ledger.statistics.executions = scheduler.ledger.begun ∧
    scheduler.ledger.statistics.successes =
      (List.range scheduler.ledger.begun).countP (fun number => (task number).result = .done) ∧
    scheduler.ledger.statistics.errors =
      (List.range scheduler.ledger.begun).countP fun number => (task number).result.text?.isSome := by
  obtain ⟨past, flying, told⟩ := reached_told (reached_of_shown stopped.shown)
  have landed : flying = [] := by
    have none_left := told.flights
    rw [flights, stopped.resting] at none_left
    exact List.map_eq_nil_iff.mp none_left.symm
  have begun := told.begun
  rw [landed, List.append_nil] at begun
  simp only [told.statistics]
  refine ⟨?_, begun.countP_eq _, begun.countP_eq _⟩
  rw [begun.countP_eq, List.countP_eq_length.mpr (by simp [sound]), List.length_range]

def started (settings : Settings) : Scheduler :=
  ⟨0, some (.start settings 0), ({} : Ledger).note (.started 0)⟩

theorem started_reached (settings : Settings) (script : Script) :
    Reached settings script (started settings) := Reached.fresh.obeyed .start

theorem started_wait (settings : Settings) (script : Script) (patience : ℕ) :
    ∃ session added, (started settings).wait settings script patience =
        ⟨patience, some session, entered (started settings).ledger added⟩ ∧
      added.filterMap start? = [] := by
  have underway := (started_reached settings script).underway rfl
  obtain ⟨time, session, added, result, course⟩ := underway.onward rfl patience
  refine ⟨session, added, ?_, course_unstarted course⟩
  rw [result]
  exact congrArg (Scheduler.mk · _ _) (Nat.zero_add patience)

theorem started_punctual {session : Session} {added : List Occurrence}
    (steady : Steady settings script) (unstarted : added.filterMap start? = [])
    (reached : Reached settings script
      ⟨patience, some session, entered (started settings).ledger added⟩) (number : ℕ) :
    number < (added.filterMap run?).length ↔ number * settings.interval < patience := by
  obtain ⟨-, onTime⟩ := underway_onTime steady (reached.underway rfl)
  have runs := onTime.runs number
  have record : sessionRecord (entered (started settings).ledger added) = added :=
    sessionRecord_entered unstarted
  have start : lastStart (entered (started settings).ledger added) = 0 := lastStart_entered unstarted
  simp only [record, start, Nat.zero_add] at runs
  split at runs
  next before => exact iff_of_true (List.getElem?_eq_some_iff.mp runs).1 before
  next behind => exact iff_of_false (Nat.not_lt.mpr (List.getElem?_eq_none_iff.mp runs)) behind

theorem stop_ok (settings : Settings) (script : Script) (patience : ℕ) :
    ∃ scheduler, ((started settings).wait settings script patience).stop = .ok scheduler ∧
      Stopped settings script patience scheduler := by
  obtain ⟨session, added, result, unstarted⟩ := started_wait settings script patience
  have reached := (started_reached settings script).obeyed (.wait patience)
  have shown : Scheduler.run settings script {} [.start, .wait patience, .stop] =
      [(none, started settings), (none, (started settings).wait settings script patience),
        ((started settings).wait settings script patience).obey settings script .stop] := rfl
  change Reached settings script ((started settings).wait settings script patience) at reached
  rw [result] at reached shown ⊢
  set stopping : Scheduler := ⟨patience, some session, entered (started settings).ledger added⟩
  have running : stopping.session = some session := rfl
  rw [stop_obeyed running] at shown
  refine ⟨_, stop_eq running, by simp [shown], rfl, fun steady => ⟨?_, fun number => ?_⟩⟩
  · have dropped := reached_undropped steady (reached.obeyed .stop)
    rwa [obey_stop running] at dropped
  · rw [← started_punctual steady unstarted reached number, closed, entered_begun, entered_begun]
    simp [List.filterMap_cons, started, Ledger.note]

end MessagePress.Proofs.SingleSessions
