import Mathlib.Data.List.Basic
import MessagePress.Schedule.Basic

/-! The record that a ledger keeps of its sessions. A ledger is what its record adds up to, and
the record of the latest session is what has been entered since the last start. -/

namespace MessagePress.Proofs.SessionRecords
open Schedule

/-- Enters an occurrence, with what it adds to the counters. -/
def enter (ledger : Ledger) : Occurrence → Ledger
  | .begun time job => ledger.beginRun time job
  | .dropped time => ledger.dropTick time
  | .ended time ending => ledger.endRun time ending
  | occurrence => ledger.note occurrence

def entered (ledger : Ledger) (record : List Occurrence) : Ledger := record.foldl enter ledger

@[simp] theorem entered_nil (ledger : Ledger) : entered ledger [] = ledger := rfl

@[simp] theorem entered_cons (ledger : Ledger) (occurrence : Occurrence) (record : List Occurrence) :
    entered ledger (occurrence :: record) = entered (enter ledger occurrence) record := rfl

@[simp] theorem entered_append (ledger : Ledger) (first second : List Occurrence) :
    entered ledger (first ++ second) = entered (entered ledger first) second :=
  List.foldl_append

@[simp] theorem enter_journal (ledger : Ledger) (occurrence : Occurrence) :
    (enter ledger occurrence).journal = occurrence :: ledger.journal := by
  cases occurrence <;> rfl

theorem entered_journal (ledger : Ledger) (record : List Occurrence) :
    (entered ledger record).journal = record.reverse ++ ledger.journal := by
  induction record generalizing ledger with
  | nil => rfl
  | cons occurrence record ih => simp [ih]

theorem discard_eq (ledger : Ledger) (time : Nat) (jobs : List Nat) :
    ledger.discard time jobs = entered ledger (jobs.map (Occurrence.discarded time)) := by
  induction jobs generalizing ledger with
  | nil => rfl
  | cons job jobs ih => exact ih (ledger.note (.discarded time job))

/-- A tick that a worker was left to hear. -/
@[simp] def arrival? : Occurrence → Option Nat
  | .queued time | .dropped time => some time
  | _ => none

@[simp] def acceptance? : Occurrence → Option Nat
  | .queued time => some time
  | _ => none

@[simp] def refusal? : Occurrence → Option Nat
  | .dropped time => some time
  | _ => none

@[simp] def run? : Occurrence → Option (Nat × Nat)
  | .begun time job => some (time, job)
  | _ => none

@[simp] def landing? : Occurrence → Option (Nat × Ending)
  | .ended time ending => some (time, ending)
  | _ => none

/-- A job that was given up, behind the time of this. -/
@[simp] def discard? : Occurrence → Option (Nat × Nat)
  | .discarded time job => some (time, job)
  | _ => none

@[simp] def start? : Occurrence → Option Nat
  | .started time => some time
  | _ => none

/-- How many workers have been lost. -/
def panics (record : List Occurrence) : Nat :=
  (record.filterMap landing?).countP fun landing => landing.2 = .panic

/-- How many workers have been lost before a time. -/
def lost (record : List Occurrence) (time : Nat) : Nat :=
  (record.filterMap landing?).countP fun landing => landing.2 = .panic ∧ landing.1 < time

theorem panics_append (first second : List Occurrence) :
    panics (first ++ second) = panics first + panics second := by
  simp [panics, List.countP_append]

theorem panics_kept {record added : List Occurrence} (none_landed : added.filterMap landing? = []) :
    panics (record ++ added) = panics record := by
  simp [panics, none_landed]

@[simp] theorem panics_ended (time : Nat) (ending : Ending) :
    panics [.ended time ending] = if ending = .panic then 1 else 0 := by
  simp [panics, List.countP_singleton]

theorem lost_append (first second : List Occurrence) (time : Nat) :
    lost (first ++ second) time = lost first time + lost second time := by
  simp [lost, List.countP_append]

theorem lost_le_panics (record : List Occurrence) (time : Nat) : lost record time ≤ panics record := by
  apply List.countP_mono_left
  intro landing _ both
  simp only [decide_eq_true_eq] at both ⊢
  exact both.1

/-- All workers that a record knows to be lost were lost before every time behind its landings. -/
theorem lost_eq_panics {record : List Occurrence} {time : Nat}
    (earlier : ∀ landing ∈ record.filterMap landing?, landing.1 < time) : lost record time = panics record := by
  apply List.countP_congr
  intro landing member
  simp [earlier landing member]

theorem lost_eq_zero {record : List Occurrence} {time : Nat}
    (later : ∀ landing ∈ record.filterMap landing?, time ≤ landing.1) : lost record time = 0 := by
  apply List.countP_eq_zero.mpr
  intro landing member both
  simp only [decide_eq_true_eq] at both
  have := later landing member
  omega

theorem entered_begun (ledger : Ledger) (record : List Occurrence) :
    (entered ledger record).begun = ledger.begun + (record.filterMap run?).length := by
  induction record generalizing ledger with
  | nil => rfl
  | cons occurrence record ih =>
    rw [entered_cons, ih]
    cases occurrence with
    | begun time job =>
      simp only [enter, Ledger.beginRun, Ledger.note, List.filterMap_cons, run?, List.length_cons]
      omega
    | _ => simp [enter, Ledger.note, Ledger.dropTick, Ledger.endRun, List.filterMap_cons]

theorem begun_le_entered (ledger : Ledger) (record : List Occurrence) :
    ledger.begun ≤ (entered ledger record).begun := by
  rw [entered_begun]
  exact Nat.le_add_right _ _

@[simp] theorem endRun_dropped (ledger : Ledger) (time : Nat) (ending : Ending) :
    (ledger.endRun time ending).statistics.dropped = ledger.statistics.dropped := by
  cases ending <;> rfl

theorem entered_dropped (ledger : Ledger) (record : List Occurrence) :
    (entered ledger record).statistics.dropped =
      ledger.statistics.dropped + (record.filterMap refusal?).length := by
  induction record generalizing ledger with
  | nil => rfl
  | cons occurrence record ih =>
    rw [entered_cons, ih]
    cases occurrence with
    | dropped time =>
      simp only [enter, Ledger.dropTick, Ledger.note, List.filterMap_cons, refusal?,
        List.length_cons]
      omega
    | ended time ending => simp [enter, List.filterMap_cons]
    | _ => simp [enter, Ledger.note, Ledger.beginRun, List.filterMap_cons]

/-- When the latest session started. -/
def lastStart (ledger : Ledger) : Nat := (ledger.journal.findSome? start?).getD 0

/-- What has been entered since then. -/
def sessionRecord (ledger : Ledger) : List Occurrence :=
  (ledger.journal.takeWhile fun occurrence => (start? occurrence).isNone).reverse

theorem sessionRecord_entered {ledger : Ledger} {record : List Occurrence}
    (unstarted : record.filterMap start? = []) :
    sessionRecord (entered ledger record) = sessionRecord ledger ++ record := by
  have none_starts : ∀ occurrence ∈ record.reverse, (start? occurrence).isNone = true := by
    intro occurrence member
    rw [List.filterMap_eq_nil_iff.mp unstarted occurrence (List.mem_reverse.mp member)]
    rfl
  rw [sessionRecord, entered_journal, List.takeWhile_append_of_pos none_starts]
  simp [sessionRecord]

theorem lastStart_entered {ledger : Ledger} {record : List Occurrence}
    (unstarted : record.filterMap start? = []) : lastStart (entered ledger record) = lastStart ledger := by
  have none_found : record.reverse.findSome? start? = none := by
    apply List.findSome?_eq_none_iff.mpr
    intro occurrence member
    exact List.filterMap_eq_nil_iff.mp unstarted occurrence (List.mem_reverse.mp member)
  rw [lastStart, entered_journal, List.findSome?_append, none_found]
  rfl

end MessagePress.Proofs.SessionRecords
