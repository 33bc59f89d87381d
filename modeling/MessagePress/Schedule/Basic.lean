import MessagePress.Config.Basic

/-! Running a task at a fixed interval with a bounded pool of workers: its settings, what a
run of the task does, and the account that is kept of the runs. Time is counted in
milliseconds. -/

namespace MessagePress.Schedule

/-- How a run ends. One that panics takes its worker with it. -/
inductive Ending
  | success
  | failure (message : String)
  | panic
  deriving DecidableEq, Repr

/-- One execution of the task. -/
structure Run where
  duration : Nat
  ending : Ending
  deriving DecidableEq, Repr

/-- What the runs of a task do, by their number. -/
abbrev Script := Nat → Run

/-- A tick comes at once and then at every interval; jobs wait in a queue that holds as many
of them as there are workers. -/
structure Settings where
  interval : Nat
  workers : Nat
  interval_pos : 0 < interval
  workers_pos : 0 < workers

inductive Fault
  | noInterval
  | noWorkers
  | alreadyRunning
  | notRunning
  deriving DecidableEq, Repr

def Fault.message : Fault → String
  | .noInterval => "Scheduler interval must be positive"
  | .noWorkers => "Scheduler needs at least one worker"
  | .alreadyRunning => "Scheduler is already running"
  | .notRunning => "Scheduler is not running"

/-- Settings of an interval and a number of workers, neither of which may be zero. -/
def Settings.of (interval workers : Nat) : Except Fault Settings :=
  if interval_pos : 0 < interval then
    if workers_pos : 0 < workers then .ok ⟨interval, workers, interval_pos, workers_pos⟩
    else .error .noWorkers
  else .error .noInterval

/-- What happened, and when. Jobs are told by the time of their tick. -/
inductive Occurrence
  | started (time : Nat)
  /-- A tick put a job into the queue. -/
  | queued (time : Nat)
  /-- A tick found the queue full. -/
  | dropped (time : Nat)
  | begun (time job : Nat)
  | ended (time : Nat) (ending : Ending)
  /-- A job was given up. -/
  | discarded (time job : Nat)
  | stopped (time : Nat)
  deriving DecidableEq, Repr

structure Statistics where
  executions : Nat := 0
  successes : Nat := 0
  errors : Nat := 0
  dropped : Nat := 0
  lastExecution : Option Nat := none
  lastError : Option String := none
  deriving DecidableEq, Repr

/-- How many runs have begun, their statistics, and all that happened, latest first. -/
structure Ledger where
  begun : Nat := 0
  statistics : Statistics := {}
  journal : List Occurrence := []
  deriving DecidableEq, Repr

namespace Ledger

def note (occurrence : Occurrence) (ledger : Ledger) : Ledger :=
  { ledger with journal := occurrence :: ledger.journal }

def beginRun (time job : Nat) (ledger : Ledger) : Ledger :=
  { ledger with begun := ledger.begun + 1 }.note (.begun time job)

def dropTick (time : Nat) (ledger : Ledger) : Ledger :=
  { ledger with statistics.dropped := ledger.statistics.dropped + 1 }.note (.dropped time)

/-- Runs that panic are not counted. -/
def endRun (time : Nat) (ending : Ending) (ledger : Ledger) : Ledger :=
  let old := ledger.statistics
  let statistics := match ending with
    | .success => { old with
        executions := old.executions + 1
        successes := old.successes + 1
        lastExecution := some time }
    | .failure message => { old with
        executions := old.executions + 1
        errors := old.errors + 1
        lastExecution := some time
        lastError := some message }
    | .panic => old
  { ledger with statistics }.note (.ended time ending)

/-- Gives up jobs. -/
def discard (time : Nat) (jobs : List Nat) (ledger : Ledger) : Ledger :=
  jobs.foldl (fun ledger job => ledger.note (.discarded time job)) ledger

/-- When the runs began, in order. -/
def begunTimes (ledger : Ledger) : List Nat :=
  ledger.journal.reverse.filterMap fun
    | .begun time _ => some time
    | _ => none

end Ledger

end MessagePress.Schedule
