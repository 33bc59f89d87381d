import MessagePress.Schedule.Session

/-! A scheduler that is started and stopped. Nothing happens but in waits and while a stop
waits for the runs in flight; a wait covers the times from its begin to before its end. -/

namespace MessagePress.Schedule

structure Scheduler where
  now : Nat := 0
  session : Option Session := none
  ledger : Ledger := {}
  deriving DecidableEq, Repr

inductive Command
  | start
  | stop
  | wait (duration : Nat)
  deriving DecidableEq, Repr

namespace Scheduler

def isRunning (scheduler : Scheduler) : Bool := scheduler.session.isSome

/-- A new session begins: a queue of its own, and all workers. -/
def start (settings : Settings) (scheduler : Scheduler) : Except Fault Scheduler :=
  match scheduler.session with
  | some _ => .error .alreadyRunning
  | none => .ok { scheduler with
      session := some (.start settings scheduler.now)
      ledger := scheduler.ledger.note (.started scheduler.now) }

/-- Jobs that wait are given up, and time moves to the end of the last run in flight. -/
def stop (scheduler : Scheduler) : Except Fault Scheduler :=
  match scheduler.session with
  | none => .error .notRunning
  | some session =>
    let ledger := scheduler.ledger.discard scheduler.now session.queue
    let ledger := Session.drain session.flights.length session.flights ledger
    let now := session.lastEnd scheduler.now
    .ok ⟨now, none, ledger.note (.stopped now)⟩

def wait (settings : Settings) (script : Script) (duration : Nat) (scheduler : Scheduler) :
    Scheduler :=
  let limit := scheduler.now + duration
  match scheduler.session with
  | none => { scheduler with now := limit }
  | some session =>
    let (session, ledger) := session.runUntil settings script limit scheduler.ledger
    ⟨limit, some session, ledger⟩

/-- Obeys a command; one that fails changes nothing. -/
def obey (settings : Settings) (script : Script) (scheduler : Scheduler) :
    Command → Option Fault × Scheduler
  | .start => attempt scheduler (scheduler.start settings)
  | .stop => attempt scheduler scheduler.stop
  | .wait duration => (none, scheduler.wait settings script duration)
where
  attempt (old : Scheduler) : Except Fault Scheduler → Option Fault × Scheduler
    | .ok scheduler => (none, scheduler)
    | .error fault => (some fault, old)

/-- Obeys commands one after the other and shows what each of them led to. -/
def run (settings : Settings) (script : Script) :
    Scheduler → List Command → List (Option Fault × Scheduler)
  | _, [] => []
  | scheduler, command :: rest =>
    let (fault, scheduler) := scheduler.obey settings script command
    (fault, scheduler) :: run settings script scheduler rest

end Scheduler

end MessagePress.Schedule
