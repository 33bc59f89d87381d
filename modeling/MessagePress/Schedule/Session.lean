import MessagePress.Schedule.Basic

/-! A session: what goes on between a start and a stop. Ticks put jobs into the queue, and
workers that are idle take them at once, the oldest first. Once all workers are lost, ticks
have no effect any more. -/

namespace MessagePress.Schedule

/-- A run that has not ended yet. -/
structure Flight where
  ends : Nat
  ending : Ending
  deriving DecidableEq, Repr

structure Session where
  nextTick : Nat
  /-- The jobs that wait, by the time of their tick, oldest first. -/
  queue : List Nat
  idle : Nat
  /-- The runs in flight in the order they began, each with a worker of its own. -/
  flights : List Flight
  deriving DecidableEq, Repr

namespace Session

/-- All workers are idle, and the first tick is due. -/
def start (settings : Settings) (time : Nat) : Session := ⟨time, [], settings.workers, []⟩

/-- How many workers are left. -/
def live (session : Session) : Nat := session.idle + session.flights.length

/-- An idle worker takes a job. A run of no duration ends at once. -/
def take (script : Script) (time job : Nat) (session : Session) (ledger : Ledger) :
    Session × Ledger :=
  let run := script ledger.begun
  let ledger := ledger.beginRun time job
  if run.duration = 0 then
    ({ session with idle := if run.ending = .panic then session.idle - 1 else session.idle },
      ledger.endRun time run.ending)
  else
    ({ session with
      idle := session.idle - 1
      flights := session.flights ++ [⟨time + run.duration, run.ending⟩] }, ledger)

/-- Idle workers take jobs while there are both; the jobs that are left over wait, unless no
worker is left. -/
def serve (script : Script) (time : Nat) :
    (jobs : List Nat) → Session → Ledger → Session × Ledger
  | [], session, ledger => ({ session with queue := [] }, ledger)
  | job :: rest, session, ledger =>
    if session.idle = 0 then
      if session.flights.isEmpty then
        ({ session with queue := [] }, ledger.discard time (job :: rest))
      else ({ session with queue := job :: rest }, ledger)
    else
      let (session, ledger) := session.take script time job ledger
      serve script time rest session ledger

/-- The tick that is due. -/
def tick (settings : Settings) (script : Script) (session : Session) (ledger : Ledger) :
    Session × Ledger :=
  let time := session.nextTick
  let session := { session with nextTick := time + settings.interval }
  if session.live = 0 then (session, ledger)
  else if session.queue.length < settings.workers then
    serve script time (session.queue ++ [time]) session (ledger.note (.queued time))
  else (session, ledger.dropTick time)

/-- The run in flight that ends first, of several the one that began first, and the others. -/
def earliest : List Flight → Option (Flight × List Flight)
  | [] => none
  | flight :: rest =>
    match earliest rest with
    | some (other, others) =>
      if other.ends < flight.ends then some (other, flight :: others) else some (flight, rest)
    | none => some (flight, rest)

/-- A run in flight ends and its worker looks for another job. -/
def land (script : Script) (flight : Flight) (others : List Flight) (session : Session)
    (ledger : Ledger) : Session × Ledger :=
  let idle := if flight.ending = .panic then session.idle else session.idle + 1
  serve script flight.ends session.queue { session with idle, flights := others }
    (ledger.endRun flight.ends flight.ending)

/-- What happens next, if it is before a limit. A tick comes before the end of a run at the
same time. -/
def step? (settings : Settings) (script : Script) (limit : Nat) (session : Session)
    (ledger : Ledger) : Option (Session × Ledger) :=
  match earliest session.flights with
  | some (flight, others) =>
    if flight.ends < session.nextTick then
      if flight.ends < limit then some (session.land script flight others ledger) else none
    else if session.nextTick < limit then some (session.tick settings script ledger)
    else none
  | none => if session.nextTick < limit then some (session.tick settings script ledger) else none

/-- How many ticks there are before a limit. -/
def ticksBefore (settings : Settings) (limit : Nat) (session : Session) : Nat :=
  (limit - session.nextTick + (settings.interval - 1)) / settings.interval

/-- Takes at most so many steps before a limit. -/
def runSteps (settings : Settings) (script : Script) (limit : Nat) :
    Nat → Session → Ledger → Session × Ledger
  | 0, session, ledger => (session, ledger)
  | steps + 1, session, ledger =>
    match session.step? settings script limit ledger with
    | some (session, ledger) => runSteps settings script limit steps session ledger
    | none => (session, ledger)

/-- All that happens before a limit. A tick adds one job or one run at most, and with every
other step there is one less of these. -/
def runUntil (settings : Settings) (script : Script) (limit : Nat) (session : Session)
    (ledger : Ledger) : Session × Ledger :=
  let steps := 2 * session.ticksBefore settings limit + session.queue.length +
    session.flights.length
  runSteps settings script limit steps session ledger

/-- Ends the runs in flight in the order of their ends, and nothing else. -/
def drain : Nat → List Flight → Ledger → Ledger
  | 0, _, ledger => ledger
  | count + 1, flights, ledger =>
    match earliest flights with
    | some (flight, others) => drain count others (ledger.endRun flight.ends flight.ending)
    | none => ledger

/-- When the last run in flight ends, but not before a time. -/
def lastEnd (time : Nat) (session : Session) : Nat :=
  session.flights.foldl (fun latest flight => max latest flight.ends) time

end Session

end MessagePress.Schedule
