import MessagePress.Schedule.Scheduler

/-! A scheduler at work. How long a run takes is not known before it has ended, so until then it
is in flight for longer than anybody looks at it. -/

namespace MessagePress.Schedule

/-- A run that has ended, by its number. -/
structure Landing where
  number : Nat := 0
  ending : Ending := .success
  deriving DecidableEq, Repr

/-- A scheduler and the numbers of its runs in flight, in the order in which they began. -/
structure Watch where
  scheduler : Scheduler
  flying : List Nat := []
  deriving DecidableEq, Repr

namespace Watch

/-- All times are before this one. -/
def horizon : Nat := Nat.pow 2 64

def unended : Script := fun _ => ⟨horizon, .success⟩

/-- A run in flight has ended at a time, or at that of the scheduler if this is later. -/
def land (time : Nat) (landing : Landing) (watch : Watch) : Watch :=
  let flight : Flight := ⟨max watch.scheduler.now time, landing.ending⟩
  let position := watch.flying.idxOf landing.number
  { watch with scheduler.session := watch.scheduler.session.map fun session =>
      { session with flights := session.flights.set position flight } }

/-- Goes on until a time has passed, and tells the numbers of the runs that have begun. -/
def advance (settings : Settings) (time : Nat) (watch : Watch) : Watch × List Nat :=
  let flights := (watch.scheduler.session.map (·.flights)).getD []
  let scheduler := watch.scheduler.wait settings unended (time + 1 - watch.scheduler.now)
  let left := (watch.flying.zip flights).filter fun (_, flight) => scheduler.now ≤ flight.ends
  let begun := List.range' watch.scheduler.ledger.begun
    (scheduler.ledger.begun - watch.scheduler.ledger.begun)
  (⟨scheduler, left.map Prod.fst ++ begun⟩, begun)

/-- How long it is from a time until something happens again that is known by now. -/
def pause (time : Nat) (watch : Watch) : Nat :=
  (watch.scheduler.session.map fun session =>
    session.flights.foldl (fun due flight => min due flight.ends) session.nextTick - time).getD 0

/-- How many of the runs in flight are not known to have ended. -/
def pending (watch : Watch) : Nat :=
  (watch.scheduler.session.map fun session =>
    session.flights.countP fun flight => horizon ≤ flight.ends).getD 0

end Watch

end MessagePress.Schedule
