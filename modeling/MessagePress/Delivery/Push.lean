import MessagePress.Delivery.Stream

/-! One push: every stream generates a batch and sends it. The streams run side by side; each
takes three steps, and any order of all their steps is possible. A push waits for all
streams and fails with the first failure it comes to know of. -/

namespace MessagePress.Delivery

/-- How far a stream has come. -/
inductive Phase
  | generating
  | sending (messages : List String)
  | finished (result : Except StreamFault Nat)
  | joined

/-- A stream of a push, and what it is going to generate. -/
structure Task where
  name : String
  topic : String
  production : Production
  phase : Phase

structure Push where
  tasks : List Task
  /-- The batches that the sink has taken, in order. -/
  batches : List Batch
  log : List Log.Line
  fault : Option StreamFault

def pushedLine (name : String) (count : Nat) : Log.Line :=
  ⟨.debug, s!"Pushed {count} messages for '" ++ name ++ "'"⟩

namespace Push

/-- A stream's next step: it generates its batch, sends it, or is joined. -/
def advanceTask (sink : Sink) (position : Nat) (task : Task) (push : Push) : Push :=
  let goTo (phase : Phase) (push : Push) : Push :=
    { push with tasks := push.tasks.set position { task with phase } }
  match task.phase with
  | .generating =>
    let phase := match task.production.outcome with
      | .ok messages => .sending messages
      | .error fault => .finished (.error fault)
    goTo phase { push with log := push.log ++ task.production.log }
  | .sending messages =>
    match sink.refusal? ⟨task.topic, messages⟩ with
    | some fault => goTo (.finished (.error (.sending task.name task.topic fault))) push
    | none =>
      goTo (.finished (.ok messages.length)) { push with
        batches := push.batches ++ [⟨task.topic, messages⟩]
        log := push.log ++ [pushedLine task.name messages.length] }
  | .finished (.ok _) => goTo .joined push
  | .finished (.error fault) => goTo .joined { push with fault := push.fault <|> some fault }
  | .joined => push

/-- The next step of the stream at a position. -/
def advance (sink : Sink) (push : Push) (position : Nat) : Push :=
  match push.tasks[position]? with
  | some task => push.advanceTask sink position task
  | none => push

/-- Lets the streams at the given positions take a step each, one after the other. -/
def run (sink : Sink) (positions : List Nat) (push : Push) : Push :=
  positions.foldl (advance sink) push

def allJoined (push : Push) : Bool :=
  push.tasks.all fun task => match task.phase with
    | .joined => true
    | _ => false

/-- Nothing is generated yet. -/
def start (productions : List (Stream × Production)) : Push where
  tasks := productions.map fun (stream, production) =>
    ⟨stream.name, stream.topic, production, .generating⟩
  batches := []
  log := []
  fault := none

/-- The order in which every stream is done before the next one begins. -/
def inTurn (count : Nat) : List Nat :=
  (List.range count).flatMap fun position => [position, position, position]

/-- The batches taken as they are printed. -/
def printed (push : Push) : List Char := push.batches.flatMap Batch.printed

end Push

/-- What all streams generate, one after the other. -/
def produceAll (verbose : Bool) : List Stream → Template.Supply →
    List (Stream × Production) × Template.Supply
  | [], supply => ([], supply)
  | stream :: rest, supply =>
    let (production, supply) := stream.produce verbose supply
    let (productions, supply) := produceAll verbose rest supply
    ((stream, production) :: productions, supply)

/-- Pushes one batch of every stream. The streams take their steps in a given order; those
that are not done then follow in turn. -/
def push (sink : Sink) (verbose : Bool) (streams : List Stream) (order : List Nat)
    (supply : Template.Supply) : Push × Template.Supply :=
  let (productions, supply) := produceAll verbose streams supply
  ((Push.start productions).run sink (order ++ Push.inTurn streams.length), supply)

end MessagePress.Delivery
