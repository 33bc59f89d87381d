import MessagePress.CommandLine.Help
import MessagePress.Config.Load
import MessagePress.Delivery.Client
import MessagePress.Delivery.Push
import MessagePress.Schedule.Scheduler
import MessagePress.Schedule.Task

/-! The program as a whole: it reads its arguments and its settings, loads the templates, and
pushes once or on a schedule. -/

namespace MessagePress.CommandLine

/-- What a run of the program leaves: its exit code, and what it prints. The lines of its log, which
go to the same output, are left out. -/
structure Outcome where
  code : Nat
  output : List Char
  errors : String
  deriving DecidableEq, Repr

/-- Why a run fails once its arguments are read. -/
inductive Failure
  | config (fault : Config.LoadFault)
  | sink (fault : Delivery.SinkFault)
  | startup (fault : Delivery.StartupFault)
  | schedule (fault : Schedule.Fault)
  | push (fault : Delivery.StreamFault)
  | flush (fault : Delivery.SinkFault)
  deriving DecidableEq, Repr

def Failure.chain : Failure → List String
  | .config fault => [fault.message]
  | .sink fault => "Failed to create Kafka producer" :: fault.chain
  | .startup fault => fault.chain
  | .schedule fault => [fault.message]
  | .push fault => "Failed to push messages" :: fault.chain
  | .flush fault => "Failed to flush producer" :: fault.chain

/-- A failed run, with what it printed before. -/
def Failure.outcome (output : List Char) (failure : Failure) : Outcome :=
  ⟨1, output, "Error: " ++ Delivery.chainText failure.chain ++ "\n"⟩

def Stop.outcome (environment : Option String) : Stop → Outcome
  | .help => ⟨0, (helpText environment).toList, ""⟩
  | .version => ⟨0, versionText.toList, ""⟩
  | .refused refusal shown => ⟨2, [], refusalText refusal shown⟩

/-- What a run does not decide itself. -/
structure Circumstances where
  /-- The configuration that the environment names. -/
  environment : Option String
  read : Files.Reader
  supply : Template.Supply
  /-- The order in which streams take their steps in each push. -/
  orders : Nat → List Nat
  /-- How long a run on a schedule goes on before it is told to stop, in milliseconds. -/
  patience : Nat

/-- Streams that are ready to be pushed; with a schedule they are pushed again and again. -/
structure Job where
  streams : List Delivery.Stream
  sink : Delivery.Sink
  verbose : Bool
  schedule : Option Config.Schedule

/-- The sink of a run. A client of the broker is set up before any template is loaded. -/
def openSink (dryRun : Bool) (kafka : Config.Kafka) (transport : Delivery.Transport) :
    Except Failure Delivery.Sink :=
  if dryRun then .ok .accepting
  else
    match transport.connect kafka with
    | .error cause => .error (.sink (.kafka cause))
    | .ok client => .ok (client.sink kafka)

/-- Reads the settings and loads the templates. -/
def prepare (read : Files.Reader) (options : Options)
    (transport : Delivery.Transport := .isolated) : Except Failure Job := do
  let config ← (Config.load read options.configPath).mapError .config
  let sink ← openSink options.dryRun config.kafka transport
  let streams ← (Delivery.Stream.loadAll read config.payloads).mapError .startup
  let schedule := config.schedule.filter fun schedule => schedule.enabled && !options.once
  return ⟨streams, sink, config.logging.verbose, schedule⟩

namespace Job

def push (job : Job) (order : List Nat) (supply : Template.Supply) :
    Delivery.Push × Template.Supply :=
  Delivery.push job.sink job.verbose job.streams order supply

/-- What is printed by a push, which is nothing if its batches go to a broker. -/
def printed (job : Job) (push : Delivery.Push) : List Char :=
  if job.sink.prints then push.printed else []

/-- Ends a run that has printed something, once the sink has let go of all it holds. -/
def conclude (job : Job) (output : List Char) : Outcome :=
  match job.sink.flush? with
  | none => ⟨0, output, ""⟩
  | some fault => (Failure.flush fault).outcome output

/-- Ends a run whose only push has come to this. -/
def settle (job : Job) (push : Delivery.Push) : Outcome :=
  match push.fault with
  | none => job.conclude (job.printed push)
  | some fault => (Failure.push fault).outcome (job.printed push)

/-- Pushes once and ends. -/
def runOnce (job : Job) (order : List Nat) (supply : Template.Supply) : Outcome :=
  job.settle (job.push order supply).1

/-- The push of a number, in a row of pushes that each begin with what is left of the supply. -/
def pushAt (job : Job) (circumstances : Circumstances) : Nat → Delivery.Push × Template.Supply
  | 0 => job.push (circumstances.orders 0) circumstances.supply
  | number + 1 =>
    job.push (circumstances.orders (number + 1)) (job.pushAt circumstances number).2

/-- What a push comes to as a run of a task. -/
def result (push : Delivery.Push) : Schedule.Result :=
  match push.fault with
  | none => .done
  | some fault => .failed fault.chain

/-- The task of a schedule is to push. -/
def task (job : Job) (circumstances : Circumstances) (transport : Delivery.Transport) :
    Schedule.Task := fun number =>
  ⟨transport.durations number, result (job.pushAt circumstances number).1⟩

/-- Lets a scheduler push until it is told to stop. -/
def serve (job : Job) (schedule : Config.Schedule) (circumstances : Circumstances)
    (transport : Delivery.Transport) : Except Schedule.Fault Schedule.Scheduler := do
  let settings ← Schedule.Settings.of schedule.interval.millis schedule.workers
  let scheduler ← Schedule.Scheduler.start settings {}
  let script := (job.task circumstances transport).script
  (scheduler.wait settings script circumstances.patience).stop

/-- Runs on a schedule. A push that fails does not end the run. Pushes print in the order in which
they began, which is one of the orders that there may be where they overlap. -/
def runScheduled (job : Job) (schedule : Config.Schedule) (circumstances : Circumstances)
    (transport : Delivery.Transport) : Outcome :=
  match job.serve schedule circumstances transport with
  | .error fault => (Failure.schedule fault).outcome []
  | .ok scheduler =>
    job.conclude ((List.range scheduler.ledger.begun).flatMap fun number =>
      job.printed (job.pushAt circumstances number).1)

end Job

def run (arguments : List String) (circumstances : Circumstances)
    (transport : Delivery.Transport := .isolated) : Outcome :=
  match readOptions arguments circumstances.environment with
  | .error stop => stop.outcome circumstances.environment
  | .ok options =>
    match prepare circumstances.read options transport with
    | .error failure => failure.outcome []
    | .ok job =>
      match job.schedule with
      | none => job.runOnce (circumstances.orders 0) circumstances.supply
      | some schedule => job.runScheduled schedule circumstances transport

end MessagePress.CommandLine
