import MessagePress.CommandLine.Program
import MessagePress.Schedule.Watch
import Std.Async.Signal
import Std.Async.Timer
import Std.Sync.Channel
import Std.Time.DateTime.Timestamp

/-! The program on a machine, which gives it arguments, an environment, files, random bytes,
the time and signals to stop. -/

namespace MessagePress.CommandLine

open Std.Async

/-- A fault by its number, of either sign, with the words that the system has for it. -/
def systemFault (number : UInt32) (words : String) : Files.Fault :=
  match number.toInt32.toInt.natAbs with
  | 2 => .notFound
  | 20 => .notDirectory
  | 21 => .isDirectory
  | 36 => .nameTooLong
  | number => .other (words.capitalize ++ s!" (os error {number})")

def readFault : IO.Error → Files.Fault
  | .alreadyExists _ number words | .inappropriateType _ number words
  | .invalidArgument _ number words | .noSuchThing _ number words
  | .permissionDenied _ number words | .resourceExhausted _ number words
  | .interrupted _ number words | .noFileOrDirectory _ number words
  | .hardwareFault number words | .illegalOperation number words
  | .otherError number words | .protocolError number words
  | .resourceBusy number words | .resourceVanished number words
  | .timeExpired number words | .unsatisfiedConstraints number words
  | .unsupportedOperation number words => systemFault number words
  | .unexpectedEof => .other "unexpected end of file"
  | .userError words => .other words

def readFile (path : String) : IO (Except Files.Fault (List UInt8)) := do
  if path.toList.contains '\x00' then return .error .zeroInPath
  match ← (IO.FS.readBinFile path).toBaseIO with
  | .ok bytes => return .ok bytes.toList
  | .error fault => return .error (readFault fault)

/-- Reads some files, and knows only these. -/
def readFiles (paths : List String) : IO Files.Reader := do
  let contents ← paths.mapM fun path => return (path, ← readFile path)
  return fun path => (contents.lookup path).getD (.error .notFound)

/-- Reads the settings and the templates that they name. -/
def readInputs (options : Options) : IO Files.Reader := do
  let read ← readFiles [options.configPath]
  match Config.load read options.configPath with
  | .error _ => return read
  | .ok config => readFiles (options.configPath :: config.payloads.map (·.templatePath))

/-- As many random bytes for a key of a message as its value draws on average, several times
over. -/
def bytesPerKey : Nat := 64

/-- Whether a push ended before its time for want of random bytes. -/
def isStarved (push : Delivery.Push) : Bool :=
  push.tasks.any fun task => match task.production.outcome with
    | .error (.generation _ _ (.evaluation _)) => true
    | _ => false

/-- Pushes at the time that it is now. The system never runs out of random bytes, so a push that
does is done again with twice as many, of which the first are the same. -/
def pushNow (job : Job) : IO Delivery.Push := do
  let keys := job.streams.map fun stream => stream.batchSize * stream.template.substitution.length
  let now := (← Std.Time.Timestamp.now).toNanosecondsSinceUnixEpoch.toInt
  let instant : Time.Instant := ⟨now / 1000000000, (now % 1000000000).toNat⟩
  let mut bytes := (← IO.getRandomBytes (1024 + bytesPerKey * keys.foldl Nat.add 0).toUSize).toList
  let mut push := (job.push [] ⟨⟨bytes⟩, fun _ _ => instant⟩).1
  while isStarved push do
    bytes := bytes ++ (← IO.getRandomBytes bytes.length.toUSize).toList
    push := (job.push [] ⟨⟨bytes⟩, fun _ _ => instant⟩).1
  return push

def printOutput (output : List Char) : IO Unit := do
  let stdout ← IO.getStdout
  stdout.putStr (String.ofList output)
  stdout.flush

def finish (outcome : Outcome) : IO UInt32 := do
  printOutput outcome.output
  IO.eprint outcome.errors
  return outcome.code.toUInt32

/-- What a scheduler at work waits for, unless it is time for the next tick. -/
inductive Wake
  | landing (landing : Schedule.Landing)
  | signal

instance : Inhabited Wake := ⟨.signal⟩

/-- Pushes on a thread of its own, and tells its end. -/
def launch (job : Job) (wakes : Std.Channel Wake) (number : Nat) : IO Unit := do
  let work : IO Unit := do
    let ending ← try
        let push ← pushNow job
        printOutput (job.printed push)
        pure (Job.result push).ending
      catch fault => pure (.failure (toString fault))
    let _ ← wakes.send (.landing ⟨number, ending⟩)
  let _ ← IO.asTask work .dedicated

def awaitSignal (wakes : Std.Channel Wake) (signal : Signal) : IO Unit := do
  let waiter ← Signal.Waiter.mk signal false
  let _ ← (← waiter.wait).mapIO fun _ => discard (wakes.send .signal)

/-- Pushes at every tick of a scheduler until one of two signals comes, and waits for the pushes
that are under way then. -/
def pushUntilStopped (job : Job) (settings : Schedule.Settings) (scheduler : Schedule.Scheduler) :
    Async (Except Schedule.Fault Schedule.Scheduler) := do
  let wakes : Std.Channel Wake ← Std.Channel.new
  awaitSignal wakes .sigint
  awaitSignal wakes .sigterm
  let start ← IO.monoMsNow
  let catchUp (watch : Schedule.Watch) : IO (Nat × Schedule.Watch) := do
    let time := (← IO.monoMsNow) - start
    let (watch, begun) := watch.advance settings time
    begun.forM fun number => launch job wakes number
    return (time, watch)
  let mut watch : Schedule.Watch := { scheduler }
  let mut running := true
  while running do
    let (time, onward) ← catchUp watch
    let wake ← Selectable.one #[
      .case wakes.recvSelector fun wake => do return some wake,
      .case (← Selector.sleep (.ofNat (onward.pause time))) fun _ => do return none]
    let (time, onward) ← catchUp onward
    match wake with
    | none => watch := onward
    | some (.landing landing) => watch := onward.land time landing
    | some .signal =>
      watch := onward
      running := false
  while 0 < watch.pending do
    if let .landing landing ← await (← wakes.recv) then
      watch := watch.land ((← IO.monoMsNow) - start) landing
  return watch.scheduler.stop

/-- Runs on a schedule. -/
def runScheduled (job : Job) (schedule : Config.Schedule) : IO UInt32 := do
  let ready := do
    let settings ← Schedule.Settings.of schedule.interval.millis schedule.workers
    return (settings, ← Schedule.Scheduler.start settings {})
  let served ← match ready with
    | .error fault => pure (.error fault)
    | .ok (settings, scheduler) => (pushUntilStopped job settings scheduler).block
  match served with
  | .error fault => finish ((Failure.schedule fault).outcome [])
  | .ok _ => finish (job.conclude [])

end MessagePress.CommandLine

open MessagePress.CommandLine

def main (arguments : List String) : IO UInt32 := do
  let environment ← IO.getEnv environmentVariable
  match readOptions arguments environment with
  | .error stop => finish (stop.outcome environment)
  | .ok options =>
    match prepare (← readInputs options) options with
    | .error failure => finish (failure.outcome [])
    | .ok job =>
      match job.schedule with
      | none => finish (job.settle (← pushNow job))
      | some schedule => runScheduled job schedule
