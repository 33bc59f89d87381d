import MessagePress.Delivery.Sink
import MessagePress.Template.Generation
import MessagePress.Template.Load

/-! Streams of messages: a payload of the settings with its template. -/

namespace MessagePress.Delivery

structure Stream where
  name : String
  topic : String
  batchSize : Nat
  template : Template
  deriving Repr

/-- Why a stream cannot be set up. -/
structure StartupFault where
  payload : String
  path : String
  fault : Template.LoadFault
  deriving DecidableEq, Repr

def StartupFault.chain (fault : StartupFault) : List String :=
  ("Failed to load template for payload '" ++ fault.payload ++ "' from " ++
    Text.quoted fault.path) :: fault.fault.chain

/-- A chain of messages, each the cause of the one before it. -/
def chainText (chain : List String) : String := ": ".intercalate chain

def Stream.load (read : Files.Reader) (payload : Config.Payload) : Except StartupFault Stream := do
  let template ← (Template.load read payload.templatePath).mapError
    (⟨payload.name, payload.templatePath, ·⟩)
  return ⟨payload.name, payload.topic, payload.batchSize, template⟩

/-- The streams of all payloads; the first template that cannot be loaded fails them all. -/
def Stream.loadAll (read : Files.Reader) (payloads : List Config.Payload) :
    Except StartupFault (List Stream) :=
  payloads.mapM (Stream.load read)

/-- Why a stream sends nothing. -/
inductive StreamFault
  | generation (stream : String) (index : Nat) (fault : Template.GenerateFault)
  | sending (stream topic : String) (fault : SinkFault)
  deriving DecidableEq, Repr

def StreamFault.chain : StreamFault → List String
  | .generation stream index fault =>
    (s!"Failed to generate message {index} for '" ++ stream ++ "'") :: fault.chain
  | .sending stream topic fault =>
    ("Failed to send batch for '" ++ stream ++ "' to '" ++ topic ++ "'") :: fault.chain

/-- The outcome of a batch, and the messages that were generated, also when the batch failed
at the message after them. -/
structure BatchRun (ε α : Type) where
  outcome : Except (Nat × ε) (List α)
  generated : List α

/-- Generates so many messages from number `index` on. A fault is told with its number. -/
def runBatch (generator : Generator σ ε α) : Nat → Nat → σ → BatchRun ε α × σ
  | _, 0, state => (⟨.ok [], []⟩, state)
  | index, count + 1, state =>
    match generator state with
    | (.error fault, state) => (⟨.error (index, fault), []⟩, state)
    | (.ok message, state) =>
      let (rest, state) := runBatch generator (index + 1) count state
      (⟨rest.outcome.map (message :: ·), message :: rest.generated⟩, state)

/-- What a stream has generated in a push, with its log. -/
structure Production where
  outcome : Except StreamFault (List String)
  log : List Log.Line
  deriving Repr

def generatedLine (name message : String) : Log.Line :=
  ⟨.debug, "Generated message for '" ++ name ++ "': " ++ message⟩

namespace Stream

/-- Generates one batch. The substitutions are looked at for every message, also for one that
fails; where the stream is verbose, every message is logged. -/
def produce (verbose : Bool) (stream : Stream) (supply : Template.Supply) :
    Production × Template.Supply :=
  let (run, supply) := runBatch stream.template.generate 0 stream.batchSize supply
  let evaluation := Template.evaluationLog stream.template.substitution
  let generated := run.generated.flatMap fun message =>
    evaluation ++ if verbose then [generatedLine stream.name message] else []
  let failed := if run.outcome.toOption.isNone then evaluation else []
  let outcome := run.outcome.mapError fun (index, fault) => .generation stream.name index fault
  (⟨outcome, generated ++ failed⟩, supply)

end Stream

end MessagePress.Delivery
