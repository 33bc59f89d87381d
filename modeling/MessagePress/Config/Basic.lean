import MessagePress.Config.Duration

/-! The settings of a run: how the message broker is reached, when messages are pushed, what
is logged, and which streams of messages there are. -/

namespace MessagePress

namespace Config

/-- How messages are delivered. Payloads that name no topic go to `topic`. -/
structure Kafka where
  brokers : List String
  topic : String
  clientId : String
  /-- The partition all messages go to; a negative one leaves the choice to the broker. -/
  partition : Int
  timeout : Duration
  batchSize : Nat
  /-- Whether messages are handed over without waiting for their delivery. -/
  asynchronous : Bool
  deriving DecidableEq, Repr

/-- When messages are pushed, and how many pushes may go on at a time. -/
structure Schedule where
  enabled : Bool
  interval : Duration
  workers : Nat
  deriving DecidableEq, Repr

inductive LogFormat
  | text
  | json
  deriving DecidableEq, Repr

def LogFormat.name : LogFormat → String
  | .text => "text"
  | .json => "json"

structure Logging where
  level : String
  format : LogFormat
  /-- Whether every message is logged. -/
  verbose : Bool
  deriving DecidableEq, Repr

/-- A stream of messages: so many of one template are sent to a topic on every push. -/
structure Payload where
  name : String
  templatePath : String
  batchSize : Nat
  topic : String
  deriving DecidableEq, Repr

end Config

structure Config where
  kafka : Config.Kafka
  schedule : Option Config.Schedule
  logging : Config.Logging
  payloads : List Config.Payload
  deriving DecidableEq, Repr

namespace Config

def scheduleEnabled (config : Config) : Bool := config.schedule.any (·.enabled)

/-- The settings as a document gives them: one payload may stand apart from the others. -/
structure Draft where
  kafka : Kafka
  schedule : Option Schedule
  logging : Logging
  payloads : List Payload
  payload : Option Payload
  deriving DecidableEq, Repr

/-- The payload that stands apart becomes the first of all. -/
def Draft.folded (draft : Draft) : Config where
  kafka := draft.kafka
  schedule := draft.schedule
  logging := draft.logging
  payloads := draft.payload.toList ++ draft.payloads

end Config

end MessagePress
