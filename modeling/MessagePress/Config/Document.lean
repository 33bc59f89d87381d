import MessagePress.Config.Defaults
import MessagePress.Text.Utf8
import MessagePress.Yaml.Decode

/-! Settings as a YAML document. Sections are mappings with fixed fields, each given at most
once; unknown fields are passed over. -/

namespace MessagePress.Config

open Yaml (Decode Located Node Path)

/-- A value in the place of a duration. -/
inductive WrittenDuration
  | seconds (count : Nat)
  | text (content : String)
  | other
  deriving DecidableEq, Repr

/-- Reads keys and values of any kind, one after the other. -/
def readAnyEntries (inner : Located → Decode α) (path : Path) (complete : Bool) :
    List Node → Decode Unit
  | [] => do
    if !complete then Decode.failAtEnd
  | [key] => do
    let _ ← inner ⟨key, path⟩
    Decode.failAtEnd
  | key :: value :: rest => do
    let _ ← inner ⟨key, path⟩
    let _ ← inner ⟨value, Decode.valuePath path key⟩
    readAnyEntries inner path complete rest

def writtenDuration : Decode.Builder WrittenDuration where
  tagged := .invalid "untagged and internally tagged enums do not support enum input"
  scalar content value :=
    match value with
    | .integer count => if 0 ≤ count then .ok (.seconds count.toNat) else .ok .other
    | .wideInteger count => .error (.invalidType (.wideInteger count) "any value")
    | .text => .ok (.text (String.ofList content))
    | _ => .ok .other
  sequence _ := .other
  mapping inner path complete entries := do
    readAnyEntries inner path complete entries
    return .other

/-- The duration of a written value, or the words that refuse it. -/
def WrittenDuration.duration : WrittenDuration → Except String Duration
  | .seconds count => .ok (.ofSeconds count)
  | .text content => (Duration.ofText content).mapError (·.message)
  | .other => .error "data did not match any variant of untagged enum RawDuration"

def decodeDuration (depth : Nat) (located : Located) : Decode Duration := do
  match (← Decode.any writtenDuration depth located).duration with
  | .ok duration => return duration
  | .error message => Decode.failWith (.invalid message)

def decodeText : Located → Decode String := Decode.text "a string"

def decodeCount : Located → Decode Nat := Decode.unsigned "usize"

structure KafkaFields where
  brokers : Option (List String) := none
  topic : Option String := none
  clientId : Option String := none
  partition : Option Int := none
  timeout : Option Duration := none
  batchSize : Option Nat := none
  asynchronous : Option Bool := none

def KafkaFields.kafka (fields : KafkaFields) : Kafka where
  brokers := fields.brokers.getD []
  topic := fields.topic.getD ""
  clientId := fields.clientId.getD ""
  partition := fields.partition.getD defaultPartition
  timeout := fields.timeout.getD defaultTimeout
  batchSize := fields.batchSize.getD defaultDeliveryBatchSize
  asynchronous := fields.asynchronous.getD false

def decodeKafkaField (depth : Nat) (fields : KafkaFields) (name : String) (value : Located) :
    Decode KafkaFields := do
  match name with
  | "brokers" =>
    let brokers ← Decode.once name fields.brokers
      (Decode.sequence depth (fun _ => decodeText) value)
    return { fields with brokers }
  | "topic" =>
    let topic ← Decode.once name fields.topic (decodeText value)
    return { fields with topic }
  | "client_id" =>
    let clientId ← Decode.once name fields.clientId (decodeText value)
    return { fields with clientId }
  | "partition" =>
    let partition ← Decode.once name fields.partition (Decode.signed 32 "i32" value)
    return { fields with partition }
  | "timeout" =>
    let timeout ← Decode.once name fields.timeout (decodeDuration depth value)
    return { fields with timeout }
  | "batch_size" =>
    let batchSize ← Decode.once name fields.batchSize (decodeCount value)
    return { fields with batchSize }
  | "async" =>
    let asynchronous ← Decode.once name fields.asynchronous (Decode.bool value)
    return { fields with asynchronous }
  | _ =>
    Decode.ignore value
    return fields

def decodeKafka (depth : Nat) : Located → Decode Kafka :=
  Decode.fields depth "struct KafkaConfig" {} decodeKafkaField fun fields => pure fields.kafka

structure ScheduleFields where
  enabled : Option Bool := none
  interval : Option Duration := none
  workers : Option Nat := none

def ScheduleFields.schedule (fields : ScheduleFields) : Schedule where
  enabled := fields.enabled.getD Schedule.default.enabled
  interval := fields.interval.getD Schedule.default.interval
  workers := fields.workers.getD Schedule.default.workers

def decodeScheduleField (depth : Nat) (fields : ScheduleFields) (name : String)
    (value : Located) : Decode ScheduleFields := do
  match name with
  | "enabled" =>
    let enabled ← Decode.once name fields.enabled (Decode.bool value)
    return { fields with enabled }
  | "interval" =>
    let interval ← Decode.once name fields.interval (decodeDuration depth value)
    return { fields with interval }
  | "worker_pool_size" =>
    let workers ← Decode.once name fields.workers (decodeCount value)
    return { fields with workers }
  | _ =>
    Decode.ignore value
    return fields

def decodeSchedule (depth : Nat) : Located → Decode Schedule :=
  Decode.fields depth "struct SchedulerConfig" {} decodeScheduleField fun fields =>
    pure fields.schedule

structure LoggingFields where
  level : Option String := none
  format : Option LogFormat := none
  verbose : Option Bool := none

def LoggingFields.logging (fields : LoggingFields) : Logging where
  level := fields.level.getD Logging.default.level
  format := fields.format.getD Logging.default.format
  verbose := fields.verbose.getD Logging.default.verbose

def logFormats : List (String × LogFormat) := [("text", .text), ("json", .json)]

def decodeLoggingField (_ : Nat) (fields : LoggingFields) (name : String) (value : Located) :
    Decode LoggingFields := do
  match name with
  | "level" =>
    let level ← Decode.once name fields.level (decodeText value)
    return { fields with level }
  | "format" =>
    let format ← Decode.once name fields.format (Decode.variant logFormats value)
    return { fields with format }
  | "verbose" =>
    let verbose ← Decode.once name fields.verbose (Decode.bool value)
    return { fields with verbose }
  | _ =>
    Decode.ignore value
    return fields

def decodeLogging (depth : Nat) : Located → Decode Logging :=
  Decode.fields depth "struct LoggingConfig" {} decodeLoggingField fun fields =>
    pure fields.logging

structure PayloadFields where
  name : Option String := none
  templatePath : Option String := none
  batchSize : Option Nat := none
  topic : Option String := none

def PayloadFields.payload (fields : PayloadFields) : Decode Payload := do
  match fields.templatePath with
  | none => Decode.failWith (.missingField "template_path")
  | some templatePath =>
    return {
      name := fields.name.getD ""
      templatePath
      batchSize := fields.batchSize.getD defaultPayloadBatchSize
      topic := fields.topic.getD "" }

def decodePayloadField (_ : Nat) (fields : PayloadFields) (name : String) (value : Located) :
    Decode PayloadFields := do
  match name with
  | "name" =>
    let name ← Decode.once name fields.name (decodeText value)
    return { fields with name }
  | "template_path" =>
    let templatePath ← Decode.once name fields.templatePath (Decode.text "path string" value)
    return { fields with templatePath }
  | "batch_size" =>
    let batchSize ← Decode.once name fields.batchSize (decodeCount value)
    return { fields with batchSize }
  | "topic" =>
    let topic ← Decode.once name fields.topic (decodeText value)
    return { fields with topic }
  | _ =>
    Decode.ignore value
    return fields

def decodePayload (depth : Nat) : Located → Decode Payload :=
  Decode.fields depth "struct PayloadConfig" {} decodePayloadField (·.payload)

structure DraftFields where
  kafka : Option Kafka := none
  schedule : Option (Option Schedule) := none
  logging : Option Logging := none
  payloads : Option (List Payload) := none
  payload : Option (Option Payload) := none

def DraftFields.draft (fields : DraftFields) : Decode Draft := do
  match fields.kafka with
  | none => Decode.failWith (.missingField "kafka")
  | some kafka =>
    return {
      kafka
      schedule := fields.schedule.join
      logging := fields.logging.getD .default
      payloads := fields.payloads.getD []
      payload := fields.payload.join }

def decodeDraftField (depth : Nat) (fields : DraftFields) (name : String) (value : Located) :
    Decode DraftFields := do
  match name with
  | "kafka" =>
    let kafka ← Decode.once name fields.kafka (decodeKafka depth value)
    return { fields with kafka }
  | "scheduler" =>
    let schedule ← Decode.once name fields.schedule
      (Decode.optional (decodeSchedule depth) value)
    return { fields with schedule }
  | "logging" =>
    let logging ← Decode.once name fields.logging (decodeLogging depth value)
    return { fields with logging }
  | "payloads" =>
    let payloads ← Decode.once name fields.payloads
      (Decode.sequence depth decodePayload value)
    return { fields with payloads }
  | "payload" =>
    let payload ← Decode.once name fields.payload
      (Decode.optional (decodePayload depth) value)
    return { fields with payload }
  | _ =>
    Decode.ignore value
    return fields

def decodeDraft : Located → Decode Draft :=
  Decode.fields Yaml.depthLimit "struct Config" {} decodeDraftField (·.draft)

/-- Reads settings as they are written. -/
def Draft.ofText (text : List Char) : Except Yaml.Fault Draft :=
  (Yaml.Document.ofBytes (Text.Utf8.encode text)).decode decodeDraft

end MessagePress.Config
