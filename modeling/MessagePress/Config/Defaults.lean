import MessagePress.Config.Basic
import MessagePress.Files.Path

/-! Values for settings that are left out. A zero or an empty text counts as left out. -/

namespace MessagePress.Config

def defaultClientId : String := "kafka-pusher"

def defaultPartition : Int := -1

def defaultTimeout : Duration := .ofSeconds 10

def defaultDeliveryBatchSize : Nat := 100

def defaultInterval : Duration := .ofSeconds 5

def defaultWorkers : Nat := 1

def defaultLevel : String := "info"

def defaultPayloadBatchSize : Nat := 1

def Schedule.default : Schedule := ⟨false, defaultInterval, defaultWorkers⟩

def Logging.default : Logging := ⟨defaultLevel, .text, false⟩

/-- A text, or another one in place of an empty text. -/
def textOr (other text : String) : String := if text.isEmpty then other else text

/-- A count, or another one in place of zero. -/
def countOr (other count : Nat) : Nat := if count = 0 then other else count

/-- A duration, or another one in place of none at all. -/
def durationOr (other duration : Duration) : Duration :=
  if duration.isZero then other else duration

def Kafka.withDefaults (kafka : Kafka) : Kafka :=
  { kafka with
    clientId := textOr defaultClientId kafka.clientId
    timeout := durationOr defaultTimeout kafka.timeout
    batchSize := countOr defaultDeliveryBatchSize kafka.batchSize }

/-- A schedule that is not enabled stays as it is. -/
def Schedule.withDefaults (schedule : Schedule) : Schedule :=
  if schedule.enabled then
    { schedule with
      interval := durationOr defaultInterval schedule.interval
      workers := countOr defaultWorkers schedule.workers }
  else schedule

/-- The name of a payload that has none of its own: that of its template file, or its
position if the path names no file. -/
def Payload.defaultName (position : Nat) (payload : Payload) : String :=
  (Files.fileStem? payload.templatePath).getD s!"payload-{position}"

def Payload.withDefaults (topic : String) (position : Nat) (payload : Payload) : Payload :=
  { payload with
    name := textOr (payload.defaultName position) payload.name
    topic := textOr topic payload.topic
    batchSize := countOr defaultPayloadBatchSize payload.batchSize }

def withDefaults (config : Config) : Config :=
  { config with
    kafka := config.kafka.withDefaults
    schedule := config.schedule.map (·.withDefaults)
    payloads := config.payloads.mapIdx (Payload.withDefaults config.kafka.topic) }

end MessagePress.Config
