import MessagePress.Config.Defaults

/-! What settings have to meet once their defaults are filled in. -/

namespace MessagePress.Config

inductive Violation
  | noBroker
  | blankBroker
  | noPayload
  | noTemplatePath (payload : String)
  | noTopic (payload : String)
  deriving DecidableEq, Repr

def Violation.message : Violation → String
  | .noBroker => "kafka.brokers is required"
  | .blankBroker => "kafka.brokers must not contain empty entries"
  | .noPayload => "at least one payload is required (payloads or payload)"
  | .noTemplatePath payload => "payload '" ++ payload ++ "': template_path is required"
  | .noTopic payload =>
    "payload '" ++ payload ++ "': topic is required (set payload topic or kafka.topic)"

def isBlankText (text : String) : Bool := text.toList.all Text.isBlank

/-- What is wrong with a payload. -/
def Payload.violation? (payload : Payload) : Option Violation :=
  if payload.templatePath.isEmpty then some (.noTemplatePath payload.name)
  else if payload.topic.isEmpty then some (.noTopic payload.name)
  else none

/-- The first violation, brokers before payloads and those in order. -/
def violation? (config : Config) : Option Violation :=
  if config.kafka.brokers.isEmpty then some .noBroker
  else if config.kafka.brokers.any isBlankText then some .blankBroker
  else if config.payloads.isEmpty then some .noPayload
  else config.payloads.findSome? Payload.violation?

/-- The settings of a draft with all defaults, if they can be used. -/
def Draft.accept (draft : Draft) : Except Violation Config :=
  let config := draft.folded.withDefaults
  match config.violation? with
  | some violation => .error violation
  | none => .ok config

end MessagePress.Config
