import MessagePress.Config.Load
import MessagePress.Proofs.DecodedViews

/-! Settings as they are written. A document is read as ever, but what it leaves out stays left
out; once that is filled in, what comes of it are the settings, or the same fault. -/

namespace MessagePress.Proofs.WrittenSettings
open Config Yaml Yaml.Decode DecodedViews

deriving instance DecidableEq for KafkaFields, ScheduleFields, LoggingFields

/-- A payload as it is written. Only the template file has to be given. -/
structure WrittenPayload where
  name : Option String
  templatePath : String
  batchSize : Option ℕ
  topic : Option String
  deriving DecidableEq

def WrittenPayload.payload (written : WrittenPayload) : Payload where
  name := written.name.getD ""
  templatePath := written.templatePath
  batchSize := written.batchSize.getD defaultPayloadBatchSize
  topic := written.topic.getD ""

/-- The fields that it gives. -/
def WrittenPayload.fields (written : WrittenPayload) : PayloadFields :=
  ⟨written.name, some written.templatePath, written.batchSize, written.topic⟩

/-- Settings as they are written. -/
structure Written where
  kafka : KafkaFields
  schedule : Option ScheduleFields
  logging : Option LoggingFields
  payloads : List WrittenPayload
  payload : Option WrittenPayload
  deriving DecidableEq

/-- What is left out is filled in as it is when settings are read. -/
def Written.draft (written : Written) : Draft where
  kafka := written.kafka.kafka
  schedule := written.schedule.map (·.schedule)
  logging := (written.logging.map (·.logging)).getD .default
  payloads := written.payloads.map (·.payload)
  payload := written.payload.map (·.payload)

def decodeWrittenKafka (depth : ℕ) : Located → Decode KafkaFields :=
  Decode.fields depth "struct KafkaConfig" {} decodeKafkaField pure

def decodeWrittenSchedule (depth : ℕ) : Located → Decode ScheduleFields :=
  Decode.fields depth "struct SchedulerConfig" {} decodeScheduleField pure

def decodeWrittenLogging (depth : ℕ) : Located → Decode LoggingFields :=
  Decode.fields depth "struct LoggingConfig" {} decodeLoggingField pure

def writtenPayload (fields : PayloadFields) : Decode WrittenPayload :=
  match fields.templatePath with
  | none => Decode.failWith (.missingField "template_path")
  | some templatePath => return ⟨fields.name, templatePath, fields.batchSize, fields.topic⟩

def decodeWrittenPayload (depth : ℕ) : Located → Decode WrittenPayload :=
  Decode.fields depth "struct PayloadConfig" {} decodePayloadField writtenPayload

/-- The sections met so far. -/
structure Sections where
  kafka : Option KafkaFields := none
  schedule : Option (Option ScheduleFields) := none
  logging : Option LoggingFields := none
  payloads : Option (List WrittenPayload) := none
  payload : Option (Option WrittenPayload) := none

def decodeSection (depth : ℕ) (sections : Sections) (name : String) (value : Located) :
    Decode Sections := do
  match name with
  | "kafka" =>
    let kafka ← Decode.once name sections.kafka (decodeWrittenKafka depth value)
    return { sections with kafka }
  | "scheduler" =>
    let schedule ← Decode.once name sections.schedule
      (Decode.optional (decodeWrittenSchedule depth) value)
    return { sections with schedule }
  | "logging" =>
    let logging ← Decode.once name sections.logging (decodeWrittenLogging depth value)
    return { sections with logging }
  | "payloads" =>
    let payloads ← Decode.once name sections.payloads
      (Decode.sequence depth decodeWrittenPayload value)
    return { sections with payloads }
  | "payload" =>
    let payload ← Decode.once name sections.payload
      (Decode.optional (decodeWrittenPayload depth) value)
    return { sections with payload }
  | _ =>
    Decode.ignore value
    return sections

def Sections.written (sections : Sections) : Decode Written :=
  match sections.kafka with
  | none => Decode.failWith (.missingField "kafka")
  | some kafka => return {
      kafka
      schedule := sections.schedule.join
      logging := sections.logging
      payloads := sections.payloads.getD []
      payload := sections.payload.join }

def decodeWritten : Located → Decode Written :=
  Decode.fields Yaml.depthLimit "struct Config" {} decodeSection (·.written)

/-- Reads settings as they are written. -/
def Written.ofText (text : List Char) : Except Yaml.Fault Written :=
  (Yaml.Document.ofBytes (Text.Utf8.encode text)).decode decodeWritten

variable {depth : ℕ}

theorem decodeKafka_eq (located : Located) :
    decodeKafka depth located = KafkaFields.kafka <$> decodeWrittenKafka depth located := by
  unfold decodeKafka decodeWrittenKafka Decode.fields
  refine mapping_finish ?_ located
  exact fun _ => rfl

theorem decodeSchedule_eq (located : Located) :
    decodeSchedule depth located =
      ScheduleFields.schedule <$> decodeWrittenSchedule depth located := by
  unfold decodeSchedule decodeWrittenSchedule Decode.fields
  refine mapping_finish ?_ located
  exact fun _ => rfl

theorem decodeLogging_eq (located : Located) :
    decodeLogging depth located = LoggingFields.logging <$> decodeWrittenLogging depth located := by
  unfold decodeLogging decodeWrittenLogging Decode.fields
  refine mapping_finish ?_ located
  exact fun _ => rfl

theorem decodePayload_eq (located : Located) :
    decodePayload depth located = WrittenPayload.payload <$> decodeWrittenPayload depth located := by
  unfold decodePayload decodeWrittenPayload Decode.fields
  refine mapping_finish ?_ located
  rintro ⟨name, _ | templatePath, batchSize, topic⟩ <;> rfl

def Sections.fields (sections : Sections) : DraftFields where
  kafka := sections.kafka.map (·.kafka)
  schedule := sections.schedule.map (Option.map (·.schedule))
  logging := sections.logging.map (·.logging)
  payloads := sections.payloads.map (List.map (·.payload))
  payload := sections.payload.map (Option.map (·.payload))

theorem decodeDraftField_fields (sections : Sections) (name : String) (value : Located) :
    decodeDraftField depth sections.fields name value =
      Sections.fields <$> decodeSection depth sections name value := by
  unfold decodeDraftField decodeSection
  split
  · simp only [decodeKafka_eq, Sections.fields, once_map, map_bind, bind_map_left, map_pure]
  · simp only [optional_map decodeSchedule_eq, Sections.fields, once_map, map_bind, bind_map_left,
      map_pure]
  · simp only [decodeLogging_eq, Sections.fields, once_map, map_bind, bind_map_left, map_pure]
  · simp only [sequence_map fun inner => @decodePayload_eq inner, Sections.fields, once_map,
      map_bind, bind_map_left, map_pure]
  · simp only [optional_map decodePayload_eq, Sections.fields, once_map, map_bind, bind_map_left,
      map_pure]
  · simp only [map_bind, map_pure]

theorem draft_fields (sections : Sections) :
    sections.fields.draft = Written.draft <$> sections.written := by
  obtain ⟨kafka, schedule, logging, payloads, payload⟩ := sections
  cases kafka with
  | none => rfl
  | some kafka =>
    rcases schedule with _ | _ | schedule <;> rcases payload with _ | _ | payload <;>
      cases payloads <;> rfl

theorem decodeDraft_eq (located : Located) :
    decodeDraft located = Written.draft <$> decodeWritten located := by
  unfold decodeDraft decodeWritten Decode.fields
  exact @mapping_map _ _ _ _ _ _ _ _ {} Sections.fields _ _ _ _ (fun _ => decodeDraftField_fields)
    draft_fields located

/-- Settings are what is written, filled in, and they cannot be read for the same reasons. -/
theorem ofText_eq (text : List Char) : Draft.ofText text = (Written.ofText text).map Written.draft :=
  decode_map _ decodeDraft_eq

end MessagePress.Proofs.WrittenSettings
