import MessagePress.Proofs.AcceptedSettings
import MessagePress.Proofs.WrittenEntries

/-! Settings that are left out. A setting may be left out, written as nothing, or written as what
stands for it then: the settings are the same, and so is the reason if they are refused. Anything
else that is written is kept. -/

namespace MessagePress.Proofs.SettingDefaults
open Config AcceptedSettings WrittenSettings WrittenEntries

/-- A setting that is left out, is nothing, or is what stands for it then anyway. -/
inductive Unset {α : Type} (nothing standard : α) : Option α → Prop
  | leftOut : Unset nothing standard none
  | nothing : Unset nothing standard (some nothing)
  | standard : Unset nothing standard (some standard)

/-- A setting that is written in the same way, or unset in two ways. -/
inductive Alike {α : Type} (nothing standard : α) : Option α → Option α → Prop
  | same {given} : Alike nothing standard given given
  | unset {one other} (left : Unset nothing standard one) (right : Unset nothing standard other) :
      Alike nothing standard one other

/-- The value of a setting. What is written is kept unless it is nothing. -/
structure Settles {α : Type} (nothing standard : α) (given : Option α) (value : α) : Prop where
  unset : Unset nothing standard given → value = standard
  kept : ∀ explicit, given = some explicit → explicit ≠ nothing → value = explicit

/-- What is done to a value that may be nothing. -/
structure Fills {α : Type} (nothing standard : α) (fill : α → α) : Prop where
  empty : fill nothing = standard
  kept : ∀ value, value ≠ nothing → fill value = value

section
variable {α : Type} {nothing standard fallback : α} {given one other : Option α} {fill : α → α}

theorem Fills.full (fills : Fills nothing standard fill) : fill standard = standard := by
  by_cases empty : standard = nothing
  · rw [empty, fills.empty, empty]
  · exact fills.kept _ empty

theorem Fills.twice (fills : Fills nothing standard fill) (value : α) :
    fill (fill value) = fill value := by
  by_cases empty : value = nothing
  · rw [empty, fills.empty, fills.full]
  · rw [fills.kept _ empty, fills.kept _ empty]

/-- A setting that is left out is read as nothing or as what stands for it, and both come to the
same. -/
theorem Fills.unset (fills : Fills nothing standard fill)
    (layer : Unset nothing standard (some fallback)) (unset : Unset nothing standard given) :
    fill (given.getD fallback) = standard := by
  cases unset with
  | leftOut =>
    cases layer with
    | nothing => exact fills.empty
    | standard => exact fills.full
  | nothing => exact fills.empty
  | standard => exact fills.full

theorem Fills.settles (fills : Fills nothing standard fill)
    (layer : Unset nothing standard (some fallback)) :
    Settles nothing standard given (fill (given.getD fallback)) where
  unset := fills.unset layer
  kept := by
    rintro explicit rfl given
    exact fills.kept explicit given

theorem Fills.alike (fills : Fills nothing standard fill)
    (layer : Unset nothing standard (some fallback)) (alike : Alike nothing standard one other) :
    fill (one.getD fallback) = fill (other.getD fallback) := by
  cases alike with
  | same => rfl
  | unset left right => rw [fills.unset layer left, fills.unset layer right]

end

theorem textOr_fills (standard : String) : Fills "" standard (textOr standard) where
  empty := rfl
  kept _ given := if_neg fun empty => given (String.isEmpty_iff.mp empty)

theorem countOr_fills (standard : ℕ) : Fills 0 standard (countOr standard) where
  empty := rfl
  kept _ given := if_neg given

theorem durationOr_fills (standard : Duration) : Fills (.ofSeconds 0) standard (durationOr standard) where
  empty := rfl
  kept := by
    rintro ⟨seconds, nanoseconds⟩ given
    refine if_neg fun zero => given ?_
    simpa [Duration.isZero, Duration.ofSeconds] using zero

/-- The payloads as they are written, the one that stands apart before all others. -/
def streams (written : Written) : List WrittenPayload := written.payload.toList ++ written.payloads

/-- The name of a payload that is given none: the stem of its template file, or its place if the
path names no file. -/
def standardName (position : ℕ) (templatePath : String) : String :=
  match Files.fileStem? templatePath with
  | some stem => stem
  | none => "payload-" ++ toString position

/-- The topic that payloads without one of their own go to. -/
def sharedTopic (written : Written) : String := written.kafka.topic.getD ""

structure KafkaAlike (one other : KafkaFields) : Prop where
  brokers : one.brokers = other.brokers
  topic : one.topic = other.topic
  clientId : Alike "" "kafka-pusher" one.clientId other.clientId
  partition : one.partition = other.partition
  timeout : Alike (.ofSeconds 0) (.ofSeconds 10) one.timeout other.timeout
  batchSize : Alike 0 100 one.batchSize other.batchSize
  asynchronous : one.asynchronous = other.asynchronous

/-- Schedules that are not enabled have to be written in the same way. -/
inductive ScheduleAlike : Option ScheduleFields → Option ScheduleFields → Prop
  | same {written} : ScheduleAlike written written
  | enabled {one other : ScheduleFields} (left : one.enabled = some true)
      (right : other.enabled = some true)
      (interval : Alike (.ofSeconds 0) (.ofSeconds 5) one.interval other.interval)
      (workers : Alike 0 1 one.workers other.workers) : ScheduleAlike (some one) (some other)

structure PayloadAlike (topic : String) (position : ℕ) (one other : WrittenPayload) : Prop where
  name : Alike "" (standardName position one.templatePath) one.name other.name
  templatePath : one.templatePath = other.templatePath
  batchSize : Alike 0 1 one.batchSize other.batchSize
  topic : Alike "" topic one.topic other.topic

/-- Settings that differ only by settings that are unset. -/
structure SettingsAlike (one other : Written) : Prop where
  kafka : KafkaAlike one.kafka other.kafka
  schedule : ScheduleAlike one.schedule other.schedule
  logging : one.logging = other.logging
  count : (streams one).length = (streams other).length
  payload : ∀ position left right, (streams one)[position]? = some left →
    (streams other)[position]? = some right → PayloadAlike (sharedTopic one) position left right

/-- A setting that nothing is filled in for afterwards. -/
def Kept {α : Type} (given : Option α) (value : α) : Prop := ∀ explicit, given = some explicit → value = explicit

structure KafkaSettles (written : KafkaFields) (kafka : Kafka) : Prop where
  brokers : Kept written.brokers kafka.brokers
  topic : Kept written.topic kafka.topic
  clientId : Settles "" "kafka-pusher" written.clientId kafka.clientId
  partition : Kept written.partition kafka.partition
  timeout : Settles (.ofSeconds 0) (.ofSeconds 10) written.timeout kafka.timeout
  batchSize : Settles 0 100 written.batchSize kafka.batchSize
  asynchronous : Kept written.asynchronous kafka.asynchronous

/-- A schedule that is not enabled stays as it is read, be it with an interval of zero. -/
structure ScheduleSettles (written : ScheduleFields) (schedule : Config.Schedule) : Prop where
  enabled : schedule.enabled = written.enabled.getD false
  interval : schedule.enabled → Settles (.ofSeconds 0) (.ofSeconds 5) written.interval schedule.interval
  workers : schedule.enabled → Settles 0 1 written.workers schedule.workers
  untouched : schedule.enabled = false → schedule = written.schedule ∧
    Kept written.interval schedule.interval ∧ Kept written.workers schedule.workers

structure LoggingSettles (written : LoggingFields) (logging : Logging) : Prop where
  level : Kept written.level logging.level
  format : Kept written.format logging.format
  verbose : Kept written.verbose logging.verbose

structure PayloadSettles (topic : String) (position : ℕ) (written : WrittenPayload)
    (payload : Payload) : Prop where
  name : Settles "" (standardName position written.templatePath) written.name payload.name
  templatePath : payload.templatePath = written.templatePath
  batchSize : Settles 0 1 written.batchSize payload.batchSize
  topic : Settles "" topic written.topic payload.topic

structure SettingsSettle (written : Written) (config : Config) : Prop where
  kafka : KafkaSettles written.kafka config.kafka
  schedule : Option.Rel ScheduleSettles written.schedule config.schedule
  logging : ∀ fields, written.logging = some fields → LoggingSettles fields config.logging
  count : config.payloads.length = (streams written).length
  payload : ∀ position given payload, (streams written)[position]? = some given →
    config.payloads[position]? = some payload →
    PayloadSettles (sharedTopic written) position given payload

/-- Settings as a draft again, with no payload apart from the others. -/
def redraft (config : Config) : Draft :=
  ⟨config.kafka, config.schedule, config.logging, config.payloads, none⟩

theorem kept_getD {α : Type} {given : Option α} (fallback : α) : Kept given (given.getD fallback) := by
  rintro explicit rfl
  rfl

theorem kafka_alike {one other : KafkaFields} (alike : KafkaAlike one other) :
    one.kafka.withDefaults = other.kafka.withDefaults := by
  have clientId := (textOr_fills defaultClientId).alike .nothing alike.clientId
  have timeout := (durationOr_fills defaultTimeout).alike .standard alike.timeout
  have batchSize := (countOr_fills defaultDeliveryBatchSize).alike .standard alike.batchSize
  simp only [Kafka.withDefaults, KafkaFields.kafka, clientId, timeout, batchSize, alike.brokers,
    alike.topic, alike.partition, alike.asynchronous]

theorem kafka_settles (written : KafkaFields) :
    KafkaSettles written written.kafka.withDefaults where
  brokers := kept_getD _
  topic := kept_getD _
  clientId := (textOr_fills _).settles .nothing
  partition := kept_getD _
  timeout := (durationOr_fills _).settles .standard
  batchSize := (countOr_fills _).settles .standard
  asynchronous := kept_getD _

theorem kafka_twice (kafka : Kafka) : kafka.withDefaults.withDefaults = kafka.withDefaults := by
  simp only [Kafka.withDefaults, (textOr_fills _).twice, (durationOr_fills _).twice,
    (countOr_fills _).twice]

theorem schedule_alike {one other : Option ScheduleFields} (alike : ScheduleAlike one other) :
    (one.map (·.schedule)).map (·.withDefaults) = (other.map (·.schedule)).map (·.withDefaults) := by
  cases alike with
  | same => rfl
  | enabled left right interval workers =>
    have interval := (durationOr_fills defaultInterval).alike .standard interval
    have workers := (countOr_fills defaultWorkers).alike .standard workers
    simp only [Option.map_some, Schedule.withDefaults, ScheduleFields.schedule, left, right,
      Option.getD_some, if_true, Schedule.default, interval, workers]

theorem schedule_settles (written : ScheduleFields) :
    ScheduleSettles written written.schedule.withDefaults := by
  cases enabled : written.enabled.getD false with
  | false =>
    have idle : written.schedule.enabled = false := enabled
    have untouched : written.schedule.withDefaults = written.schedule := if_neg (by simp [idle])
    rw [untouched]
    exact ⟨rfl, by simp [idle], by simp [idle], fun _ => ⟨rfl, kept_getD _, kept_getD _⟩⟩
  | true =>
    have running : written.schedule.enabled = true := enabled
    have filled : written.schedule.withDefaults = { written.schedule with
        interval := durationOr defaultInterval written.schedule.interval
        workers := countOr defaultWorkers written.schedule.workers } := if_pos running
    rw [filled]
    exact ⟨rfl, fun _ => (durationOr_fills _).settles .standard,
      fun _ => (countOr_fills _).settles .standard, by simp [running]⟩

theorem schedule_twice (schedule : Config.Schedule) :
    schedule.withDefaults.withDefaults = schedule.withDefaults := by
  unfold Schedule.withDefaults
  split
  next enabled =>
    simp only [enabled, (durationOr_fills _).twice, (countOr_fills _).twice]
  next => rfl

theorem defaultName_eq (position : ℕ) (written : WrittenPayload) :
    written.payload.defaultName position = standardName position written.templatePath := by
  unfold Payload.defaultName standardName WrittenPayload.payload
  cases Files.fileStem? written.templatePath <;> rfl

theorem payload_alike {topic : String} {position : ℕ} {one other : WrittenPayload}
    (alike : PayloadAlike topic position one other) :
    one.payload.withDefaults topic position = other.payload.withDefaults topic position := by
  have name := (textOr_fills _).alike .nothing alike.name
  have batchSize := (countOr_fills defaultPayloadBatchSize).alike .standard alike.batchSize
  have shared := (textOr_fills topic).alike .nothing alike.topic
  unfold Payload.withDefaults
  rw [defaultName_eq, defaultName_eq, ← alike.templatePath]
  simp only [WrittenPayload.payload, name, batchSize, shared]
  rw [alike.templatePath]

theorem payload_settles (topic : String) (position : ℕ) (written : WrittenPayload) :
    PayloadSettles topic position written (written.payload.withDefaults topic position) where
  name := defaultName_eq position written ▸ (textOr_fills _).settles .nothing
  templatePath := rfl
  batchSize := (countOr_fills _).settles .standard
  topic := (textOr_fills _).settles .nothing

theorem payload_twice (topic : String) (position : ℕ) (payload : Payload) :
    (payload.withDefaults topic position).withDefaults topic position =
      payload.withDefaults topic position := by
  have name := (textOr_fills (payload.defaultName position)).twice payload.name
  simp only [Payload.withDefaults, (textOr_fills topic).twice, (countOr_fills _).twice]
  exact congrArg (fun name => (⟨name, _, _, _⟩ : Payload)) name

theorem folded_payloads (written : Written) :
    written.draft.folded.payloads = (streams written).map (·.payload) := by
  unfold Draft.folded Written.draft streams
  rw [List.map_append]
  cases written.payload <;> rfl

theorem settings_alike {one other : Written} (alike : SettingsAlike one other) :
    one.draft.folded.withDefaults = other.draft.folded.withDefaults := by
  have topic : one.draft.folded.kafka.topic = sharedTopic one := rfl
  have topic' : other.draft.folded.kafka.topic = sharedTopic one := by
    change other.kafka.topic.getD "" = one.kafka.topic.getD ""
    rw [alike.kafka.topic]
  have payloads : one.draft.folded.payloads.mapIdx (Payload.withDefaults (sharedTopic one)) =
      other.draft.folded.payloads.mapIdx (Payload.withDefaults (sharedTopic one)) := by
    rw [folded_payloads, folded_payloads]
    refine List.ext_getElem (by simp [alike.count]) fun position left right => ?_
    simp only [List.getElem_mapIdx, List.getElem_map]
    exact payload_alike (alike.payload position _ _ (List.getElem?_eq_getElem _)
      (List.getElem?_eq_getElem _))
  have logging : one.draft.folded.logging = other.draft.folded.logging := by
    change (one.logging.map _).getD _ = (other.logging.map _).getD _
    rw [alike.logging]
  unfold Config.withDefaults
  rw [topic, topic', payloads, logging]
  exact congrArg₂ (fun kafka schedule => (⟨kafka, schedule, _, _⟩ : Config))
    (kafka_alike alike.kafka) (schedule_alike alike.schedule)

theorem settings_settle (written : Written) :
    SettingsSettle written written.draft.folded.withDefaults where
  kafka := kafka_settles written.kafka
  schedule := by
    change Option.Rel ScheduleSettles written.schedule
      ((written.schedule.map (·.schedule)).map (·.withDefaults))
    cases written.schedule with
    | none => exact .none
    | some fields => exact .some (schedule_settles fields)
  logging := by
    intro fields given
    change LoggingSettles fields ((written.logging.map (·.logging)).getD .default)
    rw [given]
    exact ⟨kept_getD _, kept_getD _, kept_getD _⟩
  count := by
    change (List.mapIdx _ written.draft.folded.payloads).length = _
    rw [List.length_mapIdx, folded_payloads, List.length_map]
  payload := by
    intro position given payload known found
    change (List.mapIdx _ written.draft.folded.payloads)[position]? = _ at found
    rw [folded_payloads, List.getElem?_mapIdx, List.getElem?_map, known] at found
    cases found
    exact payload_settles _ position given

theorem settings_twice (config : Config) :
    (redraft config.withDefaults).folded.withDefaults = config.withDefaults := by
  unfold redraft Draft.folded Config.withDefaults
  have schedule : Schedule.withDefaults ∘ Schedule.withDefaults = Schedule.withDefaults :=
    funext schedule_twice
  have payload : (fun position => Payload.withDefaults config.kafka.withDefaults.topic position ∘
      Payload.withDefaults config.kafka.topic position) = Payload.withDefaults config.kafka.topic :=
    funext fun position => funext (payload_twice config.kafka.topic position)
  simp only [Option.toList_none, List.nil_append, kafka_twice, Option.map_map, List.mapIdx_mapIdx]
  rw [schedule, payload]

/-- Settings that differ only by settings that are unset are the same, and so is the reason if
they are refused. Accepted settings keep everything that is written and not nothing, and filling
them in again changes nothing. -/
theorem settings_filled_in :
    (∀ text, Draft.ofText text = (Written.ofText text).map Written.draft) ∧
    (∀ text written, Written.ofText text = .ok written → Describes text written ∧
      (∀ other alternative, Written.ofText other = .ok alternative →
        SettingsAlike written alternative → Config.ofText other = Config.ofText text) ∧
      ∀ config, Config.ofText text = .ok config → SettingsSettle written config) ∧
    ∀ draft : Draft, (redraft draft.folded.withDefaults).folded.withDefaults =
      draft.folded.withDefaults := by
  have drafted {text written} (parsed : Written.ofText text = .ok written) :
      Draft.ofText text = .ok written.draft := by
    rw [ofText_eq, parsed]
    rfl
  refine ⟨ofText_eq, fun text written parsed => ⟨ofText_describes parsed, ?_, ?_⟩,
    fun draft => settings_twice draft.folded⟩
  · intro other alternative parsed' alike
    rw [ofText_parsed (drafted parsed), ofText_parsed (drafted parsed'), settings_alike alike]
  · intro config accepted
    rw [ofText_parsed (drafted parsed)] at accepted
    split at accepted
    · cases accepted
    · cases accepted
      exact settings_settle written

/-- Two payloads, one of them apart, whose settings are left out in one text and written as nothing
or as their defaults in another. -/
theorem settings_filled_in_folded :
    let text := ("kafka: \x7bbrokers: [b], topic: t\x7d\nscheduler: \x7benabled: true\x7d\n" ++
      "payload: \x7btemplate_path: a/b.c, topic: u\x7d\npayloads: [template_path: ..]").toList
    let other := ("kafka: \x7bbrokers: [b], topic: t, client_id: '', timeout: 10s\x7d\n" ++
      "scheduler: \x7benabled: true, interval: 0ms\x7d\n" ++
      "payload: \x7btemplate_path: a/b.c, topic: u, name: b, batch_size: 1\x7d\n" ++
      "payloads: [\x7btemplate_path: .., name: payload-1, topic: t\x7d]").toList
    ∃ written alternative config, Written.ofText text = .ok written ∧ Describes text written ∧
      Written.ofText other = .ok alternative ∧ SettingsAlike written alternative ∧
      ofText text = .ok config ∧ ofText other = .ok config ∧ SettingsSettle written config ∧
      (redraft config).folded.withDefaults = config := by
  intro text other
  let written : Written :=
    ⟨⟨some ["b"], some "t", none, none, none, none, none⟩, some ⟨some true, none, none⟩, none,
      [⟨none, "..", none, none⟩], some ⟨none, "a/b.c", none, some "u"⟩⟩
  let alternative : Written :=
    ⟨⟨some ["b"], some "t", some "", none, some (.ofSeconds 10), none, none⟩,
      some ⟨some true, some (.ofSeconds 0), none⟩, none,
      [⟨some "payload-1", "..", none, some "t"⟩], some ⟨some "b", "a/b.c", some 1, some "u"⟩⟩
  have parsed : Written.ofText text = .ok written := by decide +kernel
  have parsed' : Written.ofText other = .ok alternative := by decide +kernel
  have alike : SettingsAlike written alternative := by
    refine ⟨⟨rfl, rfl, .unset .leftOut .nothing, rfl, .unset .leftOut .standard, .same, rfl⟩,
      .enabled rfl rfl (.unset .leftOut .nothing) .same, rfl, rfl, ?_⟩
    rintro (_ | _ | position) left right ⟨⟩ ⟨⟩
    · exact ⟨.unset .leftOut .standard, rfl, .unset .leftOut .standard, .same⟩
    · exact ⟨.unset .leftOut .standard, rfl, .same, .unset .leftOut .standard⟩
  have drafted : Draft.ofText text = .ok written.draft := by rw [ofText_eq, parsed]; rfl
  have usable : written.draft.folded.withDefaults.violation? = none := by decide +kernel
  have accepted : ofText text = .ok written.draft.folded.withDefaults := by
    rw [ofText_parsed drafted, usable]
  obtain ⟨-, filled, again⟩ := settings_filled_in
  obtain ⟨describes, same, settles⟩ := filled text written parsed
  exact ⟨_, _, _, parsed, describes, parsed', alike, accepted,
    (same other alternative parsed' alike).trans accepted, settles _ accepted, again _⟩

end MessagePress.Proofs.SettingDefaults
