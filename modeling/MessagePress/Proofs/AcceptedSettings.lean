import Mathlib.Data.List.Basic
import MessagePress.Config.Load
import MessagePress.Proofs.DecodedValues
import MessagePress.Proofs.Startup
import MessagePress.Proofs.Trimming
import MessagePress.Schedule.Basic

/-! Which settings are accepted. Defaults are filled in before anything is checked, so the
conditions are stated on a draft as it is written; what is accepted has a value for every
setting that is used later, and a schedule that a scheduler can keep. -/

namespace MessagePress.Proofs.AcceptedSettings
open Config Startup Trimming DecodedValues PartialRuns

variable {draft : Draft} {payload : Payload} {config : Config}

/-- A broker's name is more than blanks. -/
def Named (broker : String) : Prop := Text.trim Text.isBlank broker.toList ≠ []

instance : DecidablePred Named := fun _ => inferInstanceAs (Decidable (_ ≠ _))

/-- The payloads of a draft, the one that stands apart before all others. -/
def written (draft : Draft) : List Payload := draft.payload.toList ++ draft.payloads

/-- A payload has a template file, and a topic of its own or that of all messages. -/
structure Supplied (topic : String) (payload : Payload) : Prop where
  templatePath : payload.templatePath ≠ ""
  topic : payload.topic ≠ "" ∨ topic ≠ ""

structure Usable (draft : Draft) : Prop where
  broker : draft.kafka.brokers ≠ []
  named : ∀ broker ∈ draft.kafka.brokers, Named broker
  payload : written draft ≠ []
  supplied : ∀ payload ∈ written draft, Supplied draft.kafka.topic payload

def nameAt (position : ℕ) (payload : Payload) : String :=
  textOr (payload.defaultName position) payload.name

/-- What the first payload that is not supplied lacks. -/
inductive Lacks (topic : String) : List Payload → Violation → Prop
  | templatePath {before payload after} (earlier : ∀ other ∈ before, Supplied topic other)
      (missing : payload.templatePath = "") :
      Lacks topic (before ++ payload :: after) (.noTemplatePath (nameAt before.length payload))
  | topic {before payload after} (earlier : ∀ other ∈ before, Supplied topic other)
      (given : payload.templatePath ≠ "") (missing : payload.topic = "") (unset : topic = "") :
      Lacks topic (before ++ payload :: after) (.noTopic (nameAt before.length payload))

/-- The first condition that a draft violates. -/
inductive Violates (draft : Draft) : Violation → Prop
  | noBroker (none : draft.kafka.brokers = []) : Violates draft .noBroker
  | blankBroker (unnamed : ∃ broker ∈ draft.kafka.brokers, ¬Named broker) :
      Violates draft .blankBroker
  | noPayload (broker : draft.kafka.brokers ≠ [])
      (named : ∀ broker ∈ draft.kafka.brokers, Named broker) (none : written draft = []) :
      Violates draft .noPayload
  | payload {violation} (broker : draft.kafka.brokers ≠ [])
      (named : ∀ broker ∈ draft.kafka.brokers, Named broker)
      (lacks : Lacks draft.kafka.topic (written draft) violation) : Violates draft violation

theorem isBlankText_iff {broker : String} : isBlankText broker = true ↔ ¬Named broker := by
  obtain ⟨lead, trail, whole, leading, trailing⟩ := trim_cut Text.isBlank broker.toList
  rw [isBlankText, List.all_eq_true, Named, not_not]
  constructor
  · intro blanks
    by_contra inner
    obtain ⟨c, rest, same⟩ := List.exists_cons_of_ne_nil inner
    have apart := (trim_bare broker.toList : Bare Text.isBlank _).head c (by simp [same])
    rw [blanks c (by rw [whole, same]; simp)] at apart
    cases apart
  · intro none c member
    rw [whole, none, List.nil_append] at member
    exact (List.mem_append.mp member).elim (leading c) (trailing c)

theorem textOr_eq_empty {other text : String} : textOr other text = "" ↔ text = "" ∧ other = "" := by
  unfold textOr
  split
  next empty => simp [String.isEmpty_iff.mp empty]
  next given =>
    have given : text ≠ "" := fun empty => given (String.isEmpty_iff.mpr empty)
    simp [given]

theorem violation?_withDefaults (topic : String) (position : ℕ) (payload : Payload) :
    (payload.withDefaults topic position).violation? =
      if payload.templatePath = "" then some (.noTemplatePath (nameAt position payload))
      else if payload.topic = "" ∧ topic = "" then some (.noTopic (nameAt position payload))
      else none := by
  simp only [Payload.violation?, Payload.withDefaults, String.isEmpty_iff, textOr_eq_empty]
  rfl

theorem supplied_iff {topic : String} {position : ℕ} :
    Supplied topic payload ↔ (payload.withDefaults topic position).violation? = none := by
  rw [violation?_withDefaults]
  constructor
  · rintro ⟨path, given⟩
    rw [if_neg path, if_neg fun missing => given.elim (· missing.1) (· missing.2)]
  · intro none
    split at none
    · cases none
    next path =>
      split at none
      · cases none
      next given => exact ⟨path, not_and_or.mp given⟩

private theorem mapIdx_cut {α β : Type} {f : ℕ → α → β} {items : List α} {before after : List β}
    {result : β} (cut : items.mapIdx f = before ++ result :: after) :
    ∃ front item back, items = front ++ item :: back ∧ before = front.mapIdx f ∧
      result = f front.length item := by
  obtain ⟨front, rest, rfl, rfl, rest'⟩ := List.mapIdx_eq_append_iff.mp cut
  obtain ⟨item, back, rfl, same, -⟩ := List.mapIdx_eq_cons_iff.mp rest'
  exact ⟨front, item, back, rfl, rfl, by simpa using same.symm⟩

/-- The search for a violation stops at the first payload that is not supplied. -/
theorem lacks_iff {topic : String} {payloads : List Payload} {violation : Violation} :
    Lacks topic payloads violation ↔
      (payloads.mapIdx (Payload.withDefaults topic)).findSome? Payload.violation? =
        some violation := by
  rw [List.findSome?_eq_some_iff]
  constructor
  · rintro (⟨earlier, missing⟩ | ⟨earlier, given, missing, unset⟩)
    all_goals
      rename_i before payload after
      refine ⟨before.mapIdx (Payload.withDefaults topic), payload.withDefaults topic before.length,
        _, by rw [List.mapIdx_append, List.mapIdx_cons, Nat.zero_add], ?_, ?_⟩
    · rw [violation?_withDefaults, if_pos missing]
    · intro other member
      obtain ⟨position, inside, rfl⟩ := List.mem_mapIdx.mp member
      exact supplied_iff.mp (earlier _ (List.getElem_mem inside))
    · rw [violation?_withDefaults, if_neg given, if_pos ⟨missing, unset⟩]
    · intro other member
      obtain ⟨position, inside, rfl⟩ := List.mem_mapIdx.mp member
      exact supplied_iff.mp (earlier _ (List.getElem_mem inside))
  · rintro ⟨before, found, after, cut, violated, earlier⟩
    obtain ⟨front, payload, back, rfl, rfl, rfl⟩ := mapIdx_cut cut
    have earlier : ∀ other ∈ front, Supplied topic other := by
      intro other member
      obtain ⟨position, inside, rfl⟩ := List.mem_iff_getElem.mp member
      exact supplied_iff.mpr (earlier _ (List.mem_mapIdx.mpr ⟨position, inside, rfl⟩))
    rw [violation?_withDefaults] at violated
    split at violated
    next missing => cases violated; exact .templatePath earlier missing
    next given =>
      split at violated
      next missing => cases violated; exact .topic earlier given missing.1 missing.2
      next => cases violated

theorem supplied_all_iff {topic : String} {payloads : List Payload} :
    (∀ payload ∈ payloads, Supplied topic payload) ↔
      (payloads.mapIdx (Payload.withDefaults topic)).findSome? Payload.violation? = none := by
  rw [List.findSome?_eq_none_iff]
  constructor
  · intro supplied payload member
    obtain ⟨position, inside, rfl⟩ := List.mem_mapIdx.mp member
    exact supplied_iff.mp (supplied _ (List.getElem_mem inside))
  · intro none payload member
    obtain ⟨position, inside, rfl⟩ := List.mem_iff_getElem.mp member
    exact supplied_iff.mpr (none _ (List.mem_mapIdx.mpr ⟨position, inside, rfl⟩))

theorem violation?_draft (draft : Draft) : draft.folded.withDefaults.violation? =
    if draft.kafka.brokers = [] then some .noBroker
    else if ¬∀ broker ∈ draft.kafka.brokers, Named broker then some .blankBroker
    else if written draft = [] then some .noPayload
    else ((written draft).mapIdx (Payload.withDefaults draft.kafka.topic)).findSome?
      Payload.violation? := by
  have blank : draft.kafka.brokers.any isBlankText = true ↔
      ¬∀ broker ∈ draft.kafka.brokers, Named broker := by
    simp [isBlankText_iff]
  simp only [violation?, withDefaults, Kafka.withDefaults, Draft.folded, List.isEmpty_iff,
    blank, List.mapIdx_eq_nil_iff]
  rfl

theorem violates_iff {violation : Violation} :
    draft.folded.withDefaults.violation? = some violation ↔ Violates draft violation := by
  rw [violation?_draft]
  constructor
  · intro violated
    split at violated
    next none => cases violated; exact .noBroker none
    next broker =>
      split at violated
      next unnamed => cases violated; exact .blankBroker (by simpa using unnamed)
      next named =>
        split at violated
        next none => cases violated; exact .noPayload broker (not_not.mp named) none
        next => exact .payload broker (not_not.mp named) (lacks_iff.mpr violated)
  · intro violated
    cases violated with
    | noBroker none => rw [if_pos none]
    | blankBroker unnamed =>
      obtain ⟨broker, member, blank⟩ := unnamed
      rw [if_neg (List.ne_nil_of_mem member), if_pos fun named => blank (named broker member)]
    | noPayload broker named none => rw [if_neg broker, if_neg (not_not.mpr named), if_pos none]
    | payload broker named lacks =>
      have given : written draft ≠ [] := by
        generalize written draft = payloads at lacks
        cases lacks <;> exact List.append_ne_nil_of_right_ne_nil _ (List.cons_ne_nil _ _)
      rw [if_neg broker, if_neg (not_not.mpr named), if_neg given]
      exact lacks_iff.mp lacks

theorem usable_iff : draft.folded.withDefaults.violation? = none ↔ Usable draft := by
  rw [violation?_draft]
  constructor
  · intro none
    split at none
    · cases none
    next broker =>
      split at none
      · cases none
      next named =>
        split at none
        · cases none
        next payload => exact ⟨broker, not_not.mp named, payload, supplied_all_iff.mpr none⟩
  · rintro ⟨broker, named, payload, supplied⟩
    rw [if_neg broker, if_neg (not_not.mpr named), if_neg payload]
    exact supplied_all_iff.mp supplied

/-- A duration is more than nothing. -/
def Lasts (duration : Duration) : Prop := 0 < duration.seconds ∨ 0 < duration.nanoseconds

def Whole (duration : Duration) : Prop := duration.nanoseconds % 1000000 = 0

theorem isZero_iff {duration : Duration} : duration.isZero = true ↔ ¬Lasts duration := by
  simp only [Duration.isZero, Bool.and_eq_true, beq_iff_eq, Lasts]
  omega

theorem durationOr_lasts {other : Duration} (lasts : Lasts other) (duration : Duration) :
    Lasts (durationOr other duration) := by
  unfold durationOr
  split
  · exact lasts
  next given => exact not_not.mp fun none => given (isZero_iff.mpr none)

theorem durationOr_whole {other duration : Duration} (left : Whole other) (right : Whole duration) :
    Whole (durationOr other duration) := by
  unfold durationOr
  split
  · exact left
  · exact right

theorem millis_pos {duration : Duration} (lasts : Lasts duration) (whole : Whole duration) :
    0 < duration.millis := by
  unfold Duration.millis
  unfold Lasts at lasts
  unfold Whole at whole
  omega

theorem textOr_given {other : String} (given : other ≠ "") (text : String) : textOr other text ≠ "" :=
  fun empty => given (textOr_eq_empty.mp empty).2

private theorem stem_ne_nil {name : List Char} (named : name ≠ []) : (Files.splitExtension name).1 ≠ [] := by
  unfold Files.splitExtension
  dsimp only
  split
  · split
    · exact named
    next given => exact fun empty => given (List.isEmpty_iff.mpr empty)
  · exact named

theorem defaultName_given (position : ℕ) (payload : Payload) : payload.defaultName position ≠ "" := by
  unfold Payload.defaultName Files.fileStem?
  cases found : Files.fileName? payload.templatePath with
  | none =>
    intro empty
    have none := congrArg String.toList empty
    simp [String.toList_append] at none
  | some name =>
    have named : name ≠ [] := by
      unfold Files.fileName? at found
      split at found
      · cases found
      next =>
        have kept := List.find?_some found
        rintro rfl
        cases kept
    intro empty
    exact stem_ne_nil named (by simpa using congrArg String.toList empty)

/-- A payload whose settings all have values. -/
structure Complete (payload : Payload) : Prop where
  name : payload.name ≠ ""
  templatePath : payload.templatePath ≠ ""
  topic : payload.topic ≠ ""
  batchSize : 0 < payload.batchSize

/-- A schedule that a scheduler does not refuse. -/
structure Keeps (schedule : Config.Schedule) : Prop where
  interval : Lasts schedule.interval
  workers : 0 < schedule.workers
  settings : ∃ settings, Schedule.Settings.of schedule.interval.millis schedule.workers = .ok settings

structure Ready (config : Config) : Prop where
  clientId : config.kafka.clientId ≠ ""
  timeout : Lasts config.kafka.timeout
  batchSize : 0 < config.kafka.batchSize
  payload : config.payloads ≠ []
  complete : ∀ payload ∈ config.payloads, Complete payload
  schedule : ∀ schedule, config.schedule = some schedule → schedule.enabled = true → Keeps schedule

theorem Supplied.complete {topic : String} (supplied : Supplied topic payload) (position : ℕ) :
    Complete (payload.withDefaults topic position) where
  name := textOr_given (defaultName_given position payload) payload.name
  templatePath := supplied.templatePath
  topic empty := supplied.topic.elim (· (textOr_eq_empty.mp empty).1) (· (textOr_eq_empty.mp empty).2)
  batchSize := countOr_pos (by decide) payload.batchSize

theorem keeps_withDefaults {schedule : Config.Schedule} (whole : Whole schedule.interval)
    (enabled : schedule.enabled = true) : Keeps schedule.withDefaults := by
  rw [Schedule.withDefaults, if_pos enabled]
  have interval : Lasts (durationOr defaultInterval schedule.interval) :=
    durationOr_lasts (Or.inl (by decide)) _
  have workers : 0 < countOr defaultWorkers schedule.workers := countOr_pos (by decide) _
  have positive := millis_pos interval (durationOr_whole rfl whole)
  refine ⟨interval, workers, ⟨_, _, positive, workers⟩, ?_⟩
  rw [Schedule.Settings.of, dif_pos positive, dif_pos workers]

theorem ready_withDefaults (usable : Usable draft)
    (whole : ∀ schedule, draft.schedule = some schedule → Whole schedule.interval) :
    Ready draft.folded.withDefaults where
  clientId := textOr_given (by decide) draft.kafka.clientId
  timeout := durationOr_lasts (Or.inl (by decide)) draft.kafka.timeout
  batchSize := countOr_pos (by decide) draft.kafka.batchSize
  payload := fun none => usable.payload (List.mapIdx_eq_nil_iff.mp none)
  complete := by
    intro payload member
    obtain ⟨position, inside, rfl⟩ := List.mem_mapIdx.mp member
    exact (usable.supplied _ (List.getElem_mem inside)).complete position
  schedule := by
    intro schedule given enabled
    obtain ⟨drafted, known, rfl⟩ := Option.map_eq_some_iff.mp given
    have enabled : drafted.enabled = true := by
      unfold Schedule.withDefaults at enabled
      split at enabled
      next enabled => exact enabled
      next => exact enabled
    exact keeps_withDefaults (whole drafted known) enabled

theorem ofText_whole {text : String} {duration : Duration}
    (read : Duration.ofText text = .ok duration) : Whole duration := by
  unfold Duration.ofText at read
  dsimp only at read
  split at read
  · cases read
  split at read
  · cases read
  split at read
  · cases read
    simp [Whole, Duration.ofMillis]
  · split at read
    · cases read
      rfl
    · cases read

theorem writtenDuration_whole {value : WrittenDuration} {duration : Duration}
    (read : value.duration = .ok duration) : Whole duration := by
  cases value with
  | seconds count => cases read; rfl
  | text content => exact ofText_whole (of_mapError read)
  | other => cases read

theorem decodeDuration_whole (depth : ℕ) (located : Yaml.Located) :
    Decodes (decodeDuration depth located) Whole := by
  refine .behind fun value => ?_
  split
  next duration read => exact .pure (writtenDuration_whole read)
  next => exact failWith_decodes _

def WholeSchedule (schedule? : Option Config.Schedule) : Prop :=
  ∀ schedule, schedule? = some schedule → Whole schedule.interval

theorem decodeSchedule_whole (depth : ℕ) (located : Yaml.Located) :
    Decodes (decodeSchedule depth located) fun schedule => Whole schedule.interval := by
  let Kept (fields : ScheduleFields) : Prop :=
    ∀ duration, fields.interval = some duration → Whole duration
  refine mapping_decodes (fun inner _ fields name value (kept : Kept fields) => ?_)
    (fun duration none => by cases none) (fun fields kept => .pure ?_) located
  · unfold decodeScheduleField
    split
    · exact .behind fun enabled => .pure kept
    · exact .bind (once_decodes _ _ (decodeDuration_whole _ _)) fun interval known => .pure known
    · exact .behind fun workers => .pure kept
    · exact .behind fun _ => .pure kept
  · rw [ScheduleFields.schedule]
    cases interval : fields.interval with
    | none => rfl
    | some duration => exact kept duration interval

private theorem optional_whole {value : Yaml.Located → Yaml.Decode Config.Schedule}
    (given : ∀ located, Decodes (value located) fun schedule => Whole schedule.interval)
    (located : Yaml.Located) : Decodes (Yaml.Decode.optional value located) WholeSchedule := by
  have none : Decodes (pure none) WholeSchedule := .pure nofun
  have some (located) : Decodes (do return some (← value located)) WholeSchedule :=
    .bind (given located) fun schedule known => .pure fun _ same => by cases same; exact known
  refine .behind fun located => ?_
  split
  · exact none
  · split
    · exact some _
    split
    · split
      · exact none
      · exact failWith_decodes _
    split
    · exact none
    · exact some _
  · exact some _

theorem decodeDraft_whole (located : Yaml.Located) :
    Decodes (decodeDraft located) fun draft => WholeSchedule draft.schedule := by
  let Kept (fields : DraftFields) : Prop :=
    ∀ schedule?, fields.schedule = some schedule? → WholeSchedule schedule?
  refine mapping_decodes (fun inner _ fields name value (kept : Kept fields) => ?_)
    (fun schedule? none => by cases none) (fun fields kept => ?_) located
  · unfold decodeDraftField
    split
    · exact .behind fun kafka => .pure kept
    · exact .bind (once_decodes _ _ (optional_whole (decodeSchedule_whole inner) _))
        fun schedule known => .pure known
    · exact .behind fun logging => .pure kept
    · exact .behind fun payloads => .pure kept
    · exact .behind fun payload => .pure kept
    · exact .behind fun _ => .pure kept
  · unfold DraftFields.draft
    split
    · exact failWith_decodes _
    · exact .pure fun schedule given => kept _ (Option.join_eq_some_iff.mp given) schedule rfl

theorem draft_whole {text : List Char} (parsed : Draft.ofText text = .ok draft) :
    WholeSchedule draft.schedule :=
  (document_decodes decodeDraft_whole parsed :)

theorem load_ready {read : Files.Reader} {path : String} {config : Config}
    (loaded : Config.load read path = .ok config) : Ready config := by
  obtain ⟨text, draft, parsed, accepted⟩ := load_ok loaded
  rw [accept_ok accepted]
  refine ready_withDefaults (usable_iff.mp ?_) (draft_whole parsed)
  unfold Draft.accept at accepted
  dsimp only at accepted
  split at accepted
  · cases accepted
  · assumption

theorem ofText_parsed {text : List Char} (parsed : Draft.ofText text = .ok draft) :
    ofText text = match draft.folded.withDefaults.violation? with
      | some violation => .error (.violates violation)
      | none => .ok draft.folded.withDefaults := by
  rw [ofText, parsed]
  change draft.accept.mapError Fault.violates = _
  rw [Draft.accept]
  cases draft.folded.withDefaults.violation? <;> rfl

/-- A document of settings is accepted if and only if it names brokers, none of them by blanks
alone, and payloads, each with a template file and a topic. Otherwise the first violation is
told, those of the brokers before those of the payloads and these in order. Accepted settings
have a value wherever one is needed, and no scheduler refuses a schedule of theirs. -/
theorem settings_accepted {text : List Char} (parsed : Draft.ofText text = .ok draft) :
    ((∃ config, ofText text = .ok config) ↔ Usable draft) ∧
    (∀ violation, ofText text = .error (.violates violation) ↔ Violates draft violation) ∧
    (¬Usable draft → ∃ violation, Violates draft violation) ∧
    ∀ config, ofText text = .ok config → Ready config := by
  rw [ofText_parsed parsed]
  cases checked : draft.folded.withDefaults.violation? with
  | none =>
    have usable := usable_iff.mp checked
    have sound (violation) : ¬Violates draft violation := by
      intro violated
      rw [violates_iff.mpr violated] at checked
      cases checked
    refine ⟨iff_of_true ⟨_, rfl⟩ usable, fun violation => iff_of_false nofun (sound violation),
      fun unusable => absurd usable unusable, ?_⟩
    rintro config ⟨⟩
    exact ready_withDefaults usable (draft_whole parsed)
  | some violation =>
    have violated := violates_iff.mp checked
    have unusable : ¬Usable draft := by
      intro usable
      rw [usable_iff.mpr usable] at checked
      cases checked
    refine ⟨iff_of_false nofun unusable, fun other => ?_, fun _ => ⟨violation, violated⟩, nofun⟩
    rw [← violates_iff, checked]
    simp

/-- The payload that stands apart shifts the place that the other one is named by; with a topic
for all messages both are accepted, and so is an interval of zero. -/
theorem settings_accepted_topicless :
    let text (topic : String) := ("kafka: \x7bbrokers: [b], topic: " ++ topic ++ "\x7d\n" ++
      "payload: \x7btemplate_path: a, topic: t\x7d\npayloads: [template_path: ..]\n" ++
      "scheduler: \x7benabled: true, interval: 0\x7d").toList
    (∃ draft, Draft.ofText (text "''") = .ok draft ∧ Violates draft (.noTopic "payload-1") ∧
      ofText (text "''") = .error (.violates (.noTopic "payload-1"))) ∧
    ∃ draft config, Draft.ofText (text "u") = .ok draft ∧ Usable draft ∧
      ofText (text "u") = .ok config ∧ Ready config := by
  intro text
  let draft (topic : String) : Draft :=
    ⟨⟨["b"], topic, "", -1, .ofSeconds 10, 100, false⟩, some ⟨true, ⟨0, 0⟩, 1⟩, .default,
      [⟨"", "..", 1, ""⟩], some ⟨"", "a", 1, "t"⟩⟩
  have topicless : Draft.ofText (text "''") = .ok (draft "") := by decide +kernel
  have complete : Draft.ofText (text "u") = .ok (draft "u") := by decide +kernel
  have violated : Violates (draft "") (.noTopic "payload-1") := violates_iff.mp (by decide +kernel)
  have usable : Usable (draft "u") := usable_iff.mp (by decide +kernel)
  refine ⟨⟨_, topicless, violated, ((settings_accepted topicless).2.1 _).mpr violated⟩, ?_⟩
  obtain ⟨accepted, -, -, ready⟩ := settings_accepted complete
  obtain ⟨config, given⟩ := accepted.mpr usable
  exact ⟨_, config, complete, usable, given, ready config given⟩

end MessagePress.Proofs.AcceptedSettings
