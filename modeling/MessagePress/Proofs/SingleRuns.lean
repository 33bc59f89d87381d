import Mathlib.Data.List.Basic
import MessagePress.CommandLine.Program
import MessagePress.Proofs.PushDelivery
import MessagePress.Proofs.Startup

/-! A dry run that pushes once. Its start is all or nothing, its push is not: every stream whose
template can be rendered prints its batch, whatever becomes of the others. -/

namespace MessagePress.Proofs.SingleRuns
open Template Delivery CommandLine GenerationFaults PushDelivery Startup PartialRuns

variable {template : Template} {stream : Stream} {streams : List Stream} {verbose : Bool}
  {supply : Supply} {fault : RenderFault}

/-- The source ended before a message could be evaluated. -/
def Exhausted (production : Production) : Prop :=
  ∃ name index fault, production.outcome = .error (.generation name index (.evaluation fault))

theorem generate_cases (template : Template) (supply : Supply) :
    (∃ fault, (template.generate supply).1 = .error (.evaluation fault)) ∨
      fault? (template.generate supply).1 = (flaw? template).map .render := by
  cases evaluated : (evaluate (supply.clocks 0) template.substitution supply.source).1 with
  | error fault =>
    refine Or.inl ⟨fault, ?_⟩
    simp only [Template.generate, evaluated]
    rfl
  | ok values =>
    refine Or.inr ?_
    rw [generate_render evaluated, ← render_flaw evaluated]
    cases render template.body values <;> rfl

theorem runBatch_flawless (flawless : flaw? template = none) (index count : ℕ) (supply : Supply) :
    (∃ messages, (runBatch template.generate index count supply).1.outcome = .ok messages) ∨
      ∃ reached fault, (runBatch template.generate index count supply).1.outcome =
        .error (reached, .evaluation fault) := by
  induction count generalizing index supply with
  | zero => exact Or.inl ⟨[], rfl⟩
  | succ count ih =>
    have first := generate_cases template supply
    rw [runBatch]
    rcases step : template.generate supply with ⟨cause | message, left⟩
    · rw [step, flawless] at first
      rcases first with ⟨fault, failed⟩ | sound
      · cases failed
        exact Or.inr ⟨index, fault, rfl⟩
      · cases sound
    · rcases ih (index + 1) left with ⟨messages, whole⟩ | ⟨reached, fault, stopped⟩
      · exact Or.inl ⟨message :: messages, by simp only [whole]; rfl⟩
      · exact Or.inr ⟨reached, fault, by simp only [stopped]; rfl⟩

theorem runBatch_flawed (flawed : flaw? template = some fault) (index count : ℕ) (supply : Supply) :
    (runBatch template.generate index (count + 1) supply).1.outcome = .error (index, .render fault) ∨
      ∃ cause, (runBatch template.generate index (count + 1) supply).1.outcome =
        .error (index, .evaluation cause) := by
  have first := generate_cases template supply
  rw [runBatch]
  rcases step : template.generate supply with ⟨cause | message, left⟩
  · rw [step, flawed] at first
    rcases first with ⟨cause, failed⟩ | failed
    · cases failed
      exact Or.inr ⟨cause, rfl⟩
    · cases failed
      exact Or.inl rfl
  · rw [step, flawed] at first
    rcases first with ⟨cause, failed⟩ | failed
    · cases failed
    · cases failed

theorem produce_flawless (flawless : flaw? stream.template = none)
    (supplied : ¬Exhausted (stream.produce verbose supply).1) :
    ∃ messages, (stream.produce verbose supply).1.outcome = .ok messages := by
  rcases runBatch_flawless flawless 0 stream.batchSize supply with ⟨messages, whole⟩ | ⟨reached, cause, stopped⟩
  · exact ⟨messages, by simp only [Stream.produce, whole]; rfl⟩
  · refine absurd ⟨stream.name, reached, cause, ?_⟩ supplied
    simp only [Stream.produce, stopped]
    rfl

theorem produce_flawed (flawed : flaw? stream.template = some fault) (positive : 0 < stream.batchSize)
    (supplied : ¬Exhausted (stream.produce verbose supply).1) :
    (stream.produce verbose supply).1.outcome = .error (.generation stream.name 0 (.render fault)) := by
  obtain ⟨count, more⟩ := Nat.exists_eq_add_one.mpr positive
  rcases runBatch_flawed flawed 0 count supply with stopped | ⟨cause, stopped⟩
  · simp only [Stream.produce, more, stopped]
    rfl
  · refine absurd ⟨stream.name, 0, cause, ?_⟩ supplied
    simp only [Stream.produce, more, stopped]
    rfl

/-- A batch that a stream asks for: its topic, its number of messages, and each of them the
body filled with substitutions as they were evaluated. -/
structure Serves (stream : Stream) (batch : Batch) : Prop where
  topic : batch.topic = stream.topic
  length : batch.messages.length = stream.batchSize
  rendered : ∀ message ∈ batch.messages, ∃ clock source values,
    (evaluate clock stream.template.substitution source).1 = .ok values ∧
      render stream.template.body values = .ok message

/-- What a stream comes to in a push whose sink takes everything. -/
structure Resolved (entry : Stream × Production) : Prop where
  failure : streamFailure? .accepting entry =
    (flaw? entry.1.template).map fun fault => .generation entry.1.name 0 (.render fault)
  flawless : flaw? entry.1.template = none →
    ∃ batch, streamBatch? .accepting entry = some batch ∧ Serves entry.1 batch
  flawed : flaw? entry.1.template ≠ none → streamBatch? .accepting entry = none

theorem resolved_produce (positive : 0 < stream.batchSize)
    (supplied : ¬Exhausted (stream.produce verbose supply).1) :
    Resolved (stream, (stream.produce verbose supply).1) := by
  cases flaw : flaw? stream.template with
  | none =>
    obtain ⟨messages, produced⟩ := produce_flawless flaw supplied
    obtain ⟨length, rendered⟩ := produce_rendered produced
    refine ⟨?_, fun _ => ⟨⟨stream.topic, messages⟩, ?_, rfl, length, rendered⟩,
      fun flawed => absurd flaw flawed⟩
    · simp only [streamFailure?, failure?, produced, flaw]
      rfl
    · simp only [streamBatch?, delivered?, produced]
      rfl
  | some fault =>
    have stopped := produce_flawed flaw positive supplied
    refine ⟨?_, fun flawless => ?_, fun _ => ?_⟩
    · simp only [streamFailure?, failure?, stopped, flaw, Option.map_some]
    · rw [flaw] at flawless
      cases flawless
    · simp only [streamBatch?, delivered?, stopped]

def flawless (streams : List Stream) : List Stream :=
  streams.filter fun stream => (flaw? stream.template).isNone

theorem serves_filterMap {productions : List (Stream × Production)}
    (resolved : ∀ entry ∈ productions, Resolved entry) :
    List.Forall₂ Serves (flawless (productions.map Prod.fst))
      (productions.filterMap (streamBatch? .accepting)) := by
  induction productions with
  | nil => exact .nil
  | cons entry productions ih =>
    obtain ⟨first, others⟩ := List.forall_mem_cons.mp resolved
    rw [flawless] at ih ⊢
    cases flaw : flaw? entry.1.template with
    | none =>
      obtain ⟨batch, delivered, serves⟩ := first.flawless flaw
      simpa [List.filterMap_cons, delivered, flaw] using ⟨serves, ih others⟩
    | some fault =>
      have nothing := first.flawed (by simp [flaw])
      simpa [List.filterMap_cons, nothing, flaw] using ih others

/-- The source lasts for all messages of a push. -/
def Supplied (verbose : Bool) (streams : List Stream) (supply : Supply) : Prop :=
  ∀ entry ∈ (produceAll verbose streams supply).1, ¬Exhausted entry.2

theorem produceAll_resolved (positive : ∀ stream ∈ streams, 0 < stream.batchSize)
    (supplied : Supplied verbose streams supply) :
    ∀ entry ∈ (produceAll verbose streams supply).1, Resolved entry := by
  obtain ⟨same, produced⟩ := produceAll_produced verbose streams supply
  rintro ⟨stream, production⟩ member
  have enough := supplied _ member
  obtain ⟨reached, whole⟩ := produced _ member
  dsimp only at whole enough
  subst whole
  have listed : stream ∈ streams := by
    rw [← same]
    exact List.mem_map_of_mem member
  exact resolved_produce (positive stream listed) enough

/-- One whole batch of each stream without a flaw is printed, in some order, and nothing else. -/
def Prints (streams : List Stream) (output : List Char) : Prop :=
  ∃ batches assigned : List Batch, output = batches.flatMap Batch.printed ∧
    batches.Perm assigned ∧ List.Forall₂ Serves (flawless streams) assigned

/-- What a single push of streams leaves, if the source lasts. -/
structure Pushed (streams : List Stream) (outcome : Outcome) : Prop where
  /-- A stream has a flaw exactly if whatever it evaluates cannot be rendered. -/
  flaws : ∀ stream ∈ streams, ∀ clock source values,
    (evaluate clock stream.template.substitution source).1 = .ok values →
      fault? (render stream.template.body values) = flaw? stream.template
  printed : Prints streams outcome.output
  success : outcome.code = 0 ↔ ∀ stream ∈ streams, flaw? stream.template = none
  silent : outcome.code = 0 → outcome.errors = ""
  failed : outcome.code ≠ 0 → outcome.code = 1 ∧
    ∃ stream ∈ streams, ∃ fault, flaw? stream.template = some fault ∧
      outcome.errors = "Error: " ++ chainText ("Failed to push messages" ::
        (StreamFault.generation stream.name 0 (.render fault)).chain) ++ "\n"

/-- A push that prints fails with the flaw of a stream, if there is one. -/
theorem push_resolved (positive : ∀ stream ∈ streams, 0 < stream.batchSize)
    (supplied : Supplied verbose streams supply) (order : List ℕ) :
    Prints streams (Delivery.push .accepting verbose streams order supply).1.printed ∧
    ((Delivery.push .accepting verbose streams order supply).1.fault = none ↔
      ∀ stream ∈ streams, flaw? stream.template = none) ∧
    ∀ failure, (Delivery.push .accepting verbose streams order supply).1.fault = some failure →
      ∃ stream ∈ streams, ∃ fault, flaw? stream.template = some fault ∧
        failure = .generation stream.name 0 (.render fault) := by
  have resolved := produceAll_resolved positive supplied
  have same := (produceAll_produced verbose streams supply).1
  have batches := push_batches .accepting verbose streams order supply
  have serves := serves_filterMap resolved
  rw [same] at serves
  obtain ⟨told, untold⟩ := push_fault .accepting verbose streams order supply
  have flawed : ∀ failure, (Delivery.push .accepting verbose streams order supply).1.fault = some failure →
      ∃ stream ∈ streams, ∃ fault, flaw? stream.template = some fault ∧
        failure = .generation stream.name 0 (.render fault) := by
    intro failure failed
    obtain ⟨entry, inside, failed⟩ := told failure failed
    rw [(resolved entry inside).failure] at failed
    obtain ⟨flaw, flawed, rfl⟩ := Option.map_eq_some_iff.mp failed
    exact ⟨entry.1, same ▸ List.mem_map_of_mem inside, flaw, flawed, rfl⟩
  refine ⟨⟨_, _, rfl, batches, serves⟩, ⟨fun passed stream member => ?_, fun sound => ?_⟩, flawed⟩
  · rw [← same] at member
    obtain ⟨entry, inside, rfl⟩ := List.mem_map.mp member
    have passed := untold passed entry inside
    rw [(resolved entry inside).failure] at passed
    exact Option.map_eq_none_iff.mp passed
  · by_contra failed
    obtain ⟨failure, failed⟩ := Option.ne_none_iff_exists'.mp failed
    obtain ⟨stream, member, fault, flaw, -⟩ := flawed failure failed
    rw [sound stream member] at flaw
    cases flaw

theorem runOnce_pushed {schedule : Option Config.Schedule}
    (positive : ∀ stream ∈ streams, 0 < stream.batchSize)
    (supplied : Supplied verbose streams supply) (order : List ℕ) :
    Pushed streams (Job.runOnce ⟨streams, .accepting, verbose, schedule⟩ order supply) := by
  obtain ⟨prints, passes, fails⟩ := push_resolved positive supplied order
  cases fault : (Delivery.push .accepting verbose streams order supply).1.fault with
  | none =>
    have sound := passes.mp fault
    simp only [Job.runOnce, Job.settle, Job.push, fault]
    exact {
      flaws := fun _ _ _ _ _ => render_flaw
      printed := prints
      success := ⟨fun _ => sound, fun _ => rfl⟩
      silent := fun _ => rfl
      failed := fun failed => absurd rfl failed }
  | some failure =>
    obtain ⟨stream, member, flaw, flawed, rfl⟩ := fails failure fault
    have flawless : ¬∀ stream ∈ streams, flaw? stream.template = none := by
      intro sound
      rw [sound stream member] at flawed
      cases flawed
    simp only [Job.runOnce, Job.settle, Job.push, fault]
    exact {
      flaws := fun _ _ _ _ _ => render_flaw
      printed := prints
      success := ⟨(nomatch ·), fun sound => absurd sound flawless⟩
      silent := (nomatch ·)
      failed := fun _ => ⟨rfl, stream, member, flaw, flawed, rfl⟩ }

variable {arguments : List String} {circumstances : Circumstances} {transport : Transport} {options : Options}
  {read other : Files.Reader} {path : String} {config : Config}

/-- What a dry run that pushes once makes of the settings at a path. -/
def courseOf (circumstances : Circumstances) (path : String) : Outcome :=
  match Config.load circumstances.read path with
  | .error fault => (Failure.config fault).outcome []
  | .ok config =>
    match Stream.loadAll circumstances.read config.payloads with
    | .error fault => (Failure.startup fault).outcome []
    | .ok streams => Job.runOnce ⟨streams, .accepting, config.logging.verbose, none⟩
        (circumstances.orders 0) circumstances.supply

private theorem filter_schedule (single : options.once = true ∨ config.scheduleEnabled = false) :
    (config.schedule.filter fun schedule => schedule.enabled && !options.once) = none := by
  cases found : config.schedule with
  | none => rfl
  | some schedule =>
    rcases single with once | disabled
    · simp [once]
    · have idle : schedule.enabled = false := by simpa [Config.scheduleEnabled, found] using disabled
      simp [idle]

theorem run_courseOf (asked : readOptions arguments circumstances.environment = .ok options)
    (dry : options.dryRun = true)
    (single : options.once = true ∨ ∀ config,
      Config.load circumstances.read options.configPath = .ok config → config.scheduleEnabled = false) :
    run arguments circumstances transport = courseOf circumstances options.configPath := by
  rw [run, asked, courseOf]
  dsimp only
  rw [prepare]
  cases loaded : Config.load circumstances.read options.configPath with
  | error fault => rfl
  | ok config =>
    have unscheduled := filter_schedule (single.imp_right fun disabled => disabled config loaded)
    simp only [openSink, dry, if_true, Except.mapError, bind, Except.bind]
    cases Stream.loadAll circumstances.read config.payloads with
    | error fault => rfl
    | ok streams =>
      simp only [unscheduled]
      rfl

/-- Other files differ in the settings at a path, which have a schedule that is not enabled, or
none, in place of theirs. -/
structure Unscheduled (path : String) (read other : Files.Reader) : Prop where
  settings : ∃ text draft text' schedule,
    read.text path = .ok text ∧ Config.Draft.ofText text = .ok draft ∧
    other.text path = .ok text' ∧ Config.Draft.ofText text' = .ok { draft with schedule } ∧
    ∀ found ∈ schedule, found.enabled = false
  templates : ∀ config, Config.load read path = .ok config → ∀ payload ∈ config.payloads,
    Template.load other payload.templatePath = Template.load read payload.templatePath

theorem Unscheduled.load (unscheduled : Unscheduled path read other) :
    ∃ schedule : Option Config.Schedule, (∀ found ∈ schedule, found.enabled = false) ∧
      Config.load other path = (Config.load read path).map fun config => { config with schedule } := by
  obtain ⟨text, draft, text', schedule, known, parsed, known', parsed', disabled⟩ := unscheduled.settings
  refine ⟨schedule.map (·.withDefaults), ?_, ?_⟩
  · intro found member
    obtain ⟨written, same, rfl⟩ := Option.map_eq_some_iff.mp member
    have idle := disabled written same
    simp [Config.Schedule.withDefaults, idle]
  · rw [load_of_text known parsed, load_of_text known' parsed', accept_schedule]
    cases draft.accept <;> rfl

theorem Unscheduled.idle (unscheduled : Unscheduled path read other) :
    ∀ config, Config.load other path = .ok config → config.scheduleEnabled = false := by
  obtain ⟨schedule, disabled, same⟩ := unscheduled.load
  intro config loaded
  rw [same] at loaded
  obtain ⟨whole, -, rfl⟩ := of_map loaded
  cases schedule with
  | none => rfl
  | some written => simpa [Config.scheduleEnabled] using disabled written rfl

theorem Unscheduled.courseOf (unscheduled : Unscheduled path circumstances.read other) :
    courseOf { circumstances with read := other } path = courseOf circumstances path := by
  obtain ⟨schedule, -, same⟩ := unscheduled.load
  simp only [SingleRuns.courseOf, same]
  cases loaded : Config.load circumstances.read path with
  | error fault => rfl
  | ok config =>
    have templates := loadAll_congr (unscheduled.templates config loaded)
    simp only [Except.map, templates]

/-- What a dry run leaves that pushes once. -/
structure SingleRun (circumstances : Circumstances) (transport : Transport) (options : Options)
    (outcome : Outcome) : Prop where
  rejected : ∀ fault, Config.load circumstances.read options.configPath = .error fault →
    outcome = ⟨1, [], "Error: " ++ fault.message ++ "\n"⟩
  unloaded : ∀ config, Config.load circumstances.read options.configPath = .ok config →
    (∃ payload ∈ config.payloads, ¬Loads circumstances.read payload) →
    ∃ payload fault, FirstUnloaded circumstances.read config.payloads payload fault ∧
      outcome = ⟨1, [], "Error: " ++
        chainText (StartupFault.chain ⟨payload.name, payload.templatePath, fault⟩) ++ "\n"⟩
  pushed : ∀ config, Config.load circumstances.read options.configPath = .ok config →
    (∀ payload ∈ config.payloads, Loads circumstances.read payload) →
    ∃ streams, List.Forall₂ (Loaded circumstances.read) config.payloads streams ∧
      (Supplied config.logging.verbose streams circumstances.supply → Pushed streams outcome)
  /-- The run is that of any settings that have no schedule or one that is not enabled. -/
  unscheduled : ∀ arguments options' other,
    readOptions arguments circumstances.environment = .ok options' → options'.dryRun = true →
    options'.configPath = options.configPath → Unscheduled options.configPath circumstances.read other →
    run arguments { circumstances with read := other } transport = outcome

/-- Settings with two payloads, one of which cannot be rendered. -/
def sampleText (schedule : String) : String :=
  "kafka: \x7bbrokers: [b], topic: t\x7d\npayloads: [\x7btemplate_path: a.json, batch_size: 2\x7d, " ++
    "\x7btemplate_path: b.json\x7d]\n" ++ schedule

def sampleSchedule : String := "scheduler: \x7benabled: true\x7d\n"

def sampleDraft (schedule : Option Config.Schedule) : Config.Draft where
  kafka := ⟨["b"], "t", "", -1, .ofSeconds 10, 100, false⟩
  schedule := schedule
  logging := .default
  payloads := [⟨"", "a.json", 2, ""⟩, ⟨"", "b.json", 1, ""⟩]
  payload := none

def sampleFiles (schedule : String) : Files.Reader := fun path =>
  let contents := [("config.yaml", sampleText schedule),
    ("a.json", "[\x7b\"n\":\"\x7b\x7b@rnd|1\x7d\x7d\"\x7d,\x7b\"a\":\"\x7b\x7b.n\x7d\x7d\"\x7d]"),
    ("b.json", "[\x7b\x7d,\x7b\"b\":\"\x7b\x7b.m\x7d\x7d\"\x7d]")]
  match contents.lookup path with
  | some content => .ok (Text.Utf8.encode content.toList)
  | none => .error .notFound

def sample (schedule : String) : Circumstances :=
  ⟨none, sampleFiles schedule, ⟨⟨List.replicate 16 3⟩, fun _ _ => ⟨0, 0⟩⟩, fun _ => [1, 0, 1], 2⟩

private theorem sample_text (schedule : String) :
    (sample schedule).read.text "config.yaml" = .ok (sampleText schedule).toList := text_of_bytes rfl

private theorem sample_enabled :
    Config.Draft.ofText (sampleText sampleSchedule).toList =
      .ok (sampleDraft (some ⟨true, Config.defaultInterval, 1⟩)) := by decide +kernel

private theorem sample_absent :
    Config.Draft.ofText (sampleText "").toList = .ok (sampleDraft none) := by decide +kernel

private theorem sample_unscheduled :
    Unscheduled "config.yaml" (sample sampleSchedule).read (sample "").read where
  settings := ⟨_, _, _, none, sample_text _, sample_enabled, sample_text _, sample_absent, nofun⟩
  templates := by
    intro config loaded payload member
    rw [accept_ok (accept_of_load (sample_text _) sample_enabled loaded)] at member
    have paths : payload.templatePath = "a.json" ∨ payload.templatePath = "b.json" := by
      have listed := List.mem_map_of_mem (f := (·.templatePath)) member
      simpa [sampleDraft, Config.withDefaults, Config.Draft.folded, Config.Payload.withDefaults]
        using listed
    have same : (sample "").read payload.templatePath =
        (sample sampleSchedule).read payload.templatePath := by
      rcases paths with path | path
      · rw [path]; rfl
      · rw [path]; rfl
    rw [Template.load, Template.load, same]

/-- The other payload's batch is printed all the same, once. -/
def sampleOutcome : Outcome := ⟨1, "\x7b\"a\":\"3\"\x7d\n\x7b\"a\":\"3\"\x7d\n".toList,
  "Error: Failed to push messages: Failed to generate message 0 for 'b': " ++
  "Failed to render template: Placeholder references unknown substitution key: m: " ++
  "Placeholder references unknown substitution key: m\n"⟩

private theorem sample_asked (schedule : String) :
    readOptions ["--once", "--dry-run", "-cconfig.yaml"] (sample schedule).environment =
      .ok ⟨"config.yaml", true, true⟩ := rfl

private theorem sample_course :
    courseOf (sample sampleSchedule) "config.yaml" = sampleOutcome := by
  rw [courseOf, load_of_text (sample_text _) sample_enabled]
  decide +kernel

end MessagePress.Proofs.SingleRuns
