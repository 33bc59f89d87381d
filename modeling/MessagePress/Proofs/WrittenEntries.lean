import MessagePress.Proofs.DecodedValues
import MessagePress.Proofs.WrittenSettings

/-! What settings are written as. A section is a list of names and values, and each of its fields
is read from the value behind its name: it is left out if and only if there is none. -/

namespace MessagePress.Proofs.WrittenEntries
open Config Yaml Yaml.Decode ReadValues DecodedValues WrittenSettings

variable {α β σ : Type} {environment : Environment}

/-- The node itself, or the one that an alias stands for. -/
def standing? (environment : Environment) : Node → Option Node
  | .alias _ target => environment.anchored.lookup target
  | node => some node

def text? (environment : Environment) (node : Node) : Option String :=
  match standing? environment node with
  | some (.scalar _ _ text _) => some (String.ofList text)
  | _ => none

/-- Values by their keys' texts. -/
def namedNodes (environment : Environment) : List Node → List (String × Node)
  | key :: value :: rest =>
    ((text? environment key).map fun name => (name, value)).toList ++ namedNodes environment rest
  | _ => []

/-- The entries of a section. One that is left empty has none. -/
def entriesOf (environment : Environment) (node : Node) : List (String × Node) :=
  match standing? environment node with
  | some (.mapping _ _ nodes _) => namedNodes environment nodes
  | _ => []

def itemsOf (environment : Environment) (node : Node) : List Node :=
  match standing? environment node with
  | some (.sequence _ _ nodes _) => nodes
  | _ => []

/-- A node is read as a value, wherever it stands. -/
def Reads (environment : Environment) (decoder : Located → Decode α) (node : Node) (value : α) :
    Prop :=
  ∃ path before after, decoder ⟨node, path⟩ environment before = .ok (value, after)

/-- A node is read as a value, however deep it stands. -/
def ReadsInside (environment : Environment) (decoder : ℕ → Located → Decode α) (node : Node)
    (value : α) : Prop :=
  ∃ depth, Reads environment (decoder depth) node value

theorem reads_gives (decoder : Located → Decode α) (located : Located) :
    Gives (decoder located environment) (Reads environment decoder located.node) :=
  fun before _ after finished => ⟨located.path, before, after, finished⟩

theorem readsInside_gives (decoder : ℕ → Located → Decode α) (depth : ℕ) (located : Located) :
    Gives (decoder depth located environment) (ReadsInside environment decoder located.node) :=
  fun before _ after finished => ⟨depth, located.path, before, after, finished⟩

section
variable {action : Decode α} {next : α → Decode β} {post between : α → Prop} {last : β → Prop}

theorem pure_gives {value : α} (holds : post value) :
    Gives ((pure value : Decode α) environment) post :=
  .pure holds

theorem bind_gives (given : Gives (action environment) between)
    (continued : ∀ value, between value → Gives (next value environment) last) :
    Gives ((action >>= next) environment) last :=
  .bind given continued

theorem behind_gives (continued : ∀ value, Gives (next value environment) last) :
    Gives ((action >>= next) environment) last :=
  .behind continued

end

theorem resolve_gives (located : Located) : Gives (resolve located environment) fun found =>
    standing? environment located.node = some found.node := by
  obtain ⟨node, path⟩ := located
  cases node with
  | «alias» mark target =>
    have read : Gives ((read : Decode Environment) environment) (· = environment) := .pure rfl
    refine bind_gives read fun around same => behind_gives fun jumps => behind_gives fun _ => ?_
    subst same
    split
    · exact throw_decodes _ _
    · cases found : around.anchored.lookup target with
      | none => exact failAtEnd_decodes _
      | some node => exact pure_gives found
  | void | scalar | sequence | mapping => exact .pure rfl

theorem text_gives (expected : String) (located : Located) :
    Gives (text expected located environment) fun name => text? environment located.node = some name := by
  refine bind_gives (resolve_gives located) fun ⟨node, path⟩ standing => placed_gives ?_
  split
  · exact pure_gives (by rw [text?, standing])
  · exact failType_decodes _ _ _

/-- The value behind a name is read as a field, which is left out if there is none. -/
def Field (entries : List (String × Node)) (name : String) (reads : Node → α → Prop)
    (value? : Option α) : Prop :=
  Option.Rel reads (entries.lookup name) value?

section
variable {entries : List (String × Node)} {name other : String} {reads : Node → α → Prop}
  {value? : Option α}

theorem Field.leftOut : Field [] name reads none := .none

theorem Field.behind (field : Field entries name reads value?) (different : other ≠ name)
    (node : Node) : Field (entries ++ [(other, node)]) name reads value? := by
  have apart : (name == other) = false := beq_eq_false_iff_ne.mpr different.symm
  unfold Field
  rw [List.lookup_append, List.lookup_cons, apart, List.lookup_nil, Option.or_none]
  exact field

theorem Field.set (field : Field entries name reads none) {node : Node} {value : α}
    (holds : reads node value) :
    Field (entries ++ [(name, node)]) name reads (some value) := by
  unfold Field at field ⊢
  rw [List.lookup_append, List.lookup_cons, beq_self_eq_true]
  cases before : entries.lookup name with
  | none => exact .some holds
  | some earlier => rw [before] at field; cases field

theorem once_gives {value : Decode α} {node : Node} (field : Field entries name reads value?)
    (given : Gives (value environment) (reads node)) :
    Gives (once name value? value environment) (Field (entries ++ [(name, node)]) name reads) := by
  cases value? with
  | none => exact bind_gives given fun value holds => pure_gives (field.set holds)
  | some earlier => exact failWith_decodes _ _

end

theorem readEntries_gives {path : Path} {expected : ℕ → String} {complete : Bool}
    {step : σ → String → Located → Decode σ} {holds : List (String × Node) → σ → Prop}
    (kept : ∀ entries state name value, holds entries state →
      Gives (step state name value environment) (holds (entries ++ [(name, value.node)])))
    (index : ℕ) {entries : List (String × Node)} {state : σ} (start : holds entries state)
    (nodes : List Node) :
    Gives (readEntries path expected step complete index state nodes environment)
      (holds (entries ++ namedNodes environment nodes)) := by
  induction nodes using List.twoStepInduction generalizing index entries state with
  | nil =>
    rw [readEntries]
    split
    · exact pure_gives (by simpa [namedNodes] using start)
    · exact failAtEnd_decodes _
  | singleton key =>
    rw [readEntries]
    exact behind_gives fun _ => failAtEnd_decodes _
  | cons_cons key value rest ih _ =>
    rw [readEntries]
    refine bind_gives (text_gives _ _) fun name same =>
      bind_gives (kept _ _ _ _ start) fun state known => ?_
    rw [namedNodes, same, Option.map_some, Option.toList_some, ← List.append_assoc]
    exact ih (index + 1) known

/-- A section that is read from nothing. -/
theorem mapping_gives {depth : ℕ} {expected : String} {expectedKey : ℕ → String} {state : σ}
    {step : ℕ → σ → String → Located → Decode σ} {finish : σ → Decode β}
    {holds : List (String × Node) → σ → Prop} {post : β → Prop} {located : Located}
    (kept : ∀ inner entries state name value, holds entries state →
      Gives (step inner state name value environment) (holds (entries ++ [(name, value.node)])))
    (start : holds [] state)
    (finished : ∀ state, holds (entriesOf environment located.node) state →
      Gives (finish state environment) post) :
    Gives (mapping depth expected expectedKey state step finish located environment) post := by
  refine bind_gives (resolve_gives located) fun ⟨node, path⟩ standing => placed_gives ?_
  unfold entriesOf at finished
  rw [standing] at finished
  cases node with
  | mapping mark tag nodes complete =>
    cases depth with
    | zero => exact throw_decodes _ _
    | succ inner => exact bind_gives (readEntries_gives (kept inner) 0 start _) finished
  | void | scalar | sequence | «alias» =>
    dsimp only
    split
    · exact finished state start
    · exact failType_decodes _ _ _

def decodeTexts (depth : ℕ) : Located → Decode (List String) :=
  Decode.sequence depth fun _ => decodeText

section
variable (environment : Environment) (entries : List (String × Node))

structure KafkaEntries (fields : KafkaFields) : Prop where
  brokers : Field entries "brokers" (ReadsInside environment decodeTexts) fields.brokers
  topic : Field entries "topic" (Reads environment decodeText) fields.topic
  clientId : Field entries "client_id" (Reads environment decodeText) fields.clientId
  partition : Field entries "partition" (Reads environment (Decode.signed 32 "i32"))
    fields.partition
  timeout : Field entries "timeout" (ReadsInside environment decodeDuration) fields.timeout
  batchSize : Field entries "batch_size" (Reads environment decodeCount) fields.batchSize
  asynchronous : Field entries "async" (Reads environment Decode.bool) fields.asynchronous

structure ScheduleEntries (fields : ScheduleFields) : Prop where
  enabled : Field entries "enabled" (Reads environment Decode.bool) fields.enabled
  interval : Field entries "interval" (ReadsInside environment decodeDuration) fields.interval
  workers : Field entries "worker_pool_size" (Reads environment decodeCount) fields.workers

structure LoggingEntries (fields : LoggingFields) : Prop where
  level : Field entries "level" (Reads environment decodeText) fields.level
  format : Field entries "format" (Reads environment (Decode.variant logFormats)) fields.format
  verbose : Field entries "verbose" (Reads environment Decode.bool) fields.verbose

structure PayloadEntries (fields : PayloadFields) : Prop where
  name : Field entries "name" (Reads environment decodeText) fields.name
  templatePath : Field entries "template_path" (Reads environment (Decode.text "path string"))
    fields.templatePath
  batchSize : Field entries "batch_size" (Reads environment decodeCount) fields.batchSize
  topic : Field entries "topic" (Reads environment decodeText) fields.topic

end

/-- A node that stands for no section at all. -/
def IsNone : Node → Prop
  | .void _ => True
  | .scalar _ tag text style => style = .plain ∧
    (tag = some nullTag ∧ isNull text ∨ tag = none ∧ (text = [] ∨ isNull text))
  | _ => False

/-- A section that may be left out, or be written as none. -/
inductive OptionalSection (environment : Environment) (writes : List (String × Node) → α → Prop) :
    Option Node → Option α → Prop
  | leftOut : OptionalSection environment writes none none
  | none {node standing} (stands : standing? environment node = some standing)
      (null : IsNone standing) : OptionalSection environment writes (some node) none
  | given {node standing value} (stands : standing? environment node = some standing)
      (holds : writes (entriesOf environment standing) value) :
      OptionalSection environment writes (some node) (some value)

section
variable (environment : Environment) (entries : List (String × Node))

/-- The payloads that are written as the items of a node. -/
def PayloadItems (node : Node) : List WrittenPayload → Prop :=
  List.Forall₂ (fun node payload => PayloadEntries environment (entriesOf environment node)
    payload.fields) (itemsOf environment node)

structure SectionEntries (sections : Sections) : Prop where
  kafka : Field entries "kafka" (fun node => KafkaEntries environment (entriesOf environment node))
    sections.kafka
  schedule : Field entries "scheduler"
    (fun node => OptionalSection environment (ScheduleEntries environment) (some node))
    sections.schedule
  logging : Field entries "logging"
    (fun node => LoggingEntries environment (entriesOf environment node)) sections.logging
  payloads : Field entries "payloads" (PayloadItems environment) sections.payloads
  payload : Field entries "payload"
    (fun node => OptionalSection environment
      (fun entries payload => PayloadEntries environment entries payload.fields) (some node))
    sections.payload

/-- What settings are written as, section by section. -/
structure SettingEntries (written : Written) : Prop where
  kafka : Field entries "kafka" (fun node => KafkaEntries environment (entriesOf environment node))
    (some written.kafka)
  schedule : OptionalSection environment (ScheduleEntries environment)
    (entries.lookup "scheduler") written.schedule
  logging : Field entries "logging"
    (fun node => LoggingEntries environment (entriesOf environment node)) written.logging
  payloads : (entries.lookup "payloads").elim (· = []) (PayloadItems environment) written.payloads
  payload : OptionalSection environment
    (fun entries payload => PayloadEntries environment entries payload.fields)
    (entries.lookup "payload") written.payload

end

variable {entries : List (String × Node)} {depth : ℕ}

theorem decodeKafkaField_gives {fields : KafkaFields} (name : String) (value : Located)
    (known : KafkaEntries environment entries fields) :
    Gives (decodeKafkaField depth fields name value environment)
      (KafkaEntries environment (entries ++ [(name, value.node)])) := by
  obtain ⟨brokers, topic, clientId, partition, timeout, batchSize, asynchronous⟩ := known
  unfold decodeKafkaField
  split
  · refine bind_gives (once_gives brokers (readsInside_gives decodeTexts _ _)) fun _ field =>
      pure_gives ?_
    constructor <;> first | exact field | exact Field.behind ‹_› (by decide) _
  · refine bind_gives (once_gives topic (reads_gives _ _)) fun _ field => pure_gives ?_
    constructor <;> first | exact field | exact Field.behind ‹_› (by decide) _
  · refine bind_gives (once_gives clientId (reads_gives _ _)) fun _ field => pure_gives ?_
    constructor <;> first | exact field | exact Field.behind ‹_› (by decide) _
  · refine bind_gives (once_gives partition (reads_gives _ _)) fun _ field => pure_gives ?_
    constructor <;> first | exact field | exact Field.behind ‹_› (by decide) _
  · refine bind_gives (once_gives timeout (readsInside_gives _ _ _)) fun _ field => pure_gives ?_
    constructor <;> first | exact field | exact Field.behind ‹_› (by decide) _
  · refine bind_gives (once_gives batchSize (reads_gives _ _)) fun _ field => pure_gives ?_
    constructor <;> first | exact field | exact Field.behind ‹_› (by decide) _
  · refine bind_gives (once_gives asynchronous (reads_gives _ _)) fun _ field => pure_gives ?_
    constructor <;> first | exact field | exact Field.behind ‹_› (by decide) _
  · refine behind_gives fun _ => pure_gives ?_
    constructor <;> exact Field.behind ‹_› ‹_› _

theorem decodeScheduleField_gives {fields : ScheduleFields} (name : String) (value : Located)
    (known : ScheduleEntries environment entries fields) :
    Gives (decodeScheduleField depth fields name value environment)
      (ScheduleEntries environment (entries ++ [(name, value.node)])) := by
  obtain ⟨enabled, interval, workers⟩ := known
  unfold decodeScheduleField
  split
  · refine bind_gives (once_gives enabled (reads_gives _ _)) fun _ field => pure_gives ?_
    constructor <;> first | exact field | exact Field.behind ‹_› (by decide) _
  · refine bind_gives (once_gives interval (readsInside_gives _ _ _)) fun _ field => pure_gives ?_
    constructor <;> first | exact field | exact Field.behind ‹_› (by decide) _
  · refine bind_gives (once_gives workers (reads_gives _ _)) fun _ field => pure_gives ?_
    constructor <;> first | exact field | exact Field.behind ‹_› (by decide) _
  · refine behind_gives fun _ => pure_gives ?_
    constructor <;> exact Field.behind ‹_› ‹_› _

theorem decodeLoggingField_gives {fields : LoggingFields} (name : String) (value : Located)
    (known : LoggingEntries environment entries fields) :
    Gives (decodeLoggingField depth fields name value environment)
      (LoggingEntries environment (entries ++ [(name, value.node)])) := by
  obtain ⟨level, format, verbose⟩ := known
  unfold decodeLoggingField
  split
  · refine bind_gives (once_gives level (reads_gives _ _)) fun _ field => pure_gives ?_
    constructor <;> first | exact field | exact Field.behind ‹_› (by decide) _
  · refine bind_gives (once_gives format (reads_gives _ _)) fun _ field => pure_gives ?_
    constructor <;> first | exact field | exact Field.behind ‹_› (by decide) _
  · refine bind_gives (once_gives verbose (reads_gives _ _)) fun _ field => pure_gives ?_
    constructor <;> first | exact field | exact Field.behind ‹_› (by decide) _
  · refine behind_gives fun _ => pure_gives ?_
    constructor <;> exact Field.behind ‹_› ‹_› _

theorem decodePayloadField_gives {fields : PayloadFields} (key : String) (value : Located)
    (known : PayloadEntries environment entries fields) :
    Gives (decodePayloadField depth fields key value environment)
      (PayloadEntries environment (entries ++ [(key, value.node)])) := by
  obtain ⟨name, templatePath, batchSize, topic⟩ := known
  unfold decodePayloadField
  split
  · refine bind_gives (once_gives name (reads_gives _ _)) fun _ field => pure_gives ?_
    constructor <;> first | exact field | exact Field.behind ‹_› (by decide) _
  · refine bind_gives (once_gives templatePath (reads_gives _ _)) fun _ field => pure_gives ?_
    constructor <;> first | exact field | exact Field.behind ‹_› (by decide) _
  · refine bind_gives (once_gives batchSize (reads_gives _ _)) fun _ field => pure_gives ?_
    constructor <;> first | exact field | exact Field.behind ‹_› (by decide) _
  · refine bind_gives (once_gives topic (reads_gives _ _)) fun _ field => pure_gives ?_
    constructor <;> first | exact field | exact Field.behind ‹_› (by decide) _
  · refine behind_gives fun _ => pure_gives ?_
    constructor <;> exact Field.behind ‹_› ‹_› _

theorem decodeWrittenKafka_gives (located : Located) :
    Gives (decodeWrittenKafka depth located environment)
      (KafkaEntries environment (entriesOf environment located.node)) :=
  mapping_gives (fun _ _ _ name value known => decodeKafkaField_gives name value known)
    ⟨.leftOut, .leftOut, .leftOut, .leftOut, .leftOut, .leftOut, .leftOut⟩
    fun _ known => pure_gives known

theorem decodeWrittenSchedule_gives (located : Located) :
    Gives (decodeWrittenSchedule depth located environment)
      (ScheduleEntries environment (entriesOf environment located.node)) :=
  mapping_gives (fun _ _ _ name value known => decodeScheduleField_gives name value known)
    ⟨.leftOut, .leftOut, .leftOut⟩ fun _ known => pure_gives known

theorem decodeWrittenLogging_gives (located : Located) :
    Gives (decodeWrittenLogging depth located environment)
      (LoggingEntries environment (entriesOf environment located.node)) :=
  mapping_gives (fun _ _ _ name value known => decodeLoggingField_gives name value known)
    ⟨.leftOut, .leftOut, .leftOut⟩ fun _ known => pure_gives known

theorem decodeWrittenPayload_gives (located : Located) :
    Gives (decodeWrittenPayload depth located environment) fun payload =>
      PayloadEntries environment (entriesOf environment located.node) payload.fields := by
  refine mapping_gives (fun _ _ _ name value known => decodePayloadField_gives name value known)
    ⟨.leftOut, .leftOut, .leftOut, .leftOut⟩ ?_
  rintro ⟨name, _ | templatePath, batchSize, topic⟩ known
  · exact failWith_decodes _ _
  · exact pure_gives known

theorem optional_gives {decoder : Located → Decode α} {writes : List (String × Node) → α → Prop}
    (given : ∀ located, Gives (decoder located environment)
      (writes (entriesOf environment located.node))) (located : Located) :
    Gives (Decode.optional decoder located environment)
      (OptionalSection environment writes (some located.node)) := by
  have some {found : Located} (stands : standing? environment located.node = some found.node) :
      Gives ((do return some (← decoder found) : Decode (Option α)) environment)
        (OptionalSection environment writes (some located.node)) :=
    bind_gives (given found) fun value holds => pure_gives (.given stands holds)
  have none {found : Located} (stands : standing? environment located.node = found.node)
      (null : IsNone found.node) :
      Gives ((pure none : Decode (Option α)) environment)
        (OptionalSection environment writes located.node) :=
    pure_gives (.none stands null)
  refine bind_gives (resolve_gives located) fun ⟨node, path⟩ stands => ?_
  cases node with
  | void => exact none stands trivial
  | scalar mark tag text style =>
    dsimp only
    split
    · exact some stands
    next plain =>
      have plain := not_not.mp plain
      split
      next tagged =>
        split
        next null => exact none stands ⟨plain, .inl ⟨tagged, null⟩⟩
        next => exact failWith_decodes _ _
      next =>
        split
        next untagged =>
          simp only [Bool.and_eq_true, Option.isNone_iff_eq_none, Bool.or_eq_true,
            List.isEmpty_iff] at untagged
          exact none stands ⟨plain, .inr untagged⟩
        next => exact some stands
  | sequence | mapping | «alias» => exact some stands

theorem readItems_gives {path : Path} {element : Located → Decode α} {complete : Bool}
    {reads : Node → α → Prop} (given : ∀ located, Gives (element located environment) (reads located.node))
    (index : ℕ) (nodes : List Node) :
    Gives (Decode.readItems path element complete index nodes environment)
      (List.Forall₂ reads nodes) := by
  induction nodes generalizing index with
  | nil =>
    rw [Decode.readItems]
    split
    · exact pure_gives .nil
    · exact failAtEnd_decodes _
  | cons node rest ih =>
    rw [Decode.readItems]
    exact bind_gives (given _) fun value holds => bind_gives (ih _) fun values later =>
      pure_gives (.cons holds later)

theorem sequence_gives {element : ℕ → Located → Decode α} {reads : Node → α → Prop}
    (given : ∀ inner located, Gives (element inner located environment) (reads located.node))
    (located : Located) :
    Gives (Decode.sequence depth element located environment)
      (List.Forall₂ reads (itemsOf environment located.node)) := by
  refine bind_gives (resolve_gives located) fun ⟨node, path⟩ standing => placed_gives ?_
  rw [itemsOf, standing]
  cases node with
  | sequence mark tag nodes complete =>
    cases depth with
    | zero => exact throw_decodes _ _
    | succ inner => exact readItems_gives (given inner) 0 _
  | void | scalar | mapping | «alias» =>
    dsimp only
    split
    · exact pure_gives .nil
    · exact failType_decodes _ _ _

theorem decodeSection_gives {sections : Sections} (name : String) (value : Located)
    (known : SectionEntries environment entries sections) :
    Gives (decodeSection depth sections name value environment)
      (SectionEntries environment (entries ++ [(name, value.node)])) := by
  obtain ⟨kafka, schedule, logging, payloads, payload⟩ := known
  unfold decodeSection
  split
  · refine bind_gives (once_gives kafka (decodeWrittenKafka_gives _)) fun _ field => pure_gives ?_
    constructor <;> first | exact field | exact Field.behind ‹_› (by decide) _
  · refine bind_gives (once_gives schedule (optional_gives decodeWrittenSchedule_gives _))
      fun _ field => pure_gives ?_
    constructor <;> first | exact field | exact Field.behind ‹_› (by decide) _
  · refine bind_gives (once_gives logging (decodeWrittenLogging_gives _)) fun _ field =>
      pure_gives ?_
    constructor <;> first | exact field | exact Field.behind ‹_› (by decide) _
  · refine bind_gives (once_gives payloads (sequence_gives (fun _ => decodeWrittenPayload_gives) _))
      fun _ field => pure_gives ?_
    constructor <;> first | exact field | exact Field.behind ‹_› (by decide) _
  · refine bind_gives (once_gives payload (optional_gives decodeWrittenPayload_gives _))
      fun _ field => pure_gives ?_
    constructor <;> first | exact field | exact Field.behind ‹_› (by decide) _
  · refine behind_gives fun _ => pure_gives ?_
    constructor <;> exact Field.behind ‹_› ‹_› _

/-- A section that is left out is no section either. -/
theorem join_section {node? : Option Node} {writes : List (String × Node) → α → Prop}
    {value? : Option (Option α)}
    (field : Option.Rel (fun node => OptionalSection environment writes (some node)) node? value?) :
    OptionalSection environment writes node? value?.join := by
  cases field with
  | some holds => exact holds
  | none => exact .leftOut

theorem sectionsWritten_gives {sections : Sections}
    (known : SectionEntries environment entries sections) :
    Gives (sections.written environment) (SettingEntries environment entries) := by
  obtain ⟨kafka?, schedule, logging, payloads, payload⟩ := sections
  cases kafka? with
  | none => exact failWith_decodes _ _
  | some kafka =>
    refine pure_gives ⟨known.kafka, join_section known.schedule, known.logging, ?_,
      join_section known.payload⟩
    have items : Option.Rel (PayloadItems environment) _ payloads := known.payloads
    revert items
    generalize entries.lookup "payloads" = node?
    rintro (holds | _)
    · exact holds
    · rfl

theorem decodeWritten_gives (located : Located) :
    Gives (decodeWritten located environment)
      (SettingEntries environment (entriesOf environment located.node)) :=
  mapping_gives (fun _ _ _ name value known => decodeSection_gives name value known)
    ⟨.leftOut, .leftOut, .leftOut, .leftOut, .leftOut⟩ fun _ known => sectionsWritten_gives known

/-- What is written in a text of settings: the entries of its document's root. -/
def Describes (text : List Char) (written : Written) : Prop :=
  ∃ root, (Document.ofBytes (Text.Utf8.encode text)).root = some root ∧
    let environment := surroundings (Document.ofBytes (Text.Utf8.encode text))
    SettingEntries environment (entriesOf environment root) written

theorem ofText_describes {text : List Char} {written : Written}
    (parsed : Written.ofText text = .ok written) : Describes text written :=
  root_gives (fun root found _ _ _ finished =>
    ⟨root, found, decodeWritten_gives _ _ _ _ finished⟩) parsed

end MessagePress.Proofs.WrittenEntries
