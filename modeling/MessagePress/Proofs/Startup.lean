import Mathlib.Data.List.Basic
import MessagePress.Config.Load
import MessagePress.Delivery.Stream
import MessagePress.Proofs.PartialRuns
import MessagePress.Proofs.Utf8Coding

/-! What a run starts from. The settings do not depend on their schedule but for the schedule
itself, every payload of theirs asks for messages, and either all of its templates are loaded
or the first that is not fails the start. -/

namespace MessagePress.Proofs.Startup
open Delivery PartialRuns

variable {read other : Files.Reader} {path : String} {text : List Char} {draft : Config.Draft}
  {config : Config} {payload : Config.Payload} {payloads : List Config.Payload}

theorem countOr_pos {default' : ℕ} (positive : 0 < default') (count : ℕ) :
    0 < Config.countOr default' count := by
  unfold Config.countOr
  split <;> omega

theorem withDefaults_batchSize (config : Config) :
    ∀ payload ∈ config.withDefaults.payloads, 0 < payload.batchSize := by
  intro payload member
  obtain ⟨position, inside, rfl⟩ := List.mem_mapIdx.mp member
  exact countOr_pos (by decide) _

theorem accept_ok (accepted : draft.accept = .ok config) : config = draft.folded.withDefaults := by
  unfold Config.Draft.accept at accepted
  dsimp only at accepted
  split at accepted
  · cases accepted
  · cases accepted
    rfl

/-- Whether settings can be used does not depend on their schedule. -/
theorem accept_schedule (draft : Config.Draft) (schedule : Option Config.Schedule) :
    { draft with schedule }.accept =
      draft.accept.map fun config => { config with schedule := schedule.map (·.withDefaults) } := by
  have same : { draft with schedule }.folded.withDefaults.violation? =
      draft.folded.withDefaults.violation? := rfl
  simp only [Config.Draft.accept, same]
  cases draft.folded.withDefaults.violation? <;> rfl

theorem text_of_bytes (known : read path = .ok (Text.Utf8.encode text)) : read.text path = .ok text := by
  simp only [Files.Reader.text, known, bind, Except.bind, Utf8Coding.decode?_encode]
  rfl

theorem load_of_text (known : read.text path = .ok text)
    (parsed : Config.Draft.ofText text = .ok draft) :
    Config.load read path = (draft.accept.mapError .violates).mapError (.invalid path) := by
  rw [Config.load, known]
  change (Config.ofText text).mapError _ = _
  rw [Config.ofText, parsed]
  rfl

theorem accept_of_load (known : read.text path = .ok text)
    (parsed : Config.Draft.ofText text = .ok draft) (loaded : Config.load read path = .ok config) :
    draft.accept = .ok config := by
  rw [load_of_text known parsed] at loaded
  exact of_mapError (of_mapError loaded)

theorem load_ok (loaded : Config.load read path = .ok config) :
    ∃ text draft, Config.Draft.ofText text = .ok draft ∧ draft.accept = .ok config := by
  obtain ⟨text, -, read⟩ := of_bind loaded
  obtain ⟨draft, parsed, accepted⟩ := of_bind (of_mapError read)
  exact ⟨text, draft, of_mapError parsed, of_mapError accepted⟩

theorem load_batchSize (loaded : Config.load read path = .ok config) :
    ∀ payload ∈ config.payloads, 0 < payload.batchSize := by
  obtain ⟨text, draft, -, accepted⟩ := load_ok loaded
  rw [accept_ok accepted]
  exact withDefaults_batchSize draft.folded

def Loads (read : Files.Reader) (payload : Config.Payload) : Prop :=
  ∃ template, Template.load read payload.templatePath = .ok template

/-- The stream of a payload whose template is loaded. -/
def Loaded (read : Files.Reader) (payload : Config.Payload) (stream : Stream) : Prop :=
  ∃ template, Template.load read payload.templatePath = .ok template ∧
    stream = ⟨payload.name, payload.topic, payload.batchSize, template⟩

theorem loadAll_cons_ok {template : Template}
    (loaded : Template.load read payload.templatePath = .ok template) :
    Stream.loadAll read (payload :: payloads) = (Stream.loadAll read payloads).map
      (⟨payload.name, payload.topic, payload.batchSize, template⟩ :: ·) := by
  have first : Stream.load read payload =
      .ok ⟨payload.name, payload.topic, payload.batchSize, template⟩ := by
    rw [Stream.load, loaded]
    rfl
  rw [Stream.loadAll, List.mapM_cons, first, Stream.loadAll]
  cases List.mapM (Stream.load read) payloads <;> rfl

theorem loadAll_cons_error {fault : Template.LoadFault}
    (failed : Template.load read payload.templatePath = .error fault) :
    Stream.loadAll read (payload :: payloads) = .error ⟨payload.name, payload.templatePath, fault⟩ := by
  have first : Stream.load read payload =
      .error ⟨payload.name, payload.templatePath, fault⟩ := by
    rw [Stream.load, failed]
    rfl
  rw [Stream.loadAll, List.mapM_cons, first]
  rfl

/-- The first payload whose template cannot be loaded, and why. -/
structure FirstUnloaded (read : Files.Reader) (payloads : List Config.Payload)
    (payload : Config.Payload) (fault : Template.LoadFault) : Prop where
  first : ∃ before after, payloads = before ++ payload :: after ∧ ∀ earlier ∈ before, Loads read earlier
  failed : Template.load read payload.templatePath = .error fault

theorem loadAll_cases (read : Files.Reader) (payloads : List Config.Payload) :
    (∃ streams, List.Forall₂ (Loaded read) payloads streams ∧
      Stream.loadAll read payloads = .ok streams) ∨
    ∃ payload fault, FirstUnloaded read payloads payload fault ∧
      Stream.loadAll read payloads = .error ⟨payload.name, payload.templatePath, fault⟩ := by
  induction payloads with
  | nil => exact Or.inl ⟨[], .nil, rfl⟩
  | cons payload payloads ih =>
    cases loaded : Template.load read payload.templatePath with
    | error fault =>
      have first : FirstUnloaded read (payload :: payloads) payload fault :=
        ⟨⟨[], payloads, rfl, fun earlier member => nomatch member⟩, loaded⟩
      exact Or.inr ⟨payload, fault, first, loadAll_cons_error loaded⟩
    | ok template =>
      rcases ih with ⟨streams, matched, whole⟩ | ⟨failing, fault, unloaded, stopped⟩
      · refine Or.inl ⟨_ :: streams, .cons ⟨template, loaded, rfl⟩ matched, ?_⟩
        rw [loadAll_cons_ok loaded, whole]
        rfl
      · obtain ⟨before, after, rfl, earlier⟩ := unloaded.first
        refine Or.inr ⟨failing, fault, ⟨⟨payload :: before, after, rfl, ?_⟩, unloaded.failed⟩, ?_⟩
        · exact List.forall_mem_cons.mpr ⟨⟨template, loaded⟩, earlier⟩
        · rw [loadAll_cons_ok loaded, stopped]
          rfl

theorem FirstUnloaded.member {fault : Template.LoadFault}
    (unloaded : FirstUnloaded read payloads payload fault) : payload ∈ payloads := by
  obtain ⟨before, after, rfl, -⟩ := unloaded.first
  simp

theorem loads_of_forall₂ {streams : List Stream}
    (matched : List.Forall₂ (Loaded read) payloads streams) : ∀ payload ∈ payloads, Loads read payload := by
  induction matched with
  | nil => exact fun payload member => nomatch member
  | cons loaded _ ih =>
    obtain ⟨template, loaded, -⟩ := loaded
    exact List.forall_mem_cons.mpr ⟨⟨template, loaded⟩, ih⟩

theorem batchSize_of_forall₂ {streams : List Stream}
    (matched : List.Forall₂ (Loaded read) payloads streams)
    (positive : ∀ payload ∈ payloads, 0 < payload.batchSize) :
    ∀ stream ∈ streams, 0 < stream.batchSize := by
  induction matched with
  | nil => exact fun stream member => nomatch member
  | cons loaded _ ih =>
    obtain ⟨template, -, rfl⟩ := loaded
    obtain ⟨first, others⟩ := List.forall_mem_cons.mp positive
    exact List.forall_mem_cons.mpr ⟨first, ih others⟩

theorem loadAll_congr (same : ∀ payload ∈ payloads,
      Template.load other payload.templatePath = Template.load read payload.templatePath) :
    Stream.loadAll other payloads = Stream.loadAll read payloads := by
  induction payloads with
  | nil => rfl
  | cons payload payloads ih =>
    obtain ⟨first, others⟩ := List.forall_mem_cons.mp same
    cases loaded : Template.load read payload.templatePath with
    | error fault => rw [loadAll_cons_error loaded, loadAll_cons_error (first.trans loaded)]
    | ok template => rw [loadAll_cons_ok loaded, loadAll_cons_ok (first.trans loaded), ih others]

end MessagePress.Proofs.Startup
