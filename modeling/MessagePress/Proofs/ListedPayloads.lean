import MessagePress.Proofs.AcceptedSettings
import MessagePress.Proofs.AlikeDocuments

/-! A payload that stands apart and the others. Settings come out the same, with the same names,
topics and order, and are refused for the same reason, whether the payload stands apart or at the
head of the list; and moving it there in a document moves it there in what is read. -/

namespace MessagePress.Proofs.ListedPayloads
open Config Yaml WrittenSettings WrittenEntries AlikeDocuments PartialRuns
open AcceptedSettings (ofText_parsed)

/-- The same settings with their payload at the head of the list. -/
def listed (draft : Draft) (payload : Payload) : Draft :=
  { draft with payloads := payload :: draft.payloads, payload := none }

/-- The same settings from both texts, or the same reason against them, also where the texts are
those of a file. -/
structure SameSettings (text other : List Char) : Prop where
  settings : Config.ofText other = Config.ofText text
  loaded : ∀ (read read' : Files.Reader) path, read.text path = .ok text → read'.text path = .ok other →
    Config.load read' path = Config.load read path

def listItems (environment : Environment) (list? : Option Node) : List Node :=
  list?.elim [] (itemsOf environment)

/-- The second document has what stands apart in the first at the head of its list, and is the same
in all else that matters. -/
structure Moved (text other : List Char) : Prop where
  kept : ∀ name ∈ ["kafka", "scheduler", "logging"], Option.Rel (Alike (around text) (around other))
    ((rootEntries text).lookup name) ((rootEntries other).lookup name)
  gone : (rootEntries other).lookup "payload" = none
  moved : ∃ block list, (rootEntries text).lookup "payload" = some block ∧
    (rootEntries other).lookup "payloads" = some list ∧
    List.Forall₂ (Alike (around text) (around other))
      (block :: listItems (around text) ((rootEntries text).lookup "payloads"))
      (itemsOf (around other) list)

/-- Compares two documents down to a depth. -/
def movedWithin (depth : ℕ) (text other : List Char) : Bool :=
  let entries := rootEntries text
  let entries' := rootEntries other
  (["kafka", "scheduler", "logging"].all fun name =>
    match entries.lookup name, entries'.lookup name with
    | none, none => true
    | some one, some node => alikeWithin (around text) (around other) depth one node
    | _, _ => false) &&
  (entries'.lookup "payload").isNone &&
  match entries.lookup "payload", entries'.lookup "payloads" with
  | some block, some list => decide (List.Forall₂
      (fun one node => alikeWithin (around text) (around other) depth one node = true)
      (block :: listItems (around text) (entries.lookup "payloads")) (itemsOf (around other) list))
  | _, _ => false

variable {text other : List Char} {draft : Draft} {payload : Payload}

theorem moved_of_within {depth : ℕ} (within : movedWithin depth text other = true) :
    Moved text other := by
  simp only [movedWithin, Bool.and_eq_true, List.all_eq_true, Option.isNone_iff_eq_none] at within
  obtain ⟨⟨kept, gone⟩, moved⟩ := within
  refine ⟨fun name listed => ?_, gone, ?_⟩
  · have same := kept name listed
    split at same
    next here there => rw [here, there]; exact .none
    next here there => rw [here, there]; exact .some (alike_of_within same)
    next => cases same
  · split at moved
    next block list here there =>
      have items := of_decide_eq_true moved
      exact ⟨block, list, here, there, items.imp fun _ _ same => alike_of_within same⟩
    next => cases moved

theorem folded_listed (apart : draft.payload = some payload) :
    (listed draft payload).folded = draft.folded := by
  rw [Draft.folded, Draft.folded, apart]
  rfl

theorem sameSettings_of_listed (parsed : Draft.ofText text = .ok draft)
    (apart : draft.payload = some payload)
    (rewritten : Draft.ofText other = .ok (listed draft payload)) : SameSettings text other := by
  have settings : Config.ofText other = Config.ofText text := by
    rw [ofText_parsed rewritten, ofText_parsed parsed, folded_listed apart]
  refine ⟨settings, fun read read' path found found' => ?_⟩
  rw [Config.load, Config.load, found, found']
  exact congrArg (Except.mapError (LoadFault.invalid path)) settings

def WritesPayload (environment : Environment) (node : Node) (payload : WrittenPayload) : Prop :=
  PayloadEntries environment (entriesOf environment node) payload.fields

theorem items_written {environment : Environment} {list? : Option Node}
    {payloads? : Option (List WrittenPayload)}
    (field : Option.Rel (PayloadItems environment) list? payloads?) :
    List.Forall₂ (WritesPayload environment) (listItems environment list?) (payloads?.getD []) := by
  cases field with
  | some each => exact each
  | none => exact .nil

theorem block_written {environment : Environment} {block : Node} {first : WrittenPayload}
    {payload?? : Option (Option WrittenPayload)}
    (field : Option.Rel (fun node => OptionalSection environment
      (fun entries payload => PayloadEntries environment entries payload.fields) (some node))
      (some block) payload??) (apart : payload??.join = some first) :
    ∃ standing, standing? environment block = some standing ∧
      PayloadEntries environment (entriesOf environment standing) first.fields := by
  cases field with
  | some written =>
    cases written with
    | none => cases apart
    | given stands holds =>
      cases apart
      exact ⟨_, stands, holds⟩

/-- Moving the payload moves it in what is written. -/
theorem written_of_moved {written written' : Written} {first : WrittenPayload}
    (parsed : Written.ofText text = .ok written) (parsed' : Written.ofText other = .ok written')
    (moved : Moved text other) (apart : written.payload = some first) :
    written' = { written with payloads := first :: written.payloads, payload := none } := by
  obtain ⟨sections, root, kafka, schedule, logging, payloads, payload⟩ := ofText_composes parsed
  obtain ⟨sections', root', kafka', schedule', logging', payloads', payload'⟩ := ofText_composes parsed'
  have sameKafka : sections.kafka = sections'.kafka :=
    field_unique (fun _ _ _ _ alike => kafka_unique alike.entries) (moved.kept _ (by decide))
      root.known.kafka root'.known.kafka
  have sameSchedule : sections.schedule = sections'.schedule :=
    field_unique (optionally_agree fun _ _ _ _ alike => schedule_unique alike)
      (moved.kept _ (by decide)) root.schedule root'.schedule
  have sameLogging : sections.logging = sections'.logging :=
    field_unique (fun _ _ _ _ alike => logging_unique alike.entries) (moved.kept _ (by decide))
      root.known.logging root'.known.logging
  have none : sections'.payload = none := by
    have field := root'.known.payload
    rw [WrittenEntries.Field, moved.gone] at field
    cases given : sections'.payload with
    | none => rfl
    | some payload? => rw [given] at field; cases field
  obtain ⟨block, list, found, found', items⟩ := moved.moved
  have longer : first :: written.payloads = written'.payloads := by
    have blockField := root.known.payload
    have listField := root'.known.payloads
    rw [WrittenEntries.Field, found] at blockField
    rw [WrittenEntries.Field, found'] at listField
    obtain ⟨standing, stands, holds⟩ := block_written blockField (payload.trans apart)
    have earlier := items_written root.known.payloads
    have each' := items_written listField
    rw [payloads] at earlier
    rw [payloads'] at each'
    have agree : Agree (around text) (around other) (WritesPayload (around text))
        (WritesPayload (around other)) := fun _ _ _ _ alike => payload_unique alike.entries
    refine items_unique agree items (.cons ?_ earlier) each'
    obtain ⟨node, nodes, alike, -, -⟩ := List.forall₂_cons_left_iff.mp items
    rw [WritesPayload, ← alike.entries_left stands]
    exact holds
  rw [none] at payload'
  rw [← sameKafka, kafka] at kafka'
  rw [← sameSchedule, schedule] at schedule'
  rw [← sameLogging, logging] at logging'
  cases written'
  exact Written.mk.injEq .. ▸
    ⟨Option.some.inj kafka'.symm, schedule'.symm, logging'.symm, longer.symm, payload'.symm⟩

theorem draft_written (parsed : Draft.ofText text = .ok draft) :
    ∃ written, Written.ofText text = .ok written ∧ written.draft = draft := by
  rw [ofText_eq] at parsed
  exact of_map parsed

theorem draft_of_moved {draft' : Draft} (parsed : Draft.ofText text = .ok draft)
    (apart : draft.payload = some payload) (parsed' : Draft.ofText other = .ok draft')
    (moved : Moved text other) : draft' = listed draft payload := by
  obtain ⟨written, read, rfl⟩ := draft_written parsed
  obtain ⟨written', read', rfl⟩ := draft_written parsed'
  obtain ⟨first, stands, rfl⟩ := Option.map_eq_some_iff.mp apart
  rw [written_of_moved read read' moved stands]
  rfl

/-- Settings with a payload that stands apart are those with the payload at the head of their list:
they come out the same, payloads in that order with their names and topics filled in, or are refused
for the same reason. A document where the payload is moved to the head of the list is read as these. -/
theorem apart_like_listed (parsed : Draft.ofText text = .ok draft)
    (apart : draft.payload = some payload) :
    (listed draft payload).accept = draft.accept ∧
    (∀ other, Draft.ofText other = .ok (listed draft payload) → SameSettings text other) ∧
    (∀ other draft', Draft.ofText other = .ok draft' → Moved text other →
      draft' = listed draft payload) ∧
    ∀ config, Config.ofText text = .ok config →
      config.payloads = (payload :: draft.payloads).mapIdx (Payload.withDefaults draft.kafka.topic) := by
  refine ⟨?_, fun other rewritten => sameSettings_of_listed parsed apart rewritten,
    fun other draft' parsed' moved => draft_of_moved parsed apart parsed' moved, ?_⟩
  · rw [Draft.accept, Draft.accept, folded_listed apart]
  · intro config accepted
    rw [ofText_parsed parsed] at accepted
    split at accepted
    · cases accepted
    · cases accepted
      rw [Config.withDefaults, Draft.folded, apart]
      rfl

/-- Both payloads are named by their places, and only the one that stands apart goes to the topic of
all; in the list the second gets its file by an alias. -/
theorem apart_like_listed_moved :
    let text := ("kafka: \x7bbrokers: [b], topic: t\x7d\n" ++
      "payloads: [\x7btemplate_path: .., topic: u\x7d]\npayload: \x7btemplate_path: ..\x7d").toList
    let other := ("payloads: [\x7btemplate_path: &f ..\x7d, \x7btemplate_path: *f, topic: u\x7d]\n" ++
      "kafka: \x7bbrokers: [b], topic: t\x7d").toList
    ∃ draft payload config, Draft.ofText text = .ok draft ∧ draft.payload = some payload ∧
      Moved text other ∧ Draft.ofText other = .ok (listed draft payload) ∧ SameSettings text other ∧
      Config.ofText text = .ok config ∧ Config.ofText other = .ok config ∧
      config.payloads = [⟨"payload-0", "..", 1, "t"⟩, ⟨"payload-1", "..", 1, "u"⟩] := by
  intro text other
  let payload : Payload := ⟨"", "..", 1, ""⟩
  let draft : Draft := ⟨⟨["b"], "t", "", -1, .ofSeconds 10, 100, false⟩, none, .default,
    [⟨"", "..", 1, "u"⟩], some payload⟩
  have parsed : Draft.ofText text = .ok draft := by decide +kernel
  have parsed' : Draft.ofText other = .ok (listed draft payload) := by decide +kernel
  have moved : Moved text other := moved_of_within (by decide +kernel : movedWithin 5 text other = true)
  have usable : draft.folded.withDefaults.violation? = none := by decide +kernel
  have accepted : Config.ofText text = .ok draft.folded.withDefaults := by
    rw [ofText_parsed parsed, usable]
  obtain ⟨-, same, read, payloads⟩ := apart_like_listed parsed rfl
  have again := same other parsed'
  exact ⟨draft, payload, _, parsed, rfl, moved, read other _ parsed' moved ▸ parsed', again, accepted,
    again.settings.trans accepted, (payloads _ accepted).trans (by decide +kernel)⟩

end MessagePress.Proofs.ListedPayloads
