import MessagePress.Proofs.WrittenEntries

/-! Documents with the same content. Where a node stands, whether it is written out or an alias
stands for it, and what the rest of its document is, makes no difference to the settings that are
read from it. -/

namespace MessagePress.Proofs.AlikeDocuments
open Config Yaml Yaml.Decode ReadValues DecodedValues WrittenSettings WrittenEntries

/-- Nodes of two documents that are the same once aliases are followed, but for their marks. -/
inductive Alike (here there : Environment) : Node → Node → Prop
  | void {one other : Node} {mark mark' : Mark} (stands : standing? here one = some (.void mark))
      (stands' : standing? there other = some (.void mark')) : Alike here there one other
  | scalar {one other : Node} {mark mark' : Mark} {tag : Option TagBytes} {text : List Char}
      {style : ScalarStyle} (stands : standing? here one = some (.scalar mark tag text style))
      (stands' : standing? there other = some (.scalar mark' tag text style)) :
      Alike here there one other
  | sequence {one other : Node} {mark mark' : Mark} {tag : Option TagBytes}
      {nodes nodes' : List Node} {complete complete' : Bool}
      (stands : standing? here one = some (.sequence mark tag nodes complete))
      (stands' : standing? there other = some (.sequence mark' tag nodes' complete'))
      (alike : List.Forall₂ (Alike here there) nodes nodes') : Alike here there one other
  | mapping {one other : Node} {mark mark' : Mark} {tag : Option TagBytes}
      {nodes nodes' : List Node} {complete complete' : Bool}
      (stands : standing? here one = some (.mapping mark tag nodes complete))
      (stands' : standing? there other = some (.mapping mark' tag nodes' complete'))
      (alike : List.Forall₂ (Alike here there) nodes nodes') : Alike here there one other

/-- Compares nodes down to a depth. -/
def alikeWithin (here there : Environment) : ℕ → Node → Node → Bool
  | 0, _, _ => false
  | depth + 1, one, other =>
    match standing? here one, standing? there other with
    | some (.void _), some (.void _) => true
    | some (.scalar _ tag text style), some (.scalar _ tag' text' style') =>
      decide (tag = tag' ∧ text = text' ∧ style = style')
    | some (.sequence _ tag nodes _), some (.sequence _ tag' nodes' _) =>
      decide (tag = tag' ∧
        List.Forall₂ (fun one other => alikeWithin here there depth one other = true) nodes nodes')
    | some (.mapping _ tag nodes _), some (.mapping _ tag' nodes' _) =>
      decide (tag = tag' ∧
        List.Forall₂ (fun one other => alikeWithin here there depth one other = true) nodes nodes')
    | _, _ => false

variable {here there environment : Environment} {one other : Node} {α β : Type}

theorem alike_of_within {depth : ℕ} (within : alikeWithin here there depth one other = true) :
    Alike here there one other := by
  induction depth generalizing one other with
  | zero => cases within
  | succ depth ih =>
    unfold alikeWithin at within
    split at within
    next stands stands' => exact .void stands stands'
    next stands stands' =>
      obtain ⟨rfl, rfl, rfl⟩ := of_decide_eq_true within
      exact .scalar stands stands'
    next stands stands' =>
      obtain ⟨rfl, each⟩ := of_decide_eq_true within
      exact .sequence stands stands' (each.imp fun _ _ => ih)
    next stands stands' =>
      obtain ⟨rfl, each⟩ := of_decide_eq_true within
      exact .mapping stands stands' (each.imp fun _ _ => ih)
    next => cases within

theorem Alike.text? (alike : Alike here there one other) : text? here one = text? there other := by
  cases alike with
  | void stands stands' | scalar stands stands' | sequence stands stands' | mapping stands stands' =>
    rw [WrittenEntries.text?, stands, WrittenEntries.text?, stands']

theorem Alike.items (alike : Alike here there one other) :
    List.Forall₂ (Alike here there) (itemsOf here one) (itemsOf there other) := by
  cases alike with
  | sequence stands stands' alike =>
    rw [itemsOf, stands, itemsOf, stands']
    exact alike
  | void stands stands' | scalar stands stands' | mapping stands stands' =>
    rw [itemsOf, stands, itemsOf, stands']
    exact .nil

/-- The same names, with values that are alike. -/
def AlikeEntries (here there : Environment) : List (String × Node) → List (String × Node) → Prop :=
  List.Forall₂ fun entry entry' => entry.1 = entry'.1 ∧ Alike here there entry.2 entry'.2

theorem namedNodes_alike {nodes nodes' : List Node}
    (alike : List.Forall₂ (Alike here there) nodes nodes') :
    AlikeEntries here there (namedNodes here nodes) (namedNodes there nodes') := by
  induction nodes using List.twoStepInduction generalizing nodes' with
  | nil => cases alike; exact .nil
  | singleton key =>
    obtain _ | ⟨-, _ | _⟩ := alike
    exact .nil
  | cons_cons key value rest ih _ =>
    obtain _ | ⟨same, _ | ⟨alike, later⟩⟩ := alike
    rw [namedNodes, namedNodes, same.text?]
    cases WrittenEntries.text? there _ with
    | none => exact ih later
    | some name => exact .cons ⟨rfl, alike⟩ (ih later)

theorem Alike.entries (alike : Alike here there one other) :
    AlikeEntries here there (entriesOf here one) (entriesOf there other) := by
  cases alike with
  | mapping stands stands' alike =>
    rw [entriesOf, stands, entriesOf, stands']
    exact namedNodes_alike alike
  | void stands stands' | scalar stands stands' | sequence stands stands' =>
    rw [entriesOf, stands, entriesOf, stands']
    exact .nil

theorem AlikeEntries.lookup {entries entries' : List (String × Node)}
    (alike : AlikeEntries here there entries entries') (name : String) :
    Option.Rel (Alike here there) (entries.lookup name) (entries'.lookup name) := by
  induction alike with
  | nil => exact .none
  | @cons entry entry' entries entries' same later ih =>
    obtain ⟨key, node⟩ := entry
    obtain ⟨key', node'⟩ := entry'
    obtain ⟨rfl, alike⟩ : key = key' ∧ _ := same
    rw [List.lookup_cons, List.lookup_cons]
    cases name == key with
    | true => exact .some alike
    | false => exact ih

/-- Two ways of reading nodes that give the same for nodes that are alike. -/
def Agree (here there : Environment) (reads : Node → α → Prop) (reads' : Node → α → Prop) : Prop :=
  ∀ one other value value', Alike here there one other → reads one value → reads' other value' →
    value = value'

/-- Fields of one name are the same if the values behind the name are alike. -/
theorem field_unique {entries entries' : List (String × Node)} {name : String}
    {reads reads' : Node → α → Prop} {value? value?' : Option α} (agree : Agree here there reads reads')
    (alike : Option.Rel (Alike here there) (entries.lookup name) (entries'.lookup name))
    (field : WrittenEntries.Field entries name reads value?)
    (field' : WrittenEntries.Field entries' name reads' value?') : value? = value?' := by
  unfold WrittenEntries.Field at field field'
  revert alike field field'
  generalize entries.lookup name = node?, entries'.lookup name = node?'
  rintro (alike | _) (holds | _) (holds' | _)
  · rw [agree _ _ _ _ alike holds holds']
  · rfl

/-- The tag, the text and the style of a scalar. -/
def Shows (environment : Environment) (node : Node) (tag : Option TagBytes) (text : List Char)
    (style : ScalarStyle) : Prop :=
  ∃ mark, standing? environment node = some (.scalar mark tag text style)

theorem Shows.unique {tag tag' : Option TagBytes} {text text' : List Char} {style style' : ScalarStyle}
    (alike : Alike here there one other) (shows : Shows here one tag text style)
    (shows' : Shows there other tag' text' style') : tag = tag' ∧ text = text' ∧ style = style' := by
  obtain ⟨mark, found⟩ := shows
  obtain ⟨mark', found'⟩ := shows'
  cases alike with
  | scalar stands stands' =>
    cases found.symm.trans stands
    cases found'.symm.trans stands'
    exact ⟨rfl, rfl, rfl⟩
  | void stands | sequence stands | mapping stands => cases found.symm.trans stands

/-- A value that is told by a scalar. -/
def Told (read : Option TagBytes → List Char → ScalarStyle → Option α) (environment : Environment)
    (node : Node) (value : α) : Prop :=
  ∃ tag text style, Shows environment node tag text style ∧ read tag text style = some value

variable {read : Option TagBytes → List Char → ScalarStyle → Option α}

theorem told_agree {reads reads' : Node → α → Prop}
    (told : ∀ node value, reads node value → Told read here node value)
    (told' : ∀ node value, reads' node value → Told read there node value) :
    Agree here there reads reads' := by
  intro one other value value' alike holds holds'
  obtain ⟨tag, text, style, shows, given⟩ := told _ _ holds
  obtain ⟨tag', text', style', shows', given'⟩ := told' _ _ holds'
  obtain ⟨rfl, rfl, rfl⟩ := Shows.unique alike shows shows'
  exact Option.some.inj (given.symm.trans given')

theorem Reads.of_gives {decoder : Located → Decode α} {post : Node → α → Prop} {node : Node} {value : α}
    (given : ∀ located, Gives (decoder located environment) (post located.node))
    (reads : Reads environment decoder node value) : post node value := by
  obtain ⟨path, before, after, finished⟩ := reads
  exact given ⟨node, path⟩ before value after finished

theorem ReadsInside.of_gives {decoder : ℕ → Located → Decode α} {post : Node → α → Prop} {node : Node}
    {value : α} (given : ∀ depth located, Gives (decoder depth located environment) (post located.node))
    (reads : ReadsInside environment decoder node value) : post node value := by
  obtain ⟨depth, reads⟩ := reads
  exact Reads.of_gives (given depth) reads

theorem reads_agree {decoder : Located → Decode α}
    (given : ∀ environment located, Gives (decoder located environment) (Told read environment located.node)) :
    Agree here there (Reads here decoder) (Reads there decoder) :=
  told_agree (fun _ _ reads => Reads.of_gives (given here) reads)
    fun _ _ reads => Reads.of_gives (given there) reads

section
variable (environment : Environment) (located : Located)

theorem text_told (expected : String) : Gives (Decode.text expected located environment)
    (Told (fun _ text _ => some (String.ofList text)) environment located.node) := by
  refine bind_gives (resolve_gives located) fun ⟨node, path⟩ standing => placed_gives ?_
  cases node with
  | scalar mark tag text style => exact pure_gives ⟨tag, text, style, ⟨mark, standing⟩, rfl⟩
  | void | sequence | mapping | «alias» => exact failType_decodes _ _ _

theorem bool_told : Gives (Decode.bool located environment)
    (Told (fun tag text style => if isCandidate boolTag tag style then bool? text else none)
      environment located.node) := by
  refine bind_gives (resolve_gives located) fun ⟨node, path⟩ standing => placed_gives ?_
  cases node with
  | scalar mark tag text style =>
    dsimp only
    cases found : if isCandidate boolTag tag style then bool? text else none with
    | some value => exact pure_gives ⟨tag, text, style, ⟨mark, standing⟩, found⟩
    | none => exact failType_decodes _ _ _
  | void | sequence | mapping | «alias» => exact failType_decodes _ _ _

theorem unsigned_told (expected : String) : Gives (Decode.unsigned expected located environment)
    (Told (fun tag text style =>
      if isCandidate integerTag tag style then unsigned? (maxUnsigned 64) text else none)
      environment located.node) := by
  refine bind_gives (resolve_gives located) fun ⟨node, path⟩ standing => placed_gives ?_
  cases node with
  | scalar mark tag text style =>
    dsimp only
    cases found : if isCandidate integerTag tag style then unsigned? (maxUnsigned 64) text
      else none with
    | some value => exact pure_gives ⟨tag, text, style, ⟨mark, standing⟩, found⟩
    | none => exact failType_decodes _ _ _
  | void | sequence | mapping | «alias» => exact failType_decodes _ _ _

theorem signed_told (bits : ℕ) (expected : String) :
    Gives (Decode.signed bits expected located environment)
      (Told (fun tag text style =>
        if isCandidate integerTag tag style then signed? 64 text else none)
        environment located.node) := by
  refine bind_gives (resolve_gives located) fun ⟨node, path⟩ standing => placed_gives ?_
  cases node with
  | scalar mark tag text style =>
    dsimp only
    cases found : if isCandidate integerTag tag style then signed? 64 text else none with
    | some value =>
      dsimp only
      split
      · exact pure_gives ⟨tag, text, style, ⟨mark, standing⟩, found⟩
      · exact failWith_decodes _ _
    | none => exact failType_decodes _ _ _
  | void | sequence | mapping | «alias» => exact failType_decodes _ _ _

theorem nothing_gives : Gives (Decode.nothing located environment) fun _ =>
    ∀ mark tag nodes complete, located.node ≠ .sequence mark tag nodes complete ∧
      located.node ≠ .mapping mark tag nodes complete := by
  obtain ⟨node, path⟩ := located
  cases node with
  | sequence mark tag nodes complete =>
    have refused : Gives (Decode.nothing ⟨.sequence mark tag nodes complete, path⟩ environment)
        fun _ => False := placed_gives (failType_decodes (.sequence mark tag nodes complete) _ environment)
    exact fun before value after finished => (refused before value after finished).elim
  | mapping mark tag nodes complete =>
    have refused : Gives (Decode.nothing ⟨.mapping mark tag nodes complete, path⟩ environment)
        fun _ => False := placed_gives (failType_decodes (.mapping mark tag nodes complete) _ environment)
    exact fun before value after finished => (refused before value after finished).elim
  | void | scalar | «alias» => exact fun _ _ _ _ _ _ _ _ => ⟨nofun, nofun⟩

theorem variant_told (variants : List (String × α)) :
    Gives (Decode.variant variants located environment)
      (Told (fun tag text _ => variants.lookup ((tagName? tag).getD (String.ofList text)))
        environment located.node) := by
  have named (name : String) : Gives (variantOf variants name environment)
      fun value => variants.lookup name = some value := by
    unfold variantOf
    cases found : variants.lookup name with
    | some variant => exact pure_gives rfl
    | none => exact failWith_decodes _ _
  refine bind_gives (resolve_gives located) fun ⟨node, path⟩ standing => ?_
  dsimp only
  cases node with
  | scalar mark tag text style =>
    refine fun before value after finished => ⟨tag, text, style, ⟨mark, standing⟩, ?_⟩
    revert before value after finished
    dsimp only [Node.tag]
    cases tagName? tag with
    | some name => exact bind_gives (named name) fun value found => behind_gives fun _ => pure_gives found
    | none => exact placed_gives (named _)
  | sequence mark tag nodes complete =>
    dsimp only [Node.tag]
    cases tagName? tag with
    | some name =>
      exact behind_gives fun value => bind_gives (nothing_gives _ _) fun _ apart =>
        absurd rfl (apart mark tag nodes complete).1
    | none => exact placed_gives (failType_decodes (.sequence mark tag nodes complete) _ _)
  | mapping mark tag nodes complete =>
    dsimp only [Node.tag]
    cases tagName? tag with
    | some name =>
      exact behind_gives fun value => bind_gives (nothing_gives _ _) fun _ apart =>
        absurd rfl (apart mark tag nodes complete).2
    | none => exact placed_gives (failType_decodes (.mapping mark tag nodes complete) _ _)
  | void mark => exact placed_gives (failType_decodes (.void mark) "" _)
  | «alias» mark target => exact placed_gives (failType_decodes (.alias mark target) "" _)

/-- What is written in the place of a duration, if it is a scalar. -/
def writtenOf? (tag : Option TagBytes) (text : List Char) (style : ScalarStyle) :
    Option WrittenDuration :=
  (scalarValue tag text style).toOption.bind fun value => (writtenDuration.scalar text value).toOption

/-- Other values than scalars are read as well, but as nothing that is a duration. -/
theorem writtenDuration_told (depth : ℕ) :
    Gives (Decode.any writtenDuration depth located environment) fun written =>
      written = .other ∨ Told writtenOf? environment located.node written := by
  have found (inner? : Option (Located → Decode WrittenDuration)) :
      Gives (Decode.anyWith writtenDuration inner? located environment) fun written =>
        written = .other ∨ Told writtenOf? environment located.node written := by
    refine bind_gives (resolve_gives located) fun ⟨node, path⟩ standing => placed_gives ?_
    split
    · exact failWith_decodes _ _
    cases node with
    | void mark => exact pure_gives (.inl rfl)
    | «alias» mark target => exact failAtEnd_decodes _
    | scalar mark tag text style =>
      dsimp only
      cases read : scalarValue tag text style with
      | error kind => exact failWith_decodes _ _
      | ok value =>
        dsimp only
        cases built : writtenDuration.scalar text value with
        | error cause => exact failWith_decodes _ _
        | ok written =>
          refine pure_gives (.inr ⟨tag, text, style, ⟨mark, standing⟩, ?_⟩)
          rw [writtenOf?, read, Except.toOption, Option.bind_some, built]
          rfl
    | sequence mark tag nodes complete =>
      cases inner? with
      | none => exact throw_decodes _ _
      | some inner => exact behind_gives fun _ => pure_gives (.inl rfl)
    | mapping mark tag nodes complete =>
      cases inner? with
      | none => exact throw_decodes _ _
      | some inner => exact behind_gives fun _ => pure_gives (.inl rfl)
  cases depth with
  | zero => exact found none
  | succ depth => exact found _

theorem duration_told (depth : ℕ) : Gives (decodeDuration depth located environment)
    (Told (fun tag text style => (writtenOf? tag text style).bind fun written =>
      written.duration.toOption) environment located.node) := by
  refine bind_gives (writtenDuration_told environment located depth) fun written told => ?_
  cases read : written.duration with
  | error message => exact failWith_decodes _ _
  | ok duration =>
    rcases told with rfl | ⟨tag, text, style, shows, same⟩
    · cases read
    · refine pure_gives ⟨tag, text, style, shows, ?_⟩
      dsimp only
      rw [same, Option.bind_some, read]
      rfl

end

section
variable (expected : String)

theorem text_agree : Agree here there (Reads here (Decode.text expected))
    (Reads there (Decode.text expected)) :=
  reads_agree fun environment located => text_told environment located expected

theorem bool_agree : Agree here there (Reads here Decode.bool) (Reads there Decode.bool) :=
  reads_agree bool_told

theorem unsigned_agree : Agree here there (Reads here (Decode.unsigned expected))
    (Reads there (Decode.unsigned expected)) :=
  reads_agree fun environment located => unsigned_told environment located expected

theorem signed_agree (bits : ℕ) : Agree here there (Reads here (Decode.signed bits expected))
    (Reads there (Decode.signed bits expected)) :=
  reads_agree fun environment located => signed_told environment located bits expected

theorem variant_agree (variants : List (String × α)) :
    Agree here there (Reads here (Decode.variant variants)) (Reads there (Decode.variant variants)) :=
  reads_agree fun environment located => variant_told environment located variants

theorem duration_agree :
    Agree here there (ReadsInside here decodeDuration) (ReadsInside there decodeDuration) :=
  told_agree
    (fun _ _ reads => ReadsInside.of_gives (fun depth located => duration_told here located depth) reads)
    fun _ _ reads => ReadsInside.of_gives (fun depth located => duration_told there located depth) reads

end

theorem items_unique {reads reads' : Node → α → Prop} {nodes nodes' : List Node} {values values' : List α}
    (agree : Agree here there reads reads') (alike : List.Forall₂ (Alike here there) nodes nodes')
    (each : List.Forall₂ reads nodes values) (each' : List.Forall₂ reads' nodes' values') :
    values = values' := by
  induction alike generalizing values values' with
  | nil => cases each; cases each'; rfl
  | cons same later ih =>
    obtain _ | ⟨holds, rest⟩ := each
    obtain _ | ⟨holds', rest'⟩ := each'
    rw [agree _ _ _ _ same holds holds', ih rest rest']

theorem texts_agree : Agree here there (ReadsInside here decodeTexts) (ReadsInside there decodeTexts) := by
  intro one other value value' alike reads reads'
  let TextOf (environment : Environment) (node : Node) (text : String) : Prop :=
    WrittenEntries.text? environment node = some text
  have given (environment : Environment) (depth : ℕ) (located : Located) :
      Gives (decodeTexts depth located environment)
        (List.Forall₂ (TextOf environment) (itemsOf environment located.node)) :=
    sequence_gives (fun _ => text_gives _) located
  have agree : Agree here there (TextOf here) (TextOf there) := fun _ _ _ _ same text text' =>
    Option.some.inj (text.symm.trans (same.text?.trans text'))
  have texts : List.Forall₂ (TextOf here) (itemsOf here one) value := by
    obtain ⟨depth, path, before, after, finished⟩ := reads
    exact given here depth ⟨one, path⟩ before value after finished
  have texts' : List.Forall₂ (TextOf there) (itemsOf there other) value' := by
    obtain ⟨depth, path, before, after, finished⟩ := reads'
    exact given there depth ⟨other, path⟩ before value' after finished
  exact items_unique agree alike.items texts texts'

section
variable {entries entries' : List (String × Node)} (alike : AlikeEntries here there entries entries')
include alike

theorem kafka_unique {fields fields' : KafkaFields} (known : KafkaEntries here entries fields)
    (known' : KafkaEntries there entries' fields') : fields = fields' := by
  have brokers := field_unique texts_agree (alike.lookup _) known.brokers known'.brokers
  have topic := field_unique (text_agree _) (alike.lookup _) known.topic known'.topic
  have clientId := field_unique (text_agree _) (alike.lookup _) known.clientId known'.clientId
  have partition := field_unique (signed_agree _ _) (alike.lookup _) known.partition known'.partition
  have timeout := field_unique duration_agree (alike.lookup _) known.timeout known'.timeout
  have batchSize := field_unique (unsigned_agree _) (alike.lookup _) known.batchSize known'.batchSize
  have asynchronous := field_unique bool_agree (alike.lookup _) known.asynchronous known'.asynchronous
  cases fields
  cases fields'
  exact KafkaFields.mk.injEq .. ▸ ⟨brokers, topic, clientId, partition, timeout, batchSize, asynchronous⟩

theorem schedule_unique {fields fields' : ScheduleFields} (known : ScheduleEntries here entries fields)
    (known' : ScheduleEntries there entries' fields') : fields = fields' := by
  have enabled := field_unique bool_agree (alike.lookup _) known.enabled known'.enabled
  have interval := field_unique duration_agree (alike.lookup _) known.interval known'.interval
  have workers := field_unique (unsigned_agree _) (alike.lookup _) known.workers known'.workers
  cases fields
  cases fields'
  exact ScheduleFields.mk.injEq .. ▸ ⟨enabled, interval, workers⟩

theorem logging_unique {fields fields' : LoggingFields} (known : LoggingEntries here entries fields)
    (known' : LoggingEntries there entries' fields') : fields = fields' := by
  have level := field_unique (text_agree _) (alike.lookup _) known.level known'.level
  have format := field_unique (variant_agree _) (alike.lookup _) known.format known'.format
  have verbose := field_unique bool_agree (alike.lookup _) known.verbose known'.verbose
  cases fields
  cases fields'
  exact LoggingFields.mk.injEq .. ▸ ⟨level, format, verbose⟩

theorem payload_unique {payload payload' : WrittenPayload}
    (known : PayloadEntries here entries payload.fields)
    (known' : PayloadEntries there entries' payload'.fields) : payload = payload' := by
  have name := field_unique (text_agree _) (alike.lookup _) known.name known'.name
  have templatePath := field_unique (text_agree _) (alike.lookup _) known.templatePath known'.templatePath
  have batchSize := field_unique (unsigned_agree _) (alike.lookup _) known.batchSize known'.batchSize
  have topic := field_unique (text_agree _) (alike.lookup _) known.topic known'.topic
  cases payload
  cases payload'
  exact WrittenPayload.mk.injEq .. ▸ ⟨name, Option.some.inj templatePath, batchSize, topic⟩

end

def StandsForNone (environment : Environment) (node : Node) : Prop :=
  ∃ standing, standing? environment node = some standing ∧ IsNone standing

theorem Alike.none_iff (alike : Alike here there one other) :
    StandsForNone here one ↔ StandsForNone there other := by
  cases alike with
  | void stands stands' => exact iff_of_true ⟨_, stands, trivial⟩ ⟨_, stands', trivial⟩
  | scalar stands stands' | sequence stands stands' | mapping stands stands' =>
    simp only [StandsForNone, stands, stands', Option.some.injEq, exists_eq_left', IsNone]

theorem optional_none (decoder : Located → Decode α) (located : Located) :
    Gives (Decode.optional decoder located environment) fun value? =>
      value? = none ↔ StandsForNone environment located.node := by
  refine bind_gives (resolve_gives located) fun ⟨node, path⟩ standing => ?_
  have none_iff : StandsForNone environment located.node ↔ IsNone node := by
    simp only [StandsForNone, standing, Option.some.injEq, exists_eq_left']
  have some {found : Located} (given : ¬IsNone node) :
      Gives ((do return some (← decoder found) : Decode (Option α)) environment) fun value? =>
        value? = none ↔ StandsForNone environment located.node :=
    behind_gives fun value => pure_gives (iff_of_false nofun (none_iff.not.mpr given))
  have none (null : IsNone node) : Gives ((pure none : Decode (Option α)) environment) fun value? =>
      value? = none ↔ StandsForNone environment located.node :=
    pure_gives (iff_of_true rfl (none_iff.mpr null))
  cases node with
  | void => exact none trivial
  | scalar mark tag text style =>
    dsimp only
    split
    next quoted => exact some fun null => quoted null.1
    next plain =>
      have plain := not_not.mp plain
      split
      next tagged =>
        split
        next null => exact none ⟨plain, .inl ⟨tagged, null⟩⟩
        next => exact failWith_decodes _ _
      next foreign =>
        split
        next untagged =>
          simp only [Bool.and_eq_true, Option.isNone_iff_eq_none, Bool.or_eq_true,
            List.isEmpty_iff] at untagged
          exact none ⟨plain, .inr untagged⟩
        next given =>
          refine some fun null => ?_
          rcases null.2 with ⟨tagged, -⟩ | ⟨untagged, empty⟩
          · exact foreign tagged
          · simp [untagged, empty] at given
  | sequence | mapping | «alias» => exact some id

theorem Alike.entries_left {standing : Node} (alike : Alike here there one other)
    (found : standing? here one = some standing) : entriesOf here standing = entriesOf here one := by
  cases alike with
  | void stands | scalar stands | sequence stands | mapping stands =>
    cases found.symm.trans stands
    rw [entriesOf, entriesOf, stands]
    rfl

theorem Alike.entries_right {standing : Node} (alike : Alike here there one other)
    (found : standing? there other = some standing) :
    entriesOf there standing = entriesOf there other := by
  cases alike with
  | void _ stands | scalar _ stands | sequence _ stands | mapping _ stands =>
    cases found.symm.trans stands
    rw [entriesOf, entriesOf, stands]
    rfl

structure Optionally (environment : Environment) (writes : List (String × Node) → α → Prop)
    (node : Node) (value? : Option α) : Prop where
  written : OptionalSection environment writes (some node) value?
  none_iff : value? = none ↔ StandsForNone environment node

theorem optionally_agree {writes writes' : List (String × Node) → α → Prop}
    (unique : ∀ entries entries' value value', AlikeEntries here there entries entries' →
      writes entries value → writes' entries' value' → value = value') :
    Agree here there (Optionally here writes) (Optionally there writes') := by
  rintro one other value? value?' alike ⟨written, none_iff⟩ ⟨written', none_iff'⟩
  have same := alike.none_iff
  rw [← none_iff, ← none_iff'] at same
  cases written with
  | none => exact (same.mp rfl).symm
  | given stands holds =>
    cases written' with
    | none => cases same.mpr rfl
    | given stands' holds' =>
      rw [alike.entries_left stands] at holds
      rw [alike.entries_right stands'] at holds'
      rw [unique _ _ _ _ alike.entries holds holds']

structure RootEntries (environment : Environment) (entries : List (String × Node))
    (sections : Sections) : Prop where
  known : SectionEntries environment entries sections
  schedule : WrittenEntries.Field entries "scheduler"
    (Optionally environment (ScheduleEntries environment)) sections.schedule

theorem decodeSchedule_optionally (depth : ℕ) (located : Located) :
    Gives (Decode.optional (decodeWrittenSchedule depth) located environment)
      (Optionally environment (ScheduleEntries environment) located.node) :=
  fun before value? after finished =>
    ⟨optional_gives decodeWrittenSchedule_gives located before value? after finished,
      optional_none _ located before value? after finished⟩

theorem decodeSection_root {depth : ℕ} {entries : List (String × Node)} {sections : Sections}
    (name : String) (value : Located) (root : RootEntries environment entries sections) :
    Gives (decodeSection depth sections name value environment)
      (RootEntries environment (entries ++ [(name, value.node)])) := by
  have schedule : Gives (decodeSection depth sections name value environment) fun sections =>
      WrittenEntries.Field (entries ++ [(name, value.node)]) "scheduler"
        (Optionally environment (ScheduleEntries environment)) sections.schedule := by
    unfold decodeSection
    split
    · exact behind_gives fun _ => pure_gives (root.schedule.behind (by decide) _)
    · exact bind_gives (once_gives root.schedule (decodeSchedule_optionally _ _)) fun _ field =>
        pure_gives field
    · exact behind_gives fun _ => pure_gives (root.schedule.behind (by decide) _)
    · exact behind_gives fun _ => pure_gives (root.schedule.behind (by decide) _)
    · exact behind_gives fun _ => pure_gives (root.schedule.behind (by decide) _)
    next different _ _ _ => exact behind_gives fun _ => pure_gives (root.schedule.behind different _)
  intro before sections' after finished
  exact ⟨decodeSection_gives name value root.known before sections' after finished,
    schedule before sections' after finished⟩

/-- What is written once all sections are read. -/
def Completes (sections : Sections) (written : Written) : Prop :=
  sections.kafka = some written.kafka ∧ sections.schedule.join = written.schedule ∧
    sections.logging = written.logging ∧ sections.payloads.getD [] = written.payloads ∧
      sections.payload.join = written.payload

theorem decodeWritten_root (located : Located) :
    Gives (decodeWritten located environment) fun written =>
      ∃ sections, RootEntries environment (entriesOf environment located.node) sections ∧
        Completes sections written := by
  refine mapping_gives (fun _ _ _ name value root => decodeSection_root name value root)
    ⟨⟨.leftOut, .leftOut, .leftOut, .leftOut, .leftOut⟩, .leftOut⟩ ?_
  rintro ⟨_ | kafka, schedule, logging, payloads, payload⟩ root
  · exact failWith_decodes _ _
  · exact pure_gives ⟨_, root, rfl, rfl, rfl, rfl, rfl⟩

/-- The names and values of a text's document, and what reading them depends on. -/
def around (text : List Char) : Environment :=
  surroundings (Document.ofBytes (Text.Utf8.encode text))

def rootEntries (text : List Char) : List (String × Node) :=
  match (Document.ofBytes (Text.Utf8.encode text)).root with
  | some root => entriesOf (around text) root
  | none => []

/-- Sections that complete what is written. -/
def Composes (text : List Char) (written : Written) : Prop :=
  ∃ sections, RootEntries (around text) (rootEntries text) sections ∧ Completes sections written

theorem ofText_composes {text : List Char} {written : Written}
    (parsed : Written.ofText text = .ok written) : Composes text written := by
  have given (root : Node) (found : (Document.ofBytes (Text.Utf8.encode text)).root = some root) :
      Gives (decodeWritten ⟨root, .root⟩ (around text)) (Composes text) := by
    unfold Composes rootEntries
    rw [found]
    exact decodeWritten_root ⟨root, .root⟩
  exact root_gives given parsed

end MessagePress.Proofs.AlikeDocuments
