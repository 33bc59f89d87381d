import MessagePress.Yaml.Token.Stream

/-! The events of a document: its nodes in the order of the text, each with what belongs to
it. Tokens are turned into events by a machine that keeps a stack of what comes next. -/

namespace MessagePress.Yaml

/-- What may stand in front of a node. -/
structure Properties where
  anchor : Option (List Char)
  tag : Option TagBytes
  deriving DecidableEq, Repr

inductive EventKind
  | streamEnd
  | documentStart
  | documentEnd
  | alias (name : List Char)
  | scalar (properties : Properties) (text : List Char) (style : ScalarStyle)
  | sequenceStart (properties : Properties)
  | sequenceEnd
  | mappingStart (properties : Properties)
  | mappingEnd
  deriving DecidableEq, Repr

structure Event where
  kind : EventKind
  mark : Mark
  deriving DecidableEq, Repr

/-- What comes next. `first` states stand right behind the token that opens a collection. -/
inductive Expecting
  | documentStart (implicit : Bool)
  | documentContent
  | documentEnd
  | blockNode
  | blockSequenceEntry (first : Bool)
  | indentlessEntry
  | blockMappingKey (first : Bool)
  | blockMappingValue
  | flowSequenceEntry (first : Bool)
  | flowPairKey
  | flowPairValue
  | flowPairEnd
  | flowMappingKey (first : Bool)
  | flowMappingValue (empty : Bool)
  | nothing
  deriving DecidableEq, Repr

/-- The machine's memory: tokens not used yet, what comes next and after that, where the open
collections started, and the tag handles of the document. -/
structure Assembly where
  tokens : List Token
  fault : Option SyntaxFault
  now : Expecting
  later : List Expecting
  marks : List Mark
  handles : List (TagBytes × TagBytes)

abbrev Assemble (α : Type) := StateT Assembly (Except SyntaxFault) α

namespace Assemble

open Text.Utf8 (encode)

/-- The next token. Behind the last one stands the fault that ended the tokens. -/
def peek : Assemble Token := do
  let state ← get
  match state.tokens, state.fault with
  | token :: _, _ => return token
  | [], some fault => throw fault
  | [], none => return ⟨.streamEnd, Mark.start, Mark.start⟩

def skip : Assemble Unit := modify fun state => { state with tokens := state.tokens.drop 1 }

def goTo (now : Expecting) : Assemble Unit := modify fun state => { state with now }

def push (expecting : Expecting) : Assemble Unit :=
  modify fun state => { state with later := expecting :: state.later }

/-- Goes on with what was put off last. -/
def pop : Assemble Unit := modify fun state =>
  { state with now := state.later.headD .nothing, later := state.later.drop 1 }

def pushMark (mark : Mark) : Assemble Unit :=
  modify fun state => { state with marks := mark :: state.marks }

/-- The start of the innermost open collection, which is closed. -/
def popMark : Assemble Mark := do
  let state ← get
  set { state with marks := state.marks.drop 1 }
  return state.marks.headD Mark.start

def emptyScalar (mark : Mark) : Assemble Event :=
  return ⟨.scalar ⟨none, none⟩ [] .plain, mark⟩

def malformed (problem : Problem) (mark : Mark) (context : Option (Context × Mark)) :
    Assemble α :=
  throw (.malformed problem mark context)

def defaultHandles : List (TagBytes × TagBytes) :=
  [(encode ['!'], encode ['!']), (encode ['!', '!'], encode coreNamespace.toList)]

/-- Reads directives; `version` tells that one of the version was met. -/
def readDirectives : Nat → (version : Bool) → List (TagBytes × TagBytes) →
    Assemble (List (TagBytes × TagBytes))
  | 0, _, handles => pure handles
  | steps + 1, version, handles => do
    let token ← peek
    match token.kind with
    | .versionDirective major minor =>
      if version then malformed .duplicateYamlDirective token.start none
      else if major ≠ 1 ∨ (minor ≠ 1 ∧ minor ≠ 2) then
        malformed .incompatibleDocument token.start none
      else
        skip
        readDirectives steps true handles
    | .tagDirective handle uri =>
      if (handles.lookup handle).isSome then malformed .duplicateTagDirective token.start none
      else
        skip
        readDirectives steps version ((handle, uri) :: handles)
    | _ => return handles

/-- Handles that a document does not give itself keep their usual meaning. -/
def setHandles (given : List (TagBytes × TagBytes)) : Assemble Unit :=
  modify fun state => { state with handles := given ++ defaultHandles }

def skipDocumentEnds : Nat → Assemble Unit
  | 0 => pure ()
  | steps + 1 => do
    if (← peek).kind = .documentEnd then
      skip
      skipDocumentEnds steps

def isDirective : TokenKind → Bool
  | .versionDirective _ _ | .tagDirective _ _ => true
  | _ => false

def documentStart (implicit : Bool) : Assemble Event := do
  let steps := (← get).tokens.length + 1
  if !implicit then skipDocumentEnds steps
  let token ← peek
  if token.kind = .streamEnd then
    goTo .nothing
    skip
    return ⟨.streamEnd, token.start⟩
  else if implicit && !isDirective token.kind && token.kind != .documentStart then
    setHandles []
    push .documentEnd
    goTo .blockNode
    return ⟨.documentStart, token.start⟩
  else
    let handles ← readDirectives steps false []
    setHandles handles
    let next ← peek
    if next.kind ≠ .documentStart then malformed .missingDocumentStart next.start none
    else
      push .documentEnd
      goTo .documentContent
      skip
      return ⟨.documentStart, token.start⟩

def documentEnd : Assemble Event := do
  let token ← peek
  if token.kind = .documentEnd then skip
  goTo (.documentStart false)
  return ⟨.documentEnd, token.start⟩

/-- The full tag of a handle and a suffix. -/
def resolveTag (handle suffix : TagBytes) (start mark : Mark) : Assemble TagBytes := do
  if handle.isEmpty then return suffix
  else
    match (← get).handles.lookup handle with
    | some uri => return uri ++ suffix
    | none => malformed .undefinedTagHandle mark (some (.node, start))

/-- Reads an anchor and a tag, in either order, and gives the place of the first of them. -/
def readProperties : Assemble (Properties × Mark) := do
  let first ← peek
  match first.kind with
  | .anchor name =>
    skip
    let second ← peek
    match second.kind with
    | .tag handle suffix =>
      skip
      let _ ← peek
      return (⟨some name, some (← resolveTag handle suffix first.start second.start)⟩, first.start)
    | _ => return (⟨some name, none⟩, first.start)
  | .tag handle suffix =>
    skip
    let second ← peek
    match second.kind with
    | .anchor name =>
      skip
      let _ ← peek
      return (⟨some name, some (← resolveTag handle suffix first.start first.start)⟩, first.start)
    | _ => return (⟨none, some (← resolveTag handle suffix first.start first.start)⟩, first.start)
  | _ => return (⟨none, none⟩, first.start)

/-- Reads a node. Block collections may start where `block` is set, and sequences without an
indentation of their own where `indentless` is. -/
def node (block indentless : Bool) : Assemble Event := do
  let first ← peek
  match first.kind with
  | .alias name =>
    pop
    skip
    return ⟨.alias name, first.start⟩
  | _ =>
    let (properties, start) ← readProperties
    let token ← peek
    match token.kind, indentless, block with
    | .blockEntry, true, _ =>
      goTo .indentlessEntry
      return ⟨.sequenceStart properties, start⟩
    | .scalar text style, _, _ =>
      pop
      skip
      return ⟨.scalar properties text style, start⟩
    | .flowSequenceStart, _, _ =>
      goTo (.flowSequenceEntry true)
      return ⟨.sequenceStart properties, start⟩
    | .flowMappingStart, _, _ =>
      goTo (.flowMappingKey true)
      return ⟨.mappingStart properties, start⟩
    | .blockSequenceStart, _, true =>
      goTo (.blockSequenceEntry true)
      return ⟨.sequenceStart properties, start⟩
    | .blockMappingStart, _, true =>
      goTo (.blockMappingKey true)
      return ⟨.mappingStart properties, start⟩
    | _, _, _ =>
      if properties.anchor.isSome || properties.tag.isSome then
        pop
        return ⟨.scalar properties [] .plain, start⟩
      else
        malformed .missingNodeContent token.start
          (some (if block then .blockNode else .flowNode, start))

def documentContent : Assemble Event := do
  let token ← peek
  if isDirective token.kind || token.kind == .documentStart || token.kind == .documentEnd ||
      token.kind == .streamEnd then
    pop
    emptyScalar token.start
  else node true false

/-- Passes the token that opens a collection. -/
def enter (first : Bool) : Assemble Unit := do
  if first then
    pushMark (← peek).start
    skip

/-- Closes a collection at its last token. -/
def leave (kind : EventKind) : Assemble Event := do
  let token ← peek
  pop
  let _ ← popMark
  skip
  return ⟨kind, token.start⟩

/-- Reads a node unless one of the given tokens follows, which leaves an empty scalar. -/
def nodeUnless (stops : List TokenKind) (mark : Mark) (after : Expecting)
    (block indentless : Bool) : Assemble Event := do
  if stops.contains (← peek).kind then
    goTo after
    emptyScalar mark
  else
    push after
    node block indentless

def blockSequenceEntry (first : Bool) : Assemble Event := do
  enter first
  let token ← peek
  match token.kind with
  | .blockEntry =>
    skip
    nodeUnless [.blockEntry, .blockEnd] token.stop (.blockSequenceEntry false) true false
  | .blockEnd => leave .sequenceEnd
  | _ => malformed .missingBlockEntry token.start (some (.blockSequence, ← popMark))

def indentlessEntry : Assemble Event := do
  let token ← peek
  match token.kind with
  | .blockEntry =>
    skip
    nodeUnless [.blockEntry, .key, .value, .blockEnd] token.stop .indentlessEntry true false
  | _ =>
    pop
    return ⟨.sequenceEnd, token.start⟩

def blockMappingKey (first : Bool) : Assemble Event := do
  enter first
  let token ← peek
  match token.kind with
  | .key =>
    skip
    nodeUnless [.key, .value, .blockEnd] token.stop .blockMappingValue true true
  | .blockEnd => leave .mappingEnd
  | _ => malformed .missingKey token.start (some (.blockMapping, ← popMark))

def blockMappingValue : Assemble Event := do
  let token ← peek
  match token.kind with
  | .value =>
    skip
    nodeUnless [.key, .value, .blockEnd] token.stop (.blockMappingKey false) true true
  | _ =>
    goTo (.blockMappingKey false)
    emptyScalar token.start

/-- Passes the comma in front of every item but the first. -/
def separator (first : Bool) (context : Context) (problem : Problem) : Assemble Unit := do
  if !first then
    let token ← peek
    if token.kind = .flowEntry then skip
    else malformed problem token.start (some (context, ← popMark))

def flowSequenceEntry (first : Bool) : Assemble Event := do
  enter first
  if (← peek).kind = .flowSequenceEnd then leave .sequenceEnd
  else
    separator first .flowSequence .missingSequenceEnd
    let token ← peek
    match token.kind with
    | .key =>
      goTo .flowPairKey
      skip
      return ⟨.mappingStart ⟨none, none⟩, token.start⟩
    | .flowSequenceEnd => leave .sequenceEnd
    | _ =>
      push (.flowSequenceEntry false)
      node false false

/-- Reads the key of a pair inside a sequence. A missing one takes the token behind with it. -/
def flowPairKey : Assemble Event := do
  let token ← peek
  match token.kind with
  | .value | .flowEntry | .flowSequenceEnd =>
    skip
    goTo .flowPairValue
    emptyScalar token.stop
  | _ =>
    push .flowPairValue
    node false false

def flowPairValue : Assemble Event := do
  if (← peek).kind = .value then
    skip
    nodeUnless [.flowEntry, .flowSequenceEnd] (← peek).start .flowPairEnd false false
  else
    goTo .flowPairEnd
    emptyScalar (← peek).start

def flowPairEnd : Assemble Event := do
  goTo (.flowSequenceEntry false)
  return ⟨.mappingEnd, (← peek).start⟩

def flowMappingKey (first : Bool) : Assemble Event := do
  enter first
  if (← peek).kind = .flowMappingEnd then leave .mappingEnd
  else
    separator first .flowMapping .missingMappingEnd
    let token ← peek
    match token.kind with
    | .key =>
      skip
      nodeUnless [.value, .flowEntry, .flowMappingEnd] (← peek).start (.flowMappingValue false)
        false false
    | .flowMappingEnd => leave .mappingEnd
    | _ =>
      push (.flowMappingValue true)
      node false false

def flowMappingValue (empty : Bool) : Assemble Event := do
  let token ← peek
  if !empty && token.kind == .value then
    skip
    nodeUnless [.flowEntry, .flowMappingEnd] (← peek).start (.flowMappingKey false) false false
  else
    goTo (.flowMappingKey false)
    emptyScalar token.start

/-- The next event. -/
def next : Assemble Event := do
  match (← get).now with
  | .documentStart implicit => documentStart implicit
  | .documentContent => documentContent
  | .documentEnd => documentEnd
  | .blockNode => node true false
  | .blockSequenceEntry first => blockSequenceEntry first
  | .indentlessEntry => indentlessEntry
  | .blockMappingKey first => blockMappingKey first
  | .blockMappingValue => blockMappingValue
  | .flowSequenceEntry first => flowSequenceEntry first
  | .flowPairKey => flowPairKey
  | .flowPairValue => flowPairValue
  | .flowPairEnd => flowPairEnd
  | .flowMappingKey first => flowMappingKey first
  | .flowMappingValue empty => flowMappingValue empty
  | .nothing => return ⟨.streamEnd, Mark.start⟩

end Assemble

/-- The events up to the end of the stream or to a fault. -/
structure EventStream where
  events : List Event
  fault : Option SyntaxFault

/-- Takes at most `steps` events. -/
def assemble : Nat → Assembly → EventStream
  | 0, _ => ⟨[], none⟩
  | steps + 1, state =>
    match Assemble.next.run state with
    | .error fault => ⟨[], some fault⟩
    | .ok (event, state) =>
      if event.kind = .streamEnd then ⟨[event], none⟩
      else
        let rest := assemble steps state
        ⟨event :: rest.events, rest.fault⟩

/-- No token gives rise to more than a few events. -/
def EventStream.ofTokens (stream : TokenStream) : EventStream :=
  assemble (4 * stream.tokens.length + 8)
    { tokens := stream.tokens, fault := stream.fault, now := .documentStart true, later := [],
      marks := [], handles := [] }

def EventStream.ofBytes (bytes : List UInt8) : EventStream :=
  EventStream.ofTokens (TokenStream.ofSource (Source.ofBytes bytes))

end MessagePress.Yaml
