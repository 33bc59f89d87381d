import MessagePress.Json.Basic
import MessagePress.Number.Text
import MessagePress.Text.Quoted
import MessagePress.Yaml.Node

/-! Reading typed values from documents. Nodes are looked at in order and only as far as they
are needed, so of several faults the first one met counts, be it in the text or in what the
text describes. Aliases are followed where they stand, within a limit that grows with the
document, and collections may be nested to a fixed depth. -/

namespace MessagePress.Yaml

/-- The way from the root of a document to a node. -/
inductive Path
  | root
  | item (parent : Path) (index : Nat)
  | member (parent : Path) (key : String)
  /-- A value whose key is not written as a scalar. -/
  | unnamed (parent : Path)
  deriving DecidableEq, Repr

/-- A path as messages show it. -/
def Path.text : Path → String
  | .root => "."
  | .item parent index => parent.text ++ s!"[{index}]"
  | .member .root key => key
  | .member parent key => parent.text ++ "." ++ key
  | .unnamed .root => "?"
  | .unnamed parent => parent.text ++ ".?"

/-- A value that was met in place of another. -/
inductive Unexpected
  | null
  | bool (value : Bool)
  | integer (value : Int)
  | wideInteger (value : Int)
  | real (value : Real)
  | text (value : String)
  | sequence
  | mapping
  | tagged
  deriving DecidableEq, Repr

def Real.text : Real → String
  | .finite value => String.ofList value.plainText
  | .infinite false => "inf"
  | .infinite true => "-inf"
  | .nan => "NaN"

def Unexpected.message : Unexpected → String
  | .null => "unit value"
  | .bool value => s!"boolean `{value}`"
  | .integer value => s!"integer `{value}`"
  | .wideInteger value => s!"integer `{value}` as " ++ if value < 0 then "i128" else "u128"
  | .real value => "floating point `" ++ value.text ++ "`"
  | .text value => "string " ++ Text.quoted value
  | .sequence => "sequence"
  | .mapping => "map"
  | .tagged => "enum"

/-- What is wrong with what a document describes. -/
inductive Cause
  | invalidType (found : Unexpected) (expected : String)
  | invalidValue (found : Unexpected) (expected : String)
  | unknownVariant (name : String) (known : List String)
  | missingField (name : String)
  | duplicateField (name : String)
  | numberOutOfRange
  /-- A fault of the described thing, in its own words. -/
  | invalid (message : String)
  deriving DecidableEq, Repr

def alternatives : List String → String
  | [] => ""
  | [name] => "`" ++ name ++ "`"
  | [first, second] => "`" ++ first ++ "` or `" ++ second ++ "`"
  | names => "one of " ++ ", ".intercalate (names.map fun name => "`" ++ name ++ "`")

def Cause.message : Cause → String
  | .invalidType found expected => "invalid type: " ++ found.message ++ ", expected " ++ expected
  | .invalidValue found expected => "invalid value: " ++ found.message ++ ", expected " ++ expected
  | .unknownVariant name known =>
    "unknown variant `" ++ name ++ "`, expected " ++ alternatives known
  | .missingField name => "missing field `" ++ name ++ "`"
  | .duplicateField name => "duplicate field `" ++ name ++ "`"
  | .numberOutOfRange => "JSON number out of range"
  | .invalid message => message

inductive Fault
  | document (fault : DocumentFault)
  | endOfStream
  | severalDocuments
  | recursionLimit (mark : Mark)
  | repetitionLimit
  | content (cause : Cause) (place : Option (Mark × Path))
  deriving DecidableEq, Repr

/-- A place behind a message; the very start of a text is not shown. -/
def atMark (mark : Mark) : String := if mark.isStart then "" else " at " ++ mark.message

def Fault.message : Fault → String
  | .document (.broken fault) => fault.message
  | .document (.unknownAnchor mark) => "unknown anchor" ++ atMark mark
  | .endOfStream => "EOF while parsing a value"
  | .severalDocuments =>
    "deserializing from YAML containing more than one document is not supported"
  | .recursionLimit mark => "recursion limit exceeded" ++ atMark mark
  | .repetitionLimit => "repetition limit exceeded"
  | .content cause none => cause.message
  | .content cause (some (mark, path)) =>
    (if path = .root then "" else path.text ++ ": ") ++ cause.message ++ atMark mark

/-- What reading depends on: the nodes behind aliases, how many aliases may be followed, and
the fault that is met behind an incomplete node. -/
structure Environment where
  anchored : List (Nat × Node)
  jumpLimit : Nat
  endFault : Fault

/-- Reading counts the aliases followed. -/
abbrev Decode (α : Type) := ReaderT Environment (StateT Nat (Except Fault)) α

/-- A node and the way to it. -/
structure Located where
  node : Node
  path : Path

namespace Decode

def failWith (cause : Cause) : Decode α := throw (.content cause none)

/-- Fails where the readable part of the document ends. -/
def failAtEnd : Decode α := do throw (← read).endFault

/-- Tells where a fault arose, unless that is told already. -/
def placed (mark : Mark) (path : Path) (action : Decode α) : Decode α :=
  tryCatch action fun
    | .content cause none => throw (.content cause (some (mark, path)))
    | fault => throw fault

/-- The node itself, or the one that an alias stands for. -/
def resolve (located : Located) : Decode Located := do
  match located.node with
  | .alias _ target =>
    let environment ← read
    let jumps := (← get) + 1
    set jumps
    if environment.jumpLimit < jumps then throw .repetitionLimit
    else
      match environment.anchored.lookup target with
      | some node => return ⟨node, located.path⟩
      | none => failAtEnd
  | _ => return located

mutual

/-- Whether a node and all nodes inside it were read to their ends. -/
def isComplete : Node → Bool
  | .void _ | .scalar _ _ _ _ | .alias _ _ => true
  | .sequence _ _ items complete => complete && allComplete items
  | .mapping _ _ entries complete => complete && allComplete entries

def allComplete : List Node → Bool
  | [] => true
  | node :: rest => isComplete node && allComplete rest

end

/-- Passes over a node, whatever it holds. -/
def ignore (located : Located) : Decode Unit := do
  if !isComplete located.node then failAtEnd

def unexpectedValue (text : List Char) : ScalarValue → Unexpected
  | .null => .null
  | .bool value => .bool value
  | .integer value => .integer value
  | .wideInteger value => .wideInteger value
  | .real value => .real value
  | .text => .text (String.ofList text)

/-- Fails because a node is not what was expected. -/
def failType (node : Node) (expected : String) : Decode α :=
  match node with
  | .void _ => throw .endOfStream
  | .scalar _ tag text style =>
    match scalarValue tag text style with
    | .ok value => failWith (.invalidType (unexpectedValue text value) expected)
    | .error kind => failWith (.invalidValue (.text (String.ofList text)) kind.noun)
  | .sequence _ _ _ _ => failWith (.invalidType .sequence expected)
  | .mapping _ _ _ _ => failWith (.invalidType .mapping expected)
  | .alias _ _ => failAtEnd

/-- The text of a scalar, of whatever kind. -/
def text (expected : String) (located : Located) : Decode String := do
  let ⟨node, path⟩ ← resolve located
  placed node.mark path do
    match node with
    | .scalar _ _ text _ => return String.ofList text
    | node => failType node expected

/-- Scalars whose text is looked at for a kind: plain ones, and literal blocks tagged with it. -/
def isCandidate (tag : TagBytes) (given : Option TagBytes) (style : ScalarStyle) : Bool :=
  style == .plain || (style == .literal && given == some tag)

def bool (located : Located) : Decode Bool := do
  let ⟨node, path⟩ ← resolve located
  placed node.mark path do
    match node with
    | .scalar _ tag text style =>
      match if isCandidate boolTag tag style then bool? text else none with
      | some value => return value
      | none => failType node "a boolean"
    | node => failType node "a boolean"

def unsigned (expected : String) (located : Located) : Decode Nat := do
  let ⟨node, path⟩ ← resolve located
  placed node.mark path do
    match node with
    | .scalar _ tag text style =>
      match if isCandidate integerTag tag style then unsigned? (maxUnsigned 64) text else none with
      | some value => return value
      | none => failType node expected
    | node => failType node expected

/-- A signed integer of so many bits; up to 64 bits are read before the range is checked. -/
def signed (bits : Nat) (expected : String) (located : Located) : Decode Int := do
  let ⟨node, path⟩ ← resolve located
  placed node.mark path do
    match node with
    | .scalar _ tag text style =>
      match if isCandidate integerTag tag style then signed? 64 text else none with
      | some value =>
        if -(maxMagnitude bits : Int) ≤ value ∧ value < maxMagnitude bits then return value
        else failWith (.invalidValue (.integer value) expected)
      | none => failType node expected
    | node => failType node expected

/-- Whether a node stands for an empty collection where a collection is expected. -/
def isEmptyCollection : Node → Bool
  | .void _ => true
  | .scalar _ _ text style => text.isEmpty && style == .plain
  | _ => false

/-- Goes one collection deeper. -/
def deeper (mark : Mark) (depth : Nat) (action : Nat → Decode α) : Decode α :=
  match depth with
  | 0 => throw (.recursionLimit mark)
  | depth + 1 => action depth

/-- Reads items one after the other; more were to come if they are not complete. -/
def readItems (path : Path) (element : Located → Decode α) (complete : Bool) :
    Nat → List Node → Decode (List α)
  | _, [] => do
    if complete then return [] else failAtEnd
  | index, node :: rest => do
    let value ← element ⟨node, .item path index⟩
    return value :: (← readItems path element complete (index + 1) rest)

/-- Reads a sequence; `element` is given the depth left. -/
def sequence (depth : Nat) (element : Nat → Located → Decode α) (located : Located) :
    Decode (List α) := do
  let ⟨node, path⟩ ← resolve located
  placed node.mark path do
    match node with
    | .sequence mark _ items complete =>
      deeper mark depth fun depth => readItems path (element depth) complete 0 items
    | node => if isEmptyCollection node then return [] else failType node "a sequence"

/-- The path of the value behind a key. -/
def valuePath (path : Path) : Node → Path
  | .scalar _ _ text _ => .member path (String.ofList text)
  | _ => .unnamed path

/-- Reads keys and values one after the other. `expected` says what a key should be, by its
number. -/
def readEntries (path : Path) (expected : Nat → String)
    (step : σ → String → Located → Decode σ) (complete : Bool) :
    Nat → σ → List Node → Decode σ
  | _, state, [] => do
    if complete then return state else failAtEnd
  | index, _, [key] => do
    let _ ← text (expected index) ⟨key, path⟩
    failAtEnd
  | index, state, key :: value :: rest => do
    let name ← text (expected index) ⟨key, path⟩
    let state ← step state name ⟨value, valuePath path key⟩
    readEntries path expected step complete (index + 1) state rest

/-- Reads a mapping from what was read before it; `step` is given the depth left. -/
def mapping (depth : Nat) (expected : String) (expectedKey : Nat → String) (state : σ)
    (step : Nat → σ → String → Located → Decode σ) (finish : σ → Decode α) (located : Located) :
    Decode α := do
  let ⟨node, path⟩ ← resolve located
  placed node.mark path do
    match node with
    | .mapping mark _ entries complete =>
      deeper mark depth fun depth => do
        finish (← readEntries path expectedKey (step depth) complete 0 state entries)
    | node => if isEmptyCollection node then finish state else failType node expected

/-- Reads a mapping with fixed fields. -/
def fields (depth : Nat) (expected : String) (state : σ)
    (step : Nat → σ → String → Located → Decode σ) (finish : σ → Decode α) (located : Located) :
    Decode α :=
  mapping depth expected (fun _ => "field identifier") state step finish located

/-- Sets a field that may be given only once. -/
def once (name : String) (old : Option α) (value : Decode α) : Decode (Option α) := do
  if old.isSome then failWith (.duplicateField name)
  else return some (← value)

/-- A value that may be left out: nulls and empty plain scalars stand for none. -/
def optional (value : Located → Decode α) (located : Located) : Decode (Option α) := do
  let located ← resolve located
  match located.node with
  | .void _ => return none
  | .scalar _ tag text style =>
    if style ≠ .plain then return some (← value located)
    else if tag = some nullTag then
      if isNull text then return none
      else failWith (.invalidValue (.text (String.ofList text)) "null")
    else if tag.isNone && (text.isEmpty || isNull text) then return none
    else return some (← value located)
  | _ => return some (← value located)

/-- Nothing: a tag that names a variant is followed by no value of its own. -/
def nothing (located : Located) : Decode Unit := do
  let ⟨node, path⟩ ← resolve located
  placed node.mark path do
    match node with
    | .void _ => pure ()
    | .scalar _ _ text style =>
      if style = .plain ∧ (text.isEmpty ∨ isNull text) then pure ()
      else failWith (.invalidValue (.text (String.ofList text)) "null")
    | node => failType node "unit"

/-- The variant of a name. -/
def variantOf (variants : List (String × α)) (name : String) : Decode α :=
  match variants.lookup name with
  | some variant => return variant
  | none => failWith (.unknownVariant name (variants.map (·.1)))

/-- One of a few names, given as a text or as a tag. -/
def variant (variants : List (String × α)) (located : Located) : Decode α := do
  let ⟨node, path⟩ ← resolve located
  match tagName? node.tag with
  | some name =>
    let value ← variantOf variants name
    nothing ⟨node, path⟩
    return value
  | none => placed node.mark path (untagged node)
where
  untagged : Node → Decode α
    | .scalar _ _ text _ => variantOf variants (String.ofList text)
    | node => failType node "a YAML tag starting with '!'"

/-- How values of any kind are put together. The inside of a mapping is given as the mapping's
path, whether it is complete, and its keys and values. -/
structure Builder (α : Type) where
  tagged : Cause
  scalar : List Char → ScalarValue → Except Cause α
  sequence : List α → α
  mapping : (inner : Located → Decode α) → Path → Bool → List Node → Decode α

/-- Reads a node of any kind, given how nodes inside it are read unless it may hold none. -/
def anyWith (builder : Builder α) (inner? : Option (Located → Decode α)) (located : Located) :
    Decode α := do
  let ⟨node, path⟩ ← resolve located
  placed node.mark path do
    if (tagName? node.tag).isSome then failWith builder.tagged
    else
      match node, inner? with
      | .void _, _ => ofCause (builder.scalar [] .null)
      | .alias _ _, _ => failAtEnd
      | .scalar _ tag text style, _ =>
        match scalarValue tag text style with
        | .ok value => ofCause (builder.scalar text value)
        | .error kind => failWith (.invalidValue (.text (String.ofList text)) kind.noun)
      | .sequence _ _ items complete, some inner =>
        return builder.sequence (← readItems path inner complete 0 items)
      | .mapping _ _ entries complete, some inner => builder.mapping inner path complete entries
      | node, none => throw (.recursionLimit node.mark)
where
  ofCause : Except Cause α → Decode α
    | .ok value => return value
    | .error cause => failWith cause

/-- Reads a node of any kind with collections nested to a depth. -/
def any (builder : Builder α) : Nat → Located → Decode α
  | 0 => anyWith builder none
  | depth + 1 => anyWith builder (some (any builder depth))

/-- Infinities and what is no number have no place in a JSON value and become nulls. -/
def jsonScalar (text : List Char) : ScalarValue → Except Cause Json
  | .null => .ok .null
  | .bool value => .ok (.bool value)
  | .integer value => .ok (.number (.integer value))
  | .wideInteger _ => .error .numberOutOfRange
  | .real (.finite value) => .ok (.number (.real value))
  | .real _ => .ok .null
  | .text => .ok (.text (String.ofList text))

/-- What is expected of a key, by its number. -/
def jsonKey (index : Nat) : String := if index = 0 then "a string key" else "a string"

def jsonMember (inner : Located → Decode Json) (members : Json.Members) (name : String)
    (value : Located) : Decode Json.Members := do
  return members.insert name (← inner value)

def jsonBuilder : Builder Json where
  tagged := .invalidType .tagged "any valid JSON value"
  scalar := jsonScalar
  sequence := .array
  mapping inner path complete entries := do
    return .object (← readEntries path jsonKey (jsonMember inner) complete 0 [] entries)

/-- Reads any value that a JSON document can hold. -/
def json : Nat → Located → Decode Json := any jsonBuilder

/-- Reads a mapping of such values. -/
def jsonMembers (depth : Nat) : Located → Decode Json.Members :=
  mapping depth "a map" (fun _ => "a string") [] (fun depth => jsonMember (json depth)) pure

end Decode

/-- Reads the whole of a document that is the only one of its stream. -/
def Document.decode (document : Document) (decoder : Located → Decode α) : Except Fault α := do
  let endFault : Fault := (document.fault.map Fault.document).getD .endOfStream
  match document.root with
  | none => throw endFault
  | some root =>
    let environment : Environment := ⟨document.anchored, document.size * 100, endFault⟩
    let (value, _) ← ((decoder ⟨root, .root⟩).run environment).run 0
    match document.fault with
    | some fault => throw (.document fault)
    | none => if document.followed then throw .severalDocuments else return value

/-- How deep collections may be nested. -/
def depthLimit : Nat := 128

end MessagePress.Yaml
