import MessagePress.Yaml.Event
import MessagePress.Yaml.Scalar

/-! Documents as trees. A document whose text has a fault is kept up to the fault: its open
collections stay incomplete, so that what comes before the fault can still be looked at. -/

namespace MessagePress.Yaml

inductive Node
  /-- A document without any node. -/
  | void (mark : Mark)
  | scalar (mark : Mark) (tag : Option TagBytes) (text : List Char) (style : ScalarStyle)
  | alias (mark : Mark) (target : Nat)
  | sequence (mark : Mark) (tag : Option TagBytes) (items : List Node) (complete : Bool)
  /-- Keys and values in turn. -/
  | mapping (mark : Mark) (tag : Option TagBytes) (entries : List Node) (complete : Bool)
  deriving Repr

def Node.mark : Node → Mark
  | .void mark | .scalar mark _ _ _ | .alias mark _ | .sequence mark _ _ _ | .mapping mark _ _ _ =>
    mark

def Node.tag : Node → Option TagBytes
  | .void _ | .alias _ _ => none
  | .scalar _ tag _ _ | .sequence _ tag _ _ | .mapping _ tag _ _ => tag

/-- Why a document is not read to its end. -/
inductive DocumentFault
  | broken (fault : SyntaxFault)
  | unknownAnchor (mark : Mark)
  deriving DecidableEq, Repr

/-- A node, if one was met, with the nodes that aliases stand for and the count of all nodes'
events. -/
structure Document where
  root : Option Node
  anchored : List (Nat × Node)
  size : Nat
  fault : Option DocumentFault
  /-- Whether anything but the end of the stream follows. -/
  followed : Bool

/-- An open collection: its items so far, newest first. -/
structure Frame where
  mapping : Bool
  mark : Mark
  tag : Option TagBytes
  place : Nat
  items : List Node

/-- The tree so far. An anchor gets the number of names known before it, so a name given anew
may share its number with a later one; of those the last stands. -/
structure Grove where
  frames : List Frame := []
  root : Option Node := none
  size : Nat := 0
  names : List (List Char × Nat) := []
  places : List (Nat × Nat) := []
  nodes : List (Nat × Node) := []

namespace Grove

/-- How many different names are known. -/
def nameCount (grove : Grove) : Nat := (grove.names.map (·.1)).eraseDups.length

/-- Numbers an anchor of the next event. -/
def anchor (name? : Option (List Char)) (grove : Grove) : Grove :=
  match name? with
  | none => grove
  | some name =>
    let number := grove.nameCount
    { grove with
      names := (name, number) :: grove.names
      places := (number, grove.size) :: grove.places }

/-- Adds a finished node that began with the event at `place`. -/
def add (place : Nat) (node : Node) (grove : Grove) : Grove :=
  let grove := { grove with nodes := (place, node) :: grove.nodes }
  match grove.frames with
  | [] => { grove with root := some node }
  | frame :: rest => { grove with frames := { frame with items := node :: frame.items } :: rest }

def counted (grove : Grove) : Grove := { grove with size := grove.size + 1 }

def openFrame (mapping : Bool) (mark : Mark) (properties : Properties) (grove : Grove) : Grove :=
  let grove := grove.anchor properties.anchor
  { grove with frames := ⟨mapping, mark, properties.tag, grove.size, []⟩ :: grove.frames }.counted

/-- Closes the innermost collection. -/
def closeFrame (complete : Bool) (grove : Grove) : Grove :=
  match grove.frames with
  | [] => grove
  | frame :: rest =>
    let items := frame.items.reverse
    let node :=
      if frame.mapping then Node.mapping frame.mark frame.tag items complete
      else Node.sequence frame.mark frame.tag items complete
    { grove with frames := rest }.add frame.place node

/-- Closes all collections, none of which is complete. -/
def closeAll (grove : Grove) : Grove :=
  grove.frames.foldl (fun grove _ => grove.closeFrame false) grove

def document (grove : Grove) (fault : Option DocumentFault) (followed : Bool) : Document :=
  let grove := grove.closeAll
  let numbers := (grove.places.map (·.1)).eraseDups
  let anchored := numbers.filterMap fun number => do
    let place ← grove.places.lookup number
    return (number, ← grove.nodes.lookup place)
  { root := grove.root, anchored, size := grove.size, fault, followed }

/-- Takes events up to the end of a document. -/
def ofEvents (fault : Option SyntaxFault) : List Event → Grove → Document
  | [], grove => grove.document (fault.map .broken) false
  | event :: rest, grove =>
    match event.kind with
    | .documentStart => ofEvents fault rest grove
    | .documentEnd =>
      let followed := match rest with
        | next :: _ => next.kind != .streamEnd
        | [] => true
      grove.document none followed
    | .streamEnd =>
      ({ grove with root := some (.void event.mark) } : Grove).counted.document none false
    | .alias name =>
      match grove.names.lookup name with
      | some number => ofEvents fault rest (grove.add grove.size (.alias event.mark number)).counted
      | none => grove.document (some (.unknownAnchor event.mark)) false
    | .scalar properties text style =>
      let grove := grove.anchor properties.anchor
      ofEvents fault rest
        (grove.add grove.size (.scalar event.mark properties.tag text style)).counted
    | .sequenceStart properties => ofEvents fault rest (grove.openFrame false event.mark properties)
    | .mappingStart properties => ofEvents fault rest (grove.openFrame true event.mark properties)
    | .sequenceEnd => ofEvents fault rest (grove.closeFrame true).counted
    | .mappingEnd => ofEvents fault rest (grove.closeFrame true).counted

end Grove

/-- The first document of a stream of events. -/
def Document.ofEvents (stream : EventStream) : Document :=
  Grove.ofEvents stream.fault stream.events {}

def Document.ofBytes (bytes : List UInt8) : Document :=
  Document.ofEvents (EventStream.ofBytes bytes)

end MessagePress.Yaml
