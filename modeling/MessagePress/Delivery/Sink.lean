import MessagePress.Config.Basic

/-! Where batches of messages go. A sink takes a batch whole or refuses it. -/

namespace MessagePress.Delivery

/-- Messages for one topic, sent together. -/
structure Batch where
  topic : String
  messages : List String
  deriving DecidableEq, Repr

/-- Why a sink refuses a batch, or cannot be opened. -/
inductive SinkFault
  | io (cause : String)
  | kafka (cause : String)
  | undelivered (topic : String) (failed total : Nat) (cause : String)
  deriving DecidableEq, Repr

namespace SinkFault

def cause : SinkFault → String
  | io cause | kafka cause | undelivered _ _ _ cause => cause

def message : SinkFault → String
  | io cause => "IO error: " ++ cause
  | kafka cause => "Kafka error: " ++ cause
  | undelivered topic failed total cause =>
    s!"Failed to deliver {failed} of {total} messages to '" ++ topic ++ "': " ++ cause

/-- The message followed by that of the cause. -/
def chain (fault : SinkFault) : List String := [fault.message, fault.cause]

end SinkFault

/-- A sink, by the batches that it refuses. -/
structure Sink where
  refusal? : Batch → Option SinkFault
  /-- What goes wrong with the batches that it still holds when a run ends. -/
  flush? : Option SinkFault := none
  /-- Whether it prints the batches that it takes. -/
  prints : Bool := false

/-- Standard output, which takes every batch. -/
def Sink.accepting : Sink where
  refusal? _ := none
  prints := true

/-- Refuses the batches of some topics with one fault. -/
def Sink.refusing (topics : List String) (fault : SinkFault) : Sink where
  refusal? batch := if topics.contains batch.topic then some fault else none

/-- A batch as it is printed: each message on a line of its own. -/
def Batch.printed (batch : Batch) : List Char :=
  batch.messages.flatMap fun message => message.toList ++ ['\n']

end MessagePress.Delivery
