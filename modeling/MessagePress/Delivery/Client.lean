import MessagePress.Delivery.Sink

/-! The client of a message broker. It is no part of the program, which knows of it only whether
settings are good enough for one, and what becomes of the records that it is handed. -/

namespace MessagePress.Delivery

structure Record where
  topic : String
  /-- Without one the client chooses. -/
  partition : Option Nat
  message : String
  deriving DecidableEq, Repr

/-- A client that is set up, by the words it has for what goes wrong. -/
structure Client where
  /-- Why a record cannot be put in the queue. -/
  enqueue? : Record → Option String
  /-- Why a record does not arrive. -/
  deliver? : Record → Option String
  /-- Why the queue cannot be emptied in time. -/
  flush? : Option String

/-- The records of a batch. A negative partition stands for none. -/
def Batch.records (kafka : Config.Kafka) (batch : Batch) : List Record :=
  let partition := if 0 ≤ kafka.partition then some kafka.partition.toNat else none
  batch.messages.map fun message => ⟨batch.topic, partition, message⟩

/-- Batches are sent record by record. Where deliveries are not waited for, a batch is refused
with the first record that there is no room for, otherwise with the first that does not arrive
and the number of these. -/
def Client.sink (client : Client) (kafka : Config.Kafka) : Sink where
  refusal? batch :=
    let records := batch.records kafka
    if kafka.asynchronous then (records.findSome? client.enqueue?).map .kafka
    else
      match records.filterMap client.deliver? with
      | [] => none
      | cause :: others =>
        some (.undelivered batch.topic (1 + others.length) records.length cause)
  flush? := client.flush?.map .kafka

/-- What lies between the program and its broker. -/
structure Transport where
  /-- Sets up a client, or tells what is wrong with the settings. -/
  connect : Config.Kafka → Except String Client
  /-- How long each push of a schedule takes, in milliseconds. -/
  durations : Nat → Nat

/-- Why a client cannot be set up. -/
inductive ClientFault
  /-- A property outside its range, as it was understood and as it was written. -/
  | outOfRange (property : String) (value : Int) (low high : Int) (written : Nat)
  | timeoutWithinLinger
  deriving DecidableEq, Repr

def ClientFault.message : ClientFault → String
  | .outOfRange property value low high written =>
    "Client config error: Configuration property \"" ++ property ++
      s!"\" value {value} is outside allowed range {low}..{high}\n " ++ property ++ s!" {written}"
  | .timeoutWithinLinger =>
    "Client creation error: `message.timeout.ms` must be greater than `linger.ms`"

/-- How long messages wait for others to join their batch, in milliseconds. -/
def lingerMillis : Nat := 10

/-- Numbers are read up to the greatest signed word of 64 bits, and its low 32 bits are kept
as a signed word. -/
def propertyValue (written : Nat) : Int :=
  ((min written (Nat.pow 2 63 - 1) : Nat) : Int).bmod (Nat.pow 2 32)

/-- A property that has to be within a range. -/
def checkProperty (property : String) (written : Nat) (low high : Int) :
    Except ClientFault Unit :=
  let value := propertyValue written
  if value < low ∨ high < value then .error (.outOfRange property value low high written)
  else .ok ()

/-- Whether a client can be set up with the settings. A timeout of zero stands for none. -/
def checkClient (kafka : Config.Kafka) : Except ClientFault Unit := do
  checkProperty "batch.num.messages" kafka.batchSize 1 1000000
  checkProperty "message.timeout.ms" kafka.timeout.millis 0 2147483647
  let timeout := propertyValue kafka.timeout.millis
  if timeout ≠ 0 ∧ timeout ≤ lingerMillis then throw .timeoutWithinLinger

/-- A client whose broker answers nothing, so that every record times out. -/
def Client.unanswered : Client where
  enqueue? _ := none
  deliver? _ := some "Message production error: MessageTimedOut (Local: Message timed out)"
  flush? := none

/-- A client that checks its settings, and a broker that is not there; pushes take no time. -/
def Transport.isolated : Transport where
  connect kafka := ((checkClient kafka).mapError (·.message)).map fun _ => .unanswered
  durations _ := 0

end MessagePress.Delivery
