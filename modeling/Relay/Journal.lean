import Relay.Chain
import Relay.Registry
import Relay.Retry

/-!
# The journal

What a pipeline asks of its surroundings, what they answer, and what it counts is written into a journal,
the latest event first. Jobs and shipments carry the place of their record among the matched records of its
batch (`slot`) and the number of retries before them, so that the attempts of one record can be told from
those of another.
-/

namespace Relay

/-- A series of measurements. -/
structure Series where
  /-- The name. -/
  name : String
  /-- The labels, in order. -/
  labels : List (String × String)
  deriving DecidableEq, Repr, Inhabited

/-- An attempt to filter and map a record. -/
structure Job where
  /-- The place of the record among the matched records. -/
  slot : Nat
  /-- The number of retries so far. -/
  times : UInt32
  /-- The record. -/
  routed : Routed
  deriving Repr, Inhabited

/-- A message for a checkpoint topic. -/
structure Outbound where
  /-- The topic. -/
  topic : String
  /-- The key. -/
  key : Option Bytes
  /-- The payload. -/
  payload : Bytes
  /-- The headers, in order. -/
  headers : List Header
  deriving DecidableEq, Repr, Inhabited

/-- An attempt to publish a record: a message handed to a producer. -/
structure Shipment where
  /-- The place of the record among the matched records. -/
  slot : Nat
  /-- The number of retries so far. -/
  times : UInt32
  /-- The client id of the producer. -/
  client : String
  /-- The message. -/
  message : Outbound
  deriving DecidableEq, Repr, Inhabited

/-- What a pipeline did or met. -/
inductive Event where
  /-- A counter was increased. -/
  | counted (series : Series) (amount : Nat)
  /-- A value was added to a distribution. -/
  | observed (series : Series)
  /-- A job was handed to its pool, which accepted it or not. -/
  | submitted (job : Job) (accepted : Bool)
  /-- A job ended. -/
  | processed (job : Job) (result : Except ProcessError Outcome)
  /-- A producer was asked for. -/
  | created (servers client : String) (ok : Bool)
  /-- An attempt to publish a record failed before a producer had the message. -/
  | unsent (slot : Nat) (times : UInt32) (e : PublishError)
  /-- A message was handed to a producer, which accepted it or not. -/
  | sent (shipment : Shipment) (result : Except PublishError Unit)
  /-- A delivery was reported. -/
  | delivered (shipment : Shipment) (result : Except PublishError Unit)
  /-- A failed attempt was judged at an instant. -/
  | judged (stage : Stage) (slot : Nat) (attempt : Attempt) (now : Nat) (decision : Decision)
  /-- A producer was flushed. -/
  | flushed (client : String)
  /-- A commit was asked for. -/
  | committed (offsets : Offsets) (ok : Bool)
  /-- The consumer was asked to rewind. -/
  | sought (offsets : Offsets) (ok : Bool)
  /-- A partition was taken away from the consumer. -/
  | revoked (p : Partition)
  deriving Repr

end Relay
