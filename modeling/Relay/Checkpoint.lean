import Relay.Journal
import Relay.Json.Writer

/-!
# Checkpoint messages

A record that passed its chain is republished to the checkpoint topic of its subscriber, under its own
key, with the mapped payload. Two headers after its own say whom the message is for.
-/

namespace Relay

/-- The checkpoint topic of a subscriber. -/
def checkpointTopic (lead pipeline subscriber : String) : String := lead ++ pipeline ++ subscriber

/-- The header that names the subscriber. -/
def tenantHeader : String := "tenant"

/-- The header that says whether records keep their order per key. -/
def sequenceHeader : String := "sequence"

/-- What a checkpoint message says about its subscriber. -/
structure RoutingMetadata where
  /-- The subscriber. -/
  tenant : String
  /-- Whether its records keep their order per key. -/
  sequential : Bool
  deriving DecidableEq, Repr

/-- The routing metadata of a subscriber. -/
def Subscriber.metadata (s : Subscriber) : RoutingMetadata := ⟨s.id, s.isSequential⟩

/-- The headers of a record, followed by the routing metadata. -/
def RoutingMetadata.headers (m : RoutingMetadata) (source : List Header) : List Header :=
  source ++ [
    ⟨tenantHeader, some (Bytes.ofText m.tenant)⟩,
    ⟨sequenceHeader, some (Bytes.ofText (if m.sequential then "true" else "false"))⟩]

/-- The checkpoint message of a record. -/
def Routed.message (r : Routed) (lead pipeline : String) (value : Json.Value) : Outbound where
  topic := checkpointTopic lead pipeline r.subscriber.id
  key := r.record.key
  payload := Bytes.ofText value.write
  headers := r.subscriber.metadata.headers r.record.headers

end Relay
