import Relay.Ledger
import Relay.World

/-!
# The course of a batch

While a batch is dispatched, its ledger fills, its summary counts, the payloads to publish collect, and
the producers that took messages are remembered.
-/

namespace Relay

/-- What became of a batch. -/
structure Summary where
  /-- Records that a subscriber takes. -/
  matched : Nat
  /-- Records that no subscriber takes. -/
  unmatched : Nat
  /-- Messages that are no records. -/
  undecodable : Nat
  /-- Records that a filter rejected. -/
  filtered : Nat
  /-- Published records. -/
  published : Nat
  /-- Records given up. -/
  abandoned : Nat
  /-- Next offsets that the consumer group accepted. -/
  committed : Offsets
  /-- Offsets that the consumer was rewound to. -/
  rewound : Offsets
  deriving DecidableEq, Repr, Inhabited

/-- The summary of nothing. -/
def Summary.empty : Summary := ⟨0, 0, 0, 0, 0, 0, .empty, .empty⟩

/-- A record with its mapped payload. -/
structure Mapped where
  /-- The place of the record among the matched records. -/
  slot : Nat
  /-- The record and its subscriber. -/
  routed : Routed
  /-- The payload to publish. -/
  value : Json.Value
  deriving Repr, Inhabited

/-- The state of a dispatch. -/
structure Course (σ : Type) where
  /-- What lasts beyond the batch. -/
  session : Session σ
  /-- The ledger of the batch. -/
  ledger : Ledger
  /-- The counts of the batch. -/
  summary : Summary
  /-- The records that passed their chain, the latest first. -/
  mapped : List Mapped
  /-- The client ids of the producers that took a message. -/
  used : SortedMap String Unit

namespace Course

variable {σ : Type}

/-- The course of a batch that begins. -/
def start (s : Session σ) : Course σ := ⟨s, .empty, .empty, [], .empty⟩

/-- Change what lasts beyond the batch. -/
def on (c : Course σ) (f : Session σ → Session σ) : Course σ := { c with session := f c.session }

/-- Settle a record. -/
def settle (c : Course σ) (place : Coordinates) : Course σ := { c with ledger := c.ledger.settle place }

/-- Settle every place of a list. -/
def settleAll (c : Course σ) (places : List Coordinates) : Course σ := places.foldl settle c

/-- Give a record up. -/
def abandon (c : Course σ) (place : Coordinates) : Course σ :=
  { c with
    ledger := c.ledger.abandon place
    summary := { c.summary with abandoned := c.summary.abandoned + 1 } }

/-- Count a record as filtered out, which settles it. -/
def filterOut (c : Course σ) (place : Coordinates) : Course σ :=
  { c.settle place with summary := { c.summary with filtered := c.summary.filtered + 1 } }

/-- Count a record as published, which settles it. -/
def publish (c : Course σ) (place : Coordinates) : Course σ :=
  { c.settle place with summary := { c.summary with published := c.summary.published + 1 } }

/-- Collect a payload to publish. -/
def collect (c : Course σ) (m : Mapped) : Course σ := { c with mapped := m :: c.mapped }

/-- Remember a producer that took a message. -/
def use (c : Course σ) (client : String) : Course σ := { c with used := c.used.insert client () }

end Course

end Relay
