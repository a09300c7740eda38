import Relay.Error
import Relay.Ledger

/-!
# Service levels

A service level says whether failures are retried, whether deliveries are awaited, and how much of a
batch is committed once its records are settled or abandoned.
-/

namespace Relay

/-- How careful a pipeline is with its records. -/
inductive ServiceLevel where
  /-- Commit every batch at once; never retry. -/
  | force
  /-- Retry within the budget, then commit the whole batch. -/
  | atMostOnce
  /-- Retry within the budget, then commit only what is settled without a gap. -/
  | strict
  deriving DecidableEq, Repr, Inhabited

/-- What to commit of a batch. -/
inductive Acknowledgement where
  /-- The whole batch. -/
  | batch (offsets : Offsets)
  /-- The settled run of each partition. -/
  | run (offsets : Offsets)
  deriving Repr, DecidableEq

namespace Acknowledgement

/-- The name of the kind of an acknowledgement. -/
def kind : Acknowledgement → String
  | .batch _ => "commit"
  | .run _ => "prefix"

/-- The offsets to commit. -/
def offsets : Acknowledgement → Offsets
  | .batch o => o
  | .run o => o

/-- Whether what was not committed has to be consumed again. -/
def isRun : Acknowledgement → Bool
  | .batch _ => false
  | .run _ => true

end Acknowledgement

namespace ServiceLevel

/-- The name of a service level. -/
def name : ServiceLevel → String
  | .force => "FORCE"
  | .atMostOnce => "AT_MOST_ONCE"
  | .strict => "STRICT"

/-- The service level of a name. -/
def ofName (n : String) : Except ConfigError ServiceLevel :=
  if n = "FORCE" then .ok .force
  else if n = "AT_MOST_ONCE" then .ok .atMostOnce
  else if n = "STRICT" then .ok .strict
  else .error (.unknownType "qos" n)

/-- Whether failures are retried. -/
def retries : ServiceLevel → Bool
  | .force => false
  | .atMostOnce => true
  | .strict => true

/-- Whether deliveries are awaited before the acknowledgement. -/
def awaitsDelivery : ServiceLevel → Bool
  | .force => false
  | .atMostOnce => true
  | .strict => true

/-- What to commit of the batch of a ledger. -/
def acknowledge (level : ServiceLevel) (l : Ledger) : Acknowledgement :=
  match level with
  | .force => .batch l.ends
  | .atMostOnce => .batch l.ends
  | .strict => .run (l.settledRuns.map fun _ last => last + 1)

/-- The names are read back. -/
theorem ofName_name (level : ServiceLevel) : ofName level.name = .ok level := by
  cases level <;> rfl

end ServiceLevel

end Relay
