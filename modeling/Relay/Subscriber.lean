import Relay.Error
import Relay.Subscriber.Predicate

/-!
# Subscribers

A subscriber consumes part of the source stream through a checkpoint topic of its own. Its rule says
which records it takes, whether they keep their order per key, and under which policies it may see
them; the first policy names the tenant it belongs to.
-/

namespace Relay

/-- The permission of a tenant: which records it may see, and which fields it may not. -/
structure Policy where
  /-- The tenant. -/
  tenant : String
  /-- The records it may see; all of them if there is no condition. -/
  condition : Option Predicate
  /-- Pointers to the fields it may not see. -/
  masks : List String
  deriving Repr, Inhabited

/-- Whether a policy admits a record. -/
def Policy.admits (p : Policy) (r : Record) : Bool :=
  match p.condition with
  | none => true
  | some c => c.accepts r

/-- Which records a subscriber takes, and how. -/
structure Rule where
  /-- Whether records with one key keep their order. -/
  sequential : Bool
  /-- The records it takes. -/
  predicate : Predicate
  /-- Its policies. -/
  policies : List Policy
  deriving Repr, Inhabited

/-- The rule that takes every record in any order, without a policy. -/
def Rule.standard : Rule := ⟨false, .all, []⟩

/-- How long the log of a checkpoint topic is kept. -/
structure Retention where
  /-- Milliseconds. -/
  millis : Int
  /-- Bytes; `-1` for no bound. -/
  bytes : Int
  deriving DecidableEq, Repr, Inhabited

/-- Seven days without a bound on size. -/
def Retention.standard : Retention := ⟨604800000, -1⟩

/-- A registered consumer of the source stream. -/
structure Subscriber where
  /-- Its name. -/
  id : String
  /-- Which records it takes. -/
  rule : Rule
  /-- How long its checkpoint log is kept. -/
  retention : Retention
  deriving Repr, Inhabited

namespace Subscriber

/-- Whether its records keep their order per key. -/
def isSequential (s : Subscriber) : Bool := s.rule.sequential

/-- Whether it takes a record. -/
def accepts (s : Subscriber) (r : Record) : Bool := s.rule.predicate.accepts r

/-- The tenant it belongs to: that of its first policy. -/
def tenant (s : Subscriber) : Except ConfigError String :=
  match s.rule.policies with
  | [] => .error (.missingTenant s.id)
  | p :: _ => .ok p.tenant

/-- Whether some policy of the subscriber admits a record. -/
def permits (s : Subscriber) (r : Record) : Bool := s.rule.policies.any (·.admits r)

/-- The masks of all its policies, in order. -/
def masks (s : Subscriber) : List String := s.rule.policies.flatMap (·.masks)

end Subscriber

/-- Equality of optional predicates. -/
def Policy.conditionEqv : Option Predicate → Option Predicate → Bool
  | none, none => true
  | some a, some b => a.eqv b
  | _, _ => false

/-- Equality of policies. -/
def Policy.eqv (a b : Policy) : Bool :=
  a.tenant == b.tenant && conditionEqv a.condition b.condition && a.masks == b.masks

/-- Equality of lists of policies. -/
def Policy.eqvAll : List Policy → List Policy → Bool
  | [], [] => true
  | a :: as, b :: bs => a.eqv b && eqvAll as bs
  | _, _ => false

/-- Equality of rules. -/
def Rule.eqv (a b : Rule) : Bool :=
  a.sequential == b.sequential && a.predicate.eqv b.predicate && Policy.eqvAll a.policies b.policies

/-- Equality of subscribers. -/
def Subscriber.eqv (a b : Subscriber) : Bool :=
  a.id == b.id && a.rule.eqv b.rule && a.retention == b.retention

/-- A record paired with the subscriber that takes it. -/
structure Routed where
  /-- The subscriber. -/
  subscriber : Subscriber
  /-- The record. -/
  record : Record
  deriving Repr, Inhabited

namespace Routed

/-- Where the record stands. -/
def coordinates (r : Routed) : Coordinates := r.record.coordinates

/-- The partition of the record. -/
def partition (r : Routed) : Partition := r.record.partition

/-- The offset of the record. -/
def offset (r : Routed) : Int := r.record.offset

/-- Paired records are the same if they stand at the same place. -/
def same (a b : Routed) : Bool := a.coordinates == b.coordinates

end Routed

end Relay
