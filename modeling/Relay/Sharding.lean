import Relay.Bytes
import Relay.Error

/-!
# Sharding

Subscribers are spread over shards by the checksum of their id, and shards over the instances of the
service. The average strategy gives each instance a block of equal length and the left-over shards,
which stand after all blocks, one each to the first instances.
-/

namespace Relay

/-- A running instance of the service, by its name. -/
structure Instance where
  /-- The name. -/
  id : String
  deriving DecidableEq, Repr, Inhabited

/-- Which shards each instance has. -/
structure Assignment where
  /-- The number of shards. -/
  total : UInt32
  /-- The shards of each instance, in instance order. -/
  items : List (Instance × List UInt32)
  deriving DecidableEq, Repr, Inhabited

namespace Assignment

/-- The assignment to no instances. -/
def empty : Assignment := ⟨0, []⟩

/-- Whether there are no instances. -/
def isEmpty (a : Assignment) : Bool := a.items.isEmpty

/-- The shards of the first instance of a name. -/
def shardsFor (a : Assignment) (id : String) : List UInt32 :=
  ((a.items.find? fun item => item.1.id == id).map (·.2)).getD []

end Assignment

/-- A way to spread shards over instances. -/
inductive Strategy where
  /-- Blocks of equal length, left-over shards to the first instances. -/
  | average
  deriving DecidableEq, Repr

namespace Strategy

/-- The name of a strategy. -/
def name : Strategy → String
  | .average => "AVG_SHARDING"

/-- The strategy of a name. -/
def ofName (n : String) : Except ConfigError Strategy :=
  if n = "AVG_SHARDING" then .ok .average else .error (.unknownType "sharding strategy" n)

/-- The shards from one up to below another. -/
def block (first stop : UInt32) : List UInt32 :=
  (List.range' first.toNat (stop.toNat - first.toNat)).map UInt32.ofNat

/-- The shards of the instance at a position: its block, and a left-over shard if it is among the
first. -/
def averageShards (total n : UInt32) (i : UInt32) : List UInt32 :=
  let share := total / n
  block (i * share) ((i + 1) * share) ++ (if i < total % n then [share * n + i] else [])

/-- Spread a number of shards over instances. -/
def assign (s : Strategy) (total : UInt32) (instances : List Instance) : Assignment :=
  match s with
  | .average =>
    if instances.isEmpty then .empty
    else
      ⟨total, instances.zipIdx.map fun (x, i) =>
        (x, averageShards total (UInt32.ofNat instances.length) (UInt32.ofNat i))⟩

end Strategy

/-- The shard of a subscriber. Without shards it is zero. -/
def subscriberShard (id : String) (total : UInt32) : UInt32 :=
  if total = 0 then 0 else crc32 (Bytes.ofText id) % total

/-- The view of one instance on the assignment. -/
structure Coordinator where
  /-- The strategy. -/
  strategy : Strategy
  /-- The number of shards. -/
  total : UInt32
  /-- The name of this instance. -/
  instanceId : String
  /-- The current assignment. -/
  current : Assignment
  deriving Repr

namespace Coordinator

/-- The instances with repeated names left out after the first. -/
def distinct (instances : List Instance) : List Instance :=
  instances.foldl (fun seen x => if seen.contains x then seen else seen ++ [x]) []

/-- Take note of the running instances. -/
def update (c : Coordinator) (instances : List Instance) : Coordinator :=
  { c with current := c.strategy.assign c.total (distinct instances) }

/-- A coordinator for an instance among the running instances. -/
def start (strategy : Strategy) (total : UInt32) (instanceId : String) (instances : List Instance) :
    Coordinator :=
  update ⟨strategy, total, instanceId, .empty⟩ instances

/-- The shards of this instance. -/
def owned (c : Coordinator) : List UInt32 := c.current.shardsFor c.instanceId

/-- Whether this instance has the shard of a subscriber. -/
def owns (c : Coordinator) (subscriber : String) : Bool :=
  c.owned.contains (subscriberShard subscriber c.total)

end Coordinator

end Relay
