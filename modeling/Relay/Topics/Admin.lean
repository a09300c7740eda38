import Relay.Journal
import Relay.Topics.Spec

/-!
# Administration of topics

`Admin σ` lists what can be asked of clusters, where `σ` is the state that they keep. A reply may never
come; a caller then gives up after a while. What a run of provisioning asks and counts is kept with it,
the latest first, together with the clusters it is connected to.
-/

namespace Relay

/-- A setting of a topic as its cluster describes it. -/
structure TopicSetting where
  /-- The name. -/
  name : String
  /-- The value, if it is shown. -/
  value : Option String
  /-- Whether the value is a default of the cluster. -/
  isDefault : Bool
  /-- Whether the setting cannot be changed. -/
  isReadOnly : Bool
  deriving DecidableEq, Repr, Inhabited

/-- Whether a setting was made for its topic, and is lost if the settings of the topic are replaced by
others. -/
def TopicSetting.isOverride (s : TopicSetting) : Bool := !s.isDefault && !s.isReadOnly && s.value.isSome

/-- The name and value of a setting that was made for its topic. -/
def TopicSetting.override? (s : TopicSetting) : Option (String × String) :=
  if s.isOverride then s.value.map (s.name, ·) else none

/-- A reply, or none if it never comes. -/
abbrev Reply (α : Type) := Option (Except AdminError α)

/-- A reply that comes in time, or the error of one that does not. -/
def Reply.within {α : Type} (timeout : Duration) (r : Reply α) : Except AdminError α :=
  r.getD (.error (.timedOut timeout))

/-- What can be asked of clusters. Each is known by its addresses. -/
structure Admin (σ : Type) where
  /-- Connect to a cluster. -/
  connect : Source → σ → Except AdminError Unit × σ
  /-- The names of all topics. -/
  list : String → σ → Reply (List String) × σ
  /-- Create topics. -/
  create : String → SortedMap String TopicSpec → σ → Reply Unit × σ
  /-- The settings of topics. -/
  describe : String → List String → σ → Reply (SortedMap String (List TopicSetting)) × σ
  /-- Make settings and leave the others as they are. -/
  revise : String → SortedMap String Overrides → σ → Reply Unit × σ
  /-- Replace all settings that were made. -/
  replace : String → SortedMap String Overrides → σ → Reply Unit × σ

/-- Something that was asked of a cluster. -/
inductive AdminCall where
  | connect
  | list
  | create (topics : SortedMap String TopicSpec)
  | describe (topics : List String)
  | revise (settings : SortedMap String Overrides)
  | replace (settings : SortedMap String Overrides)
  deriving Repr

/-- Clusters under administration. -/
structure Provisioning (σ : Type) where
  /-- The state of the clusters. -/
  clusters : σ
  /-- The addresses of the clusters that are connected. -/
  connected : List String
  /-- What was asked of which cluster, the latest call first. -/
  calls : List (String × AdminCall)
  /-- The counters that were increased, the latest first. -/
  counts : List (Series × Nat)

namespace Provisioning

variable {σ : Type}

/-- Provisioning that begins. -/
def start (clusters : σ) : Provisioning σ := ⟨clusters, [], [], []⟩

/-- Keep a call and the state of the clusters after it. -/
def log (servers : String) (call : AdminCall) (clusters : σ) (s : Provisioning σ) : Provisioning σ :=
  { s with clusters, calls := (servers, call) :: s.calls }

/-- Increase a counter. -/
def count (name : String) (labels : List (String × String)) (n : Nat) (s : Provisioning σ) :
    Provisioning σ :=
  { s with counts := (⟨name, labels⟩, n) :: s.counts }

end Provisioning

end Relay
