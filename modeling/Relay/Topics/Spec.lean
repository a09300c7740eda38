import Relay.Checkpoint

/-!
# Checkpoint topics as they should be

Every subscriber has a checkpoint topic on the cluster of its tenant. What is wanted of these topics is
grouped by cluster, and a cluster is known by the addresses to connect to first. Nothing is wanted of any
cluster unless the cluster of every subscriber is known.
-/

namespace Relay

/-- The explicit settings of a topic. -/
abbrev Overrides := SortedMap String String

/-- What is wanted of a topic. -/
structure TopicSpec where
  /-- The number of partitions, if the topic has to be created. -/
  partitions : Int
  /-- The number of replicas, if the topic has to be created. -/
  replication : Int
  /-- How long its log is kept. -/
  retention : Retention
  deriving DecidableEq, Repr, Inhabited

/-- The settings that are wanted of a topic. -/
def TopicSpec.overrides (s : TopicSpec) : Overrides :=
  .ofList [
    ("retention.ms", toString s.retention.millis),
    ("retention.bytes", toString s.retention.bytes)]

/-- Nothing but the retention is set. -/
theorem TopicSpec.entries_overrides (s : TopicSpec) :
    s.overrides.entries = [
      ("retention.bytes", toString s.retention.bytes),
      ("retention.ms", toString s.retention.millis)] := by
  have h : compare "retention.bytes" "retention.ms" = .lt := by decide
  simp [TopicSpec.overrides, SortedMap.ofList, SortedMap.insert, SortedMap.place, SortedMap.empty, h]

/-- What is wanted of one cluster. -/
structure Share where
  /-- The cluster. -/
  source : Source
  /-- The topics, by name. -/
  topics : SortedMap String TopicSpec
  deriving Repr, Inhabited

/-- What is wanted of each cluster, by its addresses. -/
abbrev Desired := SortedMap String Share

/-- How checkpoint topics are provisioned. -/
structure Provisioner where
  /-- What the names of checkpoint topics start with. -/
  lead : String
  /-- The number of partitions of a new topic. -/
  partitions : Int
  /-- The number of replicas of a new topic. -/
  replication : Int
  /-- How long a call may take. -/
  timeout : Duration
  deriving DecidableEq, Repr, Inhabited

namespace Provisioner

/-- What is wanted of the topic of a subscriber. -/
def spec (p : Provisioner) (s : Subscriber) : TopicSpec := ⟨p.partitions, p.replication, s.retention⟩

/-- The cluster that the topic of a subscriber belongs on. -/
def source (registry : Registry) (pipeline : String) (s : Subscriber) : Except ConfigError Source :=
  match s.tenant with
  | .error e => .error e
  | .ok tenant =>
    match registry.source? pipeline tenant with
    | none => .error (.missingTenantSource pipeline tenant)
    | some source => .ok source

/-- Add the topic of a subscriber to what is wanted of its cluster. Of subscribers with one topic the
last counts. -/
def place (p : Provisioner) (pipeline : String) (s : Subscriber) (source : Source) (d : Desired) :
    Desired :=
  let share := (d.get? source.servers).getD ⟨source, .empty⟩
  let topic := checkpointTopic p.lead pipeline s.id
  d.insert source.servers { share with topics := share.topics.insert topic (p.spec s) }

/-- Add the topics of subscribers to what is wanted, or report the first that belongs nowhere. -/
def placeAll (p : Provisioner) (registry : Registry) (pipeline : String) :
    List Subscriber → Desired → Except ConfigError Desired
  | [], d => .ok d
  | s :: ss, d =>
    match source registry pipeline s with
    | .error e => .error e
    | .ok source => placeAll p registry pipeline ss (p.place pipeline s source d)

/-- What is wanted for the subscribers of a pipeline. -/
def desired (p : Provisioner) (registry : Registry) (pipeline : String) (subscribers : List Subscriber) :
    Except ConfigError Desired :=
  p.placeAll registry pipeline subscribers .empty

end Provisioner

end Relay
