import Relay.Topics.Admin

/-!
# Clusters in memory

A fleet is a set of clusters by their addresses, each with its topics. It carries out what is asked of it
as brokers do: creating leaves existing topics alone, revising changes the named settings, and replacing
drops what is not named. Single calls can be set to fail, or never to be answered.
-/

namespace Relay

/-- A topic of a cluster. -/
structure ClusterTopic where
  /-- The number of partitions. -/
  partitions : Int
  /-- The number of replicas. -/
  replication : Int
  /-- The settings that the cluster shows. -/
  settings : List TopicSetting
  deriving DecidableEq, Repr, Inhabited

/-- The kinds of calls to a connected cluster. -/
inductive AdminTask where
  | list
  | create
  | describe
  | revise
  | replace
  deriving DecidableEq, Repr

/-- A cluster in memory. -/
structure Cluster where
  /-- Whether single settings can be made. -/
  revisable : Bool
  /-- The topics. -/
  topics : SortedMap String ClusterTopic
  /-- The calls that do not do what they should: each never answers, or fails. -/
  faults : List (AdminTask × Option AdminError)
  /-- The topics that are left out of descriptions. -/
  undescribed : List String
  deriving Repr, Inhabited

/-- Clusters by their addresses. -/
abbrev Fleet := SortedMap String Cluster

namespace ClusterTopic

/-- The setting with a value made for its topic. -/
def made (setting : String × String) : TopicSetting := ⟨setting.1, some setting.2, false, false⟩

/-- A new topic. -/
def ofSpec (spec : TopicSpec) : ClusterTopic :=
  ⟨spec.partitions, spec.replication, spec.overrides.entries.map made⟩

/-- Make one setting, at its first place if it is shown already. -/
def set (setting : String × String) : List TopicSetting → List TopicSetting
  | [] => [made setting]
  | s :: rest => if s.name = setting.1 then made setting :: rest else s :: set setting rest

/-- Make settings and leave the others as they are. -/
def revise (t : ClusterTopic) (settings : Overrides) : ClusterTopic :=
  { t with settings := settings.entries.foldl (fun shown setting => set setting shown) t.settings }

/-- Replace all settings. -/
def replace (t : ClusterTopic) (settings : Overrides) : ClusterTopic :=
  { t with settings := settings.entries.map made }

end ClusterTopic

namespace Cluster

/-- The reply to a call that works unless it was set to fail, and the cluster after it. -/
def reply {α : Type} (c : Cluster) (task : AdminTask) (result : Except AdminError α) (after : Cluster) :
    Reply α × Cluster :=
  match c.faults.find? fun f => f.1 = task with
  | some (_, none) => (none, c)
  | some (_, some e) => (some (.error e), c)
  | none => (some result, after)

/-- Create the missing ones of topics. -/
def create (c : Cluster) (topics : SortedMap String TopicSpec) : Cluster :=
  { c with topics := topics.entries.foldl (fun existing e =>
      if existing.contains e.1 then existing else existing.insert e.1 (.ofSpec e.2)) c.topics }

/-- Change existing topics. -/
def change (f : ClusterTopic → Overrides → ClusterTopic) (settings : SortedMap String Overrides)
    (c : Cluster) : Cluster :=
  { c with topics := c.topics.map fun name topic =>
      match settings.get? name with
      | none => topic
      | some settings => f topic settings }

/-- The settings of topics. -/
def describe (c : Cluster) (names : List String) : SortedMap String (List TopicSetting) :=
  (c.topics.filter fun name _ => names.contains name && !c.undescribed.contains name).map
    fun _ topic => topic.settings

end Cluster

namespace Fleet

/-- Ask a cluster of a fleet. One that does not exist never replies. -/
def ask {α : Type} (servers : String) (f : Cluster → Reply α × Cluster) (fleet : Fleet) :
    Reply α × Fleet :=
  match fleet.get? servers with
  | none => (none, fleet)
  | some c =>
    let (reply, c) := f c
    (reply, fleet.insert servers c)

/-- The administration of a fleet. -/
def admin : Admin Fleet where
  connect source fleet :=
    (if fleet.contains source.servers then .ok () else .error (.resource source.servers "unreachable"),
      fleet)
  list servers := ask servers fun c => c.reply .list (.ok c.topics.keys) c
  create servers topics := ask servers fun c => c.reply .create (.ok ()) (c.create topics)
  describe servers names := ask servers fun c => c.reply .describe (.ok (c.describe names)) c
  revise servers settings := ask servers fun c =>
    if c.revisable then c.reply .revise (.ok ()) (c.change ClusterTopic.revise settings)
    else c.reply .revise (.error (.unsupported "IncrementalAlterConfigs")) c
  replace servers settings := ask servers fun c =>
    c.reply .replace (.ok ()) (c.change ClusterTopic.replace settings)

end Fleet

end Relay
