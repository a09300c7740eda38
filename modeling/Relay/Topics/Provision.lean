import Relay.Topics.Admin

/-!
# Provisioning of checkpoint topics

Missing topics are created and the retention of the others is brought in line; partitions and replicas
of a topic that exists never change. A cluster that cannot make single settings has all settings of a
topic replaced, by those that were made before and the wanted ones. Provisioning again changes nothing.
-/

namespace Relay

/-- What provisioning did, by topic. -/
structure ProvisionReport where
  /-- The topics that were missing. -/
  created : List String
  /-- The topics with other settings than the wanted ones. -/
  altered : List String
  /-- The topics that were as they should be. -/
  unchanged : List String
  deriving DecidableEq, Repr, Inhabited

/-- The report of having done nothing. -/
def ProvisionReport.empty : ProvisionReport := ⟨[], [], []⟩

namespace Provisioner

variable {σ : Type}

/-- Whether settings show every wanted value. -/
def isConverged (wanted : Overrides) (current : List TopicSetting) : Bool :=
  wanted.all fun name value => current.any fun s => s.name == name && s.value == some value

/-- The settings that a topic keeps when all are replaced: those that were made for it, changed by the
wanted ones. -/
def merged (wanted : Overrides) (current : List TopicSetting) : Overrides :=
  .ofList (current.filterMap TopicSetting.override? ++ wanted.entries)

/-- Connect to a cluster, unless that was done before. -/
def connect (a : Admin σ) (source : Source) (s : Provisioning σ) : Except AdminError Unit × Provisioning σ :=
  if s.connected.contains source.servers then (.ok (), s)
  else
    match a.connect source s.clusters with
    | (.error e, clusters) => (.error e, s.log source.servers .connect clusters)
    | (.ok (), clusters) =>
      let s := s.log source.servers .connect clusters
      (.ok (), { s with connected := source.servers :: s.connected })

/-- The names of the topics of a cluster. -/
def list (a : Admin σ) (p : Provisioner) (servers : String) (s : Provisioning σ) :
    Except AdminError (List String) × Provisioning σ :=
  let (reply, clusters) := a.list servers s.clusters
  (reply.within p.timeout, s.log servers .list clusters)

/-- Create topics, if there are any. -/
def create (a : Admin σ) (p : Provisioner) (servers : String) (topics : SortedMap String TopicSpec)
    (s : Provisioning σ) : Except AdminError Unit × Provisioning σ :=
  if topics.isEmpty then (.ok (), s)
  else
    let (reply, clusters) := a.create servers topics s.clusters
    (reply.within p.timeout, s.log servers (.create topics) clusters)

/-- The settings of topics. -/
def describe (a : Admin σ) (p : Provisioner) (servers : String) (topics : List String)
    (s : Provisioning σ) : Except AdminError (SortedMap String (List TopicSetting)) × Provisioning σ :=
  let (reply, clusters) := a.describe servers topics s.clusters
  (reply.within p.timeout, s.log servers (.describe topics) clusters)

/-- Make settings and leave the others as they are. -/
def revise (a : Admin σ) (p : Provisioner) (servers : String) (settings : SortedMap String Overrides)
    (s : Provisioning σ) : Except AdminError Unit × Provisioning σ :=
  let (reply, clusters) := a.revise servers settings s.clusters
  (reply.within p.timeout, s.log servers (.revise settings) clusters)

/-- Replace all settings of topics. -/
def replace (a : Admin σ) (p : Provisioner) (servers : String) (settings : SortedMap String Overrides)
    (s : Provisioning σ) : Except AdminError Unit × Provisioning σ :=
  let (reply, clusters) := a.replace servers settings s.clusters
  (reply.within p.timeout, s.log servers (.replace settings) clusters)

/-- Make settings of topics with the given descriptions, in the one way or in the other. -/
def alter (a : Admin σ) (p : Provisioner) (servers : String) (settings : SortedMap String Overrides)
    (described : SortedMap String (List TopicSetting)) (s : Provisioning σ) :
    Except AdminError Unit × Provisioning σ :=
  if settings.isEmpty then (.ok (), s)
  else
    match revise a p servers settings s with
    | (.error (.unsupported _), s) =>
      let full := settings.map fun topic wanted => merged wanted ((described.get? topic).getD [])
      replace a p servers full s
    | (result, s) => (result, s)

/-- Bring the settings of existing topics in line. -/
def converge (a : Admin σ) (p : Provisioner) (servers : String) (topics : SortedMap String TopicSpec)
    (report : ProvisionReport) (s : Provisioning σ) : Except AdminError ProvisionReport × Provisioning σ :=
  if topics.isEmpty then (.ok report, s)
  else
    match describe a p servers topics.keys s with
    | (.error e, s) => (.error e, s)
    | (.ok described, s) =>
      let converged (topic : String) (spec : TopicSpec) : Bool :=
        isConverged spec.overrides ((described.get? topic).getD [])
      let drifted := topics.filter fun topic spec => !converged topic spec
      match alter a p servers (drifted.map fun _ spec => spec.overrides) described s with
      | (.error e, s) => (.error e, s)
      | (.ok (), s) =>
        (.ok { report with
          altered := report.altered ++ drifted.keys
          unchanged := report.unchanged ++ (topics.filter converged).keys }, s)

/-- Provision topics on a cluster that is connected. -/
def provisionOn (a : Admin σ) (p : Provisioner) (servers : String) (topics : SortedMap String TopicSpec)
    (report : ProvisionReport) (s : Provisioning σ) : Except AdminError ProvisionReport × Provisioning σ :=
  if topics.isEmpty then (.ok report, s)
  else
    match list a p servers s with
    | (.error e, s) => (.error e, s)
    | (.ok existing, s) =>
      let missing := topics.filter fun topic _ => !existing.contains topic
      match create a p servers missing s with
      | (.error e, s) => (.error e, s)
      | (.ok (), s) =>
        converge a p servers (topics.filter fun topic _ => existing.contains topic)
          { report with created := report.created ++ missing.keys } s

/-- Provision topics on clusters, one after the other. -/
def provisionShares (a : Admin σ) (p : Provisioner) :
    List Share → ProvisionReport → Provisioning σ → Except AdminError ProvisionReport × Provisioning σ
  | [], report, s => (.ok report, s)
  | share :: rest, report, s =>
    match connect a share.source s with
    | (.error e, s) => (.error e, s)
    | (.ok (), s) =>
      match provisionOn a p share.source.servers share.topics report s with
      | (.error e, s) => (.error e, s)
      | (.ok report, s) => provisionShares a p rest report s

/-- Provision the topics of the subscribers of a pipeline, each on the cluster of its tenant. -/
def provision (a : Admin σ) (p : Provisioner) (registry : Registry) (pipeline : String)
    (subscribers : List Subscriber) (s : Provisioning σ) :
    Except AdminError ProvisionReport × Provisioning σ :=
  match p.desired registry pipeline subscribers with
  | .error e => (.error (.config e), s)
  | .ok desired => provisionShares a p desired.values .empty s

/-- Count what provisioning a pipeline came to. -/
def tally (pipeline : String) (result : Except AdminError ProvisionReport) (s : Provisioning σ) :
    Provisioning σ :=
  let status (text : String) := [("pipeline", pipeline), ("status", text)]
  match result with
  | .error _ => s.count "topic_provisioning_total" (status "error") 1
  | .ok report =>
    let action (text : String) (topics : List String) :=
      Provisioning.count "topic_actions_total" [("action", text)] topics.length
    (s.count "topic_provisioning_total" (status "success") 1)
      |> action "created" report.created
      |> action "altered" report.altered
      |> action "unchanged" report.unchanged

/-- Provision pipelines one after the other. One that fails does not keep the others. -/
def provisionEach (a : Admin σ) (p : Provisioner) (registry : Registry) :
    List (String × List Subscriber) → Provisioning σ →
      List (String × Except AdminError ProvisionReport) × Provisioning σ
  | [], s => ([], s)
  | (pipeline, subscribers) :: rest, s =>
    let (result, s) := provision a p registry pipeline subscribers s
    let (results, s) := provisionEach a p registry rest (tally pipeline result s)
    ((pipeline, result) :: results, s)

/-- Provision every pipeline, in the order of their names. -/
def provisionAll (a : Admin σ) (p : Provisioner) (registry : Registry)
    (pipelines : SortedMap String (List Subscriber)) (s : Provisioning σ) :
    List (String × Except AdminError ProvisionReport) × Provisioning σ :=
  provisionEach a p registry pipelines.entries s

end Provisioner

end Relay
