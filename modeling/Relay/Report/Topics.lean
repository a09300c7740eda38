import Relay.Report.Errors
import Relay.Json.Access
import Relay.Topics.Fleet
import Relay.Topics.Provision

/-!
# Topics in reports

How wanted topics, calls to clusters, the state of clusters and the result of provisioning are written in
reports. The shape of a topic is a list: its name, partitions and replicas, then what is wanted of it.
-/

namespace Relay

open Json

/-- The report of explicit settings. -/
def Overrides.report (o : Overrides) : Value := .ofMembers (o.entries.map fun e => (e.1, .text e.2))

/-- The report of explicit settings by topic. -/
def Overrides.reportAll (all : SortedMap String Overrides) : Value :=
  .ofMembers (all.entries.map fun e => (e.1, Overrides.report e.2))

/-- The report of what is wanted of each cluster. -/
def Desired.report (d : Desired) : Value :=
  let topic (e : String × TopicSpec) : Value :=
    .list [.text e.1, .ofInt e.2.partitions, .ofInt e.2.replication, e.2.overrides.report]
  .ofList (fun e => .list [
    .text e.1, .text e.2.source.servers, .ofList topic e.2.topics.entries]) d.entries

/-- The report of a call: its name, and what it was about. -/
def AdminCall.report (servers : String) (call : AdminCall) : Value :=
  let topic (e : String × TopicSpec) : Value :=
    .list [.text e.1, .ofInt e.2.partitions, .ofInt e.2.replication, .ofInt e.2.retention.millis,
      .ofInt e.2.retention.bytes]
  let about : String × Value := match call with
    | .connect => ("connect", .null)
    | .list => ("list", .null)
    | .create topics => ("create", .ofList topic topics.entries)
    | .describe topics => ("describe", .ofTexts topics)
    | .revise settings => ("incremental", Overrides.reportAll settings)
    | .replace settings => ("alter", Overrides.reportAll settings)
  .list [.text servers, .text about.1, about.2]

/-- The report of clusters: the settings of every topic, in the order in which they are shown. -/
def Fleet.report (fleet : Fleet) : Value :=
  let topic (t : ClusterTopic) : Value :=
    .ofList (fun s => .list [.text s.name, .ofOption .text s.value]) t.settings
  .ofMembers (fleet.entries.map fun (servers, c) =>
    (servers, .ofMembers (c.topics.entries.map fun (name, t) => (name, topic t))))

/-- The report of what provisioning came to. -/
def ProvisionReport.report : Except AdminError ProvisionReport → Value
  | .error e => e.report
  | .ok r => .ofMembers [
      ("created", .ofTexts r.created),
      ("altered", .ofTexts r.altered),
      ("unchanged", .ofTexts r.unchanged)]

end Relay
