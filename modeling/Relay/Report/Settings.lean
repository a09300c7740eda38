import Relay.Report.Errors
import Relay.Report.Records
import Relay.Service

/-!
# Settings in reports

Every setting of the service, with the waits before the first retries, the names of its chain, and whether
the service can start with them.
-/

namespace Relay

open Json

/-- The report of a variable that cannot be read. -/
def UnreadableVariable.report (e : UnreadableVariable) : Value := Report.error "ParseError" e.message []

/-- The report of the settings of clients. -/
def ClientSettings.report (c : ClientSettings) : Value :=
  .ofMembers [
    ("hosts", .text c.hosts),
    ("tls", .bool c.tls),
    ("linger_ms", .ofNat c.linger.toNat),
    ("queue_mib", .ofNat c.queueMebibytes.toNat),
    ("queue_messages", .ofNat c.queueMessages.toNat),
    ("message_timeout_ms", .ofNat c.messageTimeout.toNat),
    ("compression", .text c.compression),
    ("offset_reset", .text c.offsetReset)]

/-- The report of properties. -/
def Properties.report (p : Properties) : Value := .ofMembers (p.entries.map fun e => (e.1, .text e.2))

/-- The report of a budget of retries. -/
def RetryPolicy.report (p : RetryPolicy) : Value :=
  .ofMembers [
    ("times", .ofNat p.times.toNat),
    ("window", p.window.report),
    ("initial", p.initial.report),
    ("coefficient", .ofNat p.coefficient.toNat),
    ("maximum", .ofOption Duration.report p.maximum),
    ("intervals", .ofList (fun n => (p.interval (UInt32.ofNat n)).report) (List.range 5))]

/-- The report of the names of a chain. -/
def Chain.report {σ : Type} : Except ConfigError (Chain σ) → Value
  | .error e => e.report
  | .ok c => .ofMembers [("filters", .ofTexts c.names.1), ("mappers", .ofTexts c.names.2)]

/-- The report of the settings of the service. -/
def Settings.report (s : Settings) : Value :=
  let chain : Except ConfigError (Chain Unit) := s.chain
  let validity : Value := match s.validate with
    | .ok () => .text "ok"
    | .error e => e.report
  .ofMembers [
    ("validate", validity),
    ("bind", .text s.address),
    ("debug", .bool s.debug),
    ("pipeline", .text s.pipeline),
    ("topic", .text s.topic),
    ("group", .text s.group),
    ("batch_size", .ofNat s.batchSize),
    ("batch_timeout", s.batchTimeout.report),
    ("subscribers_path", .text s.registryPath),
    ("qos", .text s.level),
    ("retry", s.retry.report),
    ("executor", .ofList .ofNat [
      s.executor.workers, s.executor.queue, s.executor.isolated, s.executor.isolatedQueue]),
    ("filters", .ofTexts s.filters),
    ("mappers", .ofTexts s.mappers),
    ("chain", Chain.report chain),
    ("checkpoint", .ofMembers [
      ("enabled", .bool s.checkpoint),
      ("prefix", .text s.lead),
      ("partitions", .ofInt s.partitions),
      ("replication", .ofInt s.replication),
      ("pool_size", .ofNat s.poolSize),
      ("flush", s.flushTimeout.report),
      ("admin", s.adminTimeout.report)]),
    ("sharding", .ofMembers [
      ("strategy", .text s.strategy),
      ("total", .ofNat s.shards.toNat),
      ("instances", .ofTexts (s.instances.map (·.id))),
      ("instance", .text s.instanceId)]),
    ("shutdown", s.shutdownTimeout.report),
    ("kafka", s.client.report)]

end Relay
