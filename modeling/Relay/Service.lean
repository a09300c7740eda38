import Relay.Dispatch
import Relay.Settings
import Relay.Subscription
import Relay.Topics.Provision

/-!
# The service

A service is put together from its settings and the contents of its registry file. It provisions the
checkpoint topics of the subscribers that this instance is responsible for, and takes the batches of one
pipeline from the topics of its source and dispatches them for all of them.
-/

namespace Relay

/-- Why a service does not start. -/
inductive StartError where
  /-- The settings are refused. -/
  | refused (pipeline topic : String) (cause : ConfigError)
  /-- There is no registry. -/
  | registry (cause : Registry.LoadError)
  /-- A part of the service cannot be built. -/
  | component (cause : ConfigError)
  /-- There is no such member of the consumer group. -/
  | member (group : String)
  /-- There is nothing to subscribe to. -/
  | subscription (topic : String)
  deriving DecidableEq, Repr

/-- The wordings of a start error, from the outermost to the innermost. -/
def StartError.messages : StartError → List String
  | .refused pipeline topic cause =>
    ["Configuration validation failed for pipeline '" ++ pipeline ++ "' on topic '" ++ topic ++ "'",
      cause.message]
  | .registry cause => ["Failed to load subscriber registry", cause.message]
  | .component cause => [cause.message]
  | .member group =>
    ["Failed to create Kafka consumer for group '" ++ group ++ "'", "Failed to create Kafka consumer"]
  | .subscription topic => ["Failed to subscribe to topic: " ++ topic]

/-- A service that is ready to run. -/
structure Service where
  /-- Its settings. -/
  settings : Settings
  /-- The registry. -/
  registry : Registry
  /-- Which subscribers this instance is responsible for. -/
  coordinator : Coordinator
  /-- The member of the consumer group. -/
  member : GroupMember
  /-- The topics of the source. -/
  topics : TopicSelection
  /-- How topics are provisioned. -/
  provisioner : Provisioner
  /-- How batches are dispatched. -/
  dispatcher : Dispatcher
  /-- The filters and mappers. -/
  chain : Chain Unit

namespace Settings

/-- How topics are provisioned. -/
def provisioner (s : Settings) : Provisioner := ⟨s.lead, s.partitions, s.replication, s.adminTimeout⟩

/-- How records are published. -/
def publisher (s : Settings) : Publisher := ⟨s.pipeline, s.lead, s.poolSize, s.flushTimeout⟩

/-- Which subscribers this instance is responsible for. -/
def coordinator (s : Settings) : Except ConfigError Coordinator := do
  return .start (← Strategy.ofName s.strategy) s.shards s.instanceId s.instances

/-- How batches are dispatched. The sizes of the worker pools are looked at here; `Executor.start` makes the pools. -/
def dispatcher (s : Settings) : Except ConfigError Dispatcher := do
  s.executor.check
  s.publisher.check
  return ⟨s.checkpoint, ← ServiceLevel.ofName s.level, s.retry, s.executor, s.publisher⟩

end Settings

namespace Service

/-- The parts of a service with a registry. -/
def build (settings : Settings) (registry : Registry) : Except StartError Service := do
  let coordinator ← settings.coordinator.mapError .component
  let some member := GroupMember.ofSettings? settings.client settings.group
    | throw (.member settings.group)
  let chain ← settings.chain.mapError .component
  let dispatcher ← settings.dispatcher.mapError .component
  let some topics := TopicSelection.ofText? settings.topic | throw (.subscription settings.topic)
  return ⟨settings, registry, coordinator, member, topics, settings.provisioner, dispatcher, chain⟩

/-- Start a service with the contents of its registry file, if it could be read. -/
def start (settings : Settings) (contents : Option Bytes) : Except StartError Service := do
  settings.validate.mapError (.refused settings.pipeline settings.topic)
  let registry ← (Registry.load settings.registryPath contents).mapError .registry
  build settings registry

/-- Provision the topics of the subscribers that this instance is responsible for. Where nothing is
republished there are no topics to provision. -/
def provision {σ : Type} (a : Admin σ) (s : Service) (p : Provisioning σ) :
    List (String × Except AdminError ProvisionReport) × Provisioning σ :=
  if s.settings.checkpoint then
    s.provisioner.provisionAll a s.registry (s.registry.owned s.coordinator) p
  else ([], p)

/-- Run a service that is told to stop before it takes a batch: topics are provisioned and everything is
closed. A pipeline that cannot be provisioned does not keep the service from running. -/
def runNone {σ τ : Type} (a : Admin σ) (w : World τ) (s : Service) (p : Provisioning σ) (b : Session τ) :
    Provisioning σ × Session τ :=
  ((s.provision a p).2, Dispatcher.close w b)

end Service

end Relay
