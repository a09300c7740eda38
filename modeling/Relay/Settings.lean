import Relay.Chain
import Relay.Executor
import Relay.Retry
import Relay.ServiceLevel
import Relay.Settings.Client
import Relay.Sharding

/-!
# Settings

Every setting of the service, its default, the variable that it is read from, and what has to hold for
the service to start.
-/

namespace Relay

/-- The settings of the service. -/
structure Settings where
  /-- The address that requests come to. -/
  host : String
  /-- The port that requests come to. -/
  port : Nat
  /-- Whether logs are for people to read. -/
  debug : Bool
  /-- What all clients of clusters share. -/
  client : ClientSettings
  /-- The pipeline. -/
  pipeline : String
  /-- The source topic. -/
  topic : String
  /-- The consumer group. -/
  group : String
  /-- How many records a batch holds at most. -/
  batchSize : Nat
  /-- How long a batch is collected. -/
  batchTimeout : Duration
  /-- The file of the registry. -/
  registryPath : String
  /-- The name of the service level. -/
  level : String
  /-- The budget of retries. -/
  retry : RetryPolicy
  /-- The sizes of the worker pools. -/
  executor : ExecutorSettings
  /-- The names of the filters. -/
  filters : List String
  /-- The names of the mappers. -/
  mappers : List String
  /-- Whether records are republished. -/
  checkpoint : Bool
  /-- What the names of checkpoint topics start with. -/
  lead : String
  /-- The number of partitions of a new checkpoint topic. -/
  partitions : Int
  /-- The number of replicas of a new checkpoint topic. -/
  replication : Int
  /-- How many producers a tenant has. -/
  poolSize : Nat
  /-- How long a flush may take. -/
  flushTimeout : Duration
  /-- How long an administration call may take. -/
  adminTimeout : Duration
  /-- The name of the sharding strategy. -/
  strategy : String
  /-- The number of shards. -/
  shards : UInt32
  /-- The running instances. -/
  instances : List Instance
  /-- The name of this instance. -/
  instanceId : String
  /-- How long a shutdown may take. -/
  shutdownTimeout : Duration
  deriving Repr

namespace Settings

/-- The settings of a service that is told nothing. -/
def standard : Settings where
  host := "0.0.0.0"
  port := 8080
  debug := false
  client := .standard
  pipeline := "default"
  topic := "events"
  group := "stream-connect"
  batchSize := 500
  batchTimeout := .ofMillis 1000
  registryPath := "subscribers.json"
  level := "STRICT"
  retry := ⟨2, .ofMillis 100, some (.ofMillis 5000), 3, .ofMillis 60000⟩
  executor := ⟨8, 1024, 4, 256⟩
  filters := ["POLICY_FILTER"]
  mappers := ["FIELD_MASK_MAPPER"]
  checkpoint := true
  lead := "checkpoint_"
  partitions := 10
  replication := 1
  poolSize := 4
  flushTimeout := .ofMillis 10000
  adminTimeout := .ofMillis 6000
  strategy := "AVG_SHARDING"
  shards := 64
  instances := [⟨"stream-connect-0"⟩]
  instanceId := "stream-connect-0"
  shutdownTimeout := .ofSeconds 30

/-! ## Reading -/

/-- A size. -/
def size : String → Option Nat := Environment.natural 64

/-- A number of milliseconds. -/
def millis (s : String) : Option Duration := (Environment.natural 64 s).map .ofMillis

/-- A number of seconds. -/
def seconds (s : String) : Option Duration := (Environment.natural 64 s).map .ofSeconds

/-- A list of names. -/
def names (s : String) : Option (List String) := some (Environment.items s)

/-- The settings that an environment gives. The first variable that cannot be read is reported. -/
def ofEnvironment (env : Environment) : Except UnreadableVariable Settings := do
  let d := standard
  let host ← env.read "BIND_HOST" d.host some
  let port ← env.read "BIND_PORT" d.port (Environment.natural 16)
  let debug ← env.read "DEBUG" d.debug Environment.flag
  let client ← ClientSettings.ofEnvironment env
  let pipeline ← env.read "PIPELINE_NAME" d.pipeline some
  let topic ← env.read "KAFKA_CONSUMER_TOPIC" d.topic some
  let group ← env.read "KAFKA_CONSUMER_GROUP" d.group some
  let batchSize ← env.read "BATCH_SIZE" d.batchSize size
  let batchTimeout ← env.read "BATCH_TIMEOUT_MS" d.batchTimeout millis
  let registryPath ← env.read "SUBSCRIBERS_PATH" d.registryPath some
  let level ← env.read "QOS" d.level some
  let times ← env.read "MAX_RETRY_TIMES" d.retry.times Environment.word
  let window ← env.read "MAX_RETRY_WINDOW_MS" d.retry.window millis
  let initial ← env.read "RETRY_INITIAL_INTERVAL_MS" d.retry.initial millis
  let coefficient ← env.read "RETRY_BACKOFF_COEFFICIENT" d.retry.coefficient Environment.word
  let maximum ← env.read "RETRY_MAXIMUM_INTERVAL_MS" d.retry.maximum fun s => (millis s).map some
  let workers ← env.read "SHARED_EXECUTOR_POOL_SIZE" d.executor.workers size
  let queue ← env.read "SHARED_EXECUTOR_QUEUE_SIZE" d.executor.queue size
  let isolated ← env.read "SEQUENCE_EXECUTOR_COUNT" d.executor.isolated size
  let isolatedQueue ← env.read "SEQUENCE_EXECUTOR_QUEUE_SIZE" d.executor.isolatedQueue size
  let filters ← env.read "FILTER_TYPES" d.filters names
  let mappers ← env.read "MAPPER_TYPES" d.mappers names
  let checkpoint ← env.read "CHECKPOINT_ENABLED" d.checkpoint Environment.flag
  let lead ← env.read "CHECKPOINT_TOPIC_PREFIX" d.lead some
  let partitions ← env.read "CHECKPOINT_TOPIC_PARTITIONS" d.partitions Environment.integer
  let replication ← env.read "CHECKPOINT_REPLICATION_FACTOR" d.replication Environment.integer
  let poolSize ← env.read "PRODUCER_POOL_SIZE" d.poolSize size
  let flushTimeout ← env.read "PRODUCER_FLUSH_TIMEOUT_MS" d.flushTimeout millis
  let adminTimeout ← env.read "ADMIN_TIMEOUT_MS" d.adminTimeout millis
  let strategy ← env.read "SHARDING_STRATEGY" d.strategy some
  let shards ← env.read "SHARDING_TOTAL_COUNT" d.shards Environment.word
  let instances ← env.read "SERVER_INSTANCES" d.instances fun s => (names s).map (·.map Instance.mk)
  let instanceId ← env.read "INSTANCE_ID" d.instanceId some
  let shutdownTimeout ← env.read "SHUTDOWN_TIMEOUT_SECS" d.shutdownTimeout seconds
  return {
    host, port, debug, client, pipeline, topic, group, batchSize, batchTimeout, registryPath, level
    retry := ⟨coefficient, initial, maximum, times, window⟩
    executor := ⟨workers, queue, isolated, isolatedQueue⟩
    filters, mappers, checkpoint, lead, partitions, replication, poolSize, flushTimeout, adminTimeout
    strategy, shards, instances, instanceId, shutdownTimeout }

/-- The address and port that requests come to. -/
def address (s : Settings) : String := s.host ++ ":" ++ toString s.port

/-- The chain of the named filters and mappers. -/
def chain {σ : Type} (s : Settings) : Except ConfigError (Chain σ) :=
  Chain.ofNames s.filters s.mappers

/-! ## Validity -/

/-- A size that must not be zero. -/
def positive (field : String) (n : Nat) : Except ConfigError Unit :=
  if n = 0 then .error (.zeroSize field) else .ok ()

/-- A number that must be positive. -/
def positiveInt (field : String) (n : Int) : Except ConfigError Unit :=
  if n ≤ 0 then .error (.invalid field ("must be positive, got " ++ toString n)) else .ok ()

theorem positive_eq_ok {field : String} {n : Nat} : positive field n = .ok () ↔ 0 < n := by
  unfold positive
  split <;> simp <;> omega

theorem positiveInt_eq_ok {field : String} {n : Int} : positiveInt field n = .ok () ↔ 0 < n := by
  unfold positiveInt
  split <;> simp <;> omega

/-- The first instance of a list that stands in it or in another list before. -/
def duplicate? : List Instance → List Instance → Option Instance
  | _, [] => none
  | seen, x :: xs => if seen.contains x then some x else duplicate? (x :: seen) xs

/-- Only a list of distinct instances has no duplicate. -/
theorem duplicate?_eq_none {seen xs : List Instance} :
    duplicate? seen xs = none ↔ xs.Nodup ∧ ∀ x ∈ xs, x ∉ seen := by
  induction xs generalizing seen with
  | nil => simp [duplicate?]
  | cons x xs ih =>
    by_cases hx : x ∈ seen
    · simp [duplicate?, hx]
    · rw [duplicate?, if_neg (by simpa using hx), ih, List.nodup_cons]
      constructor
      · intro ⟨hn, hs⟩
        refine ⟨⟨fun hm => hs x hm List.mem_cons_self, hn⟩, fun y hy => ?_⟩
        rcases List.mem_cons.1 hy with rfl | hy
        · exact hx
        · exact fun hm => hs y hy (List.mem_cons_of_mem _ hm)
      · intro ⟨⟨hm, hn⟩, hs⟩
        refine ⟨hn, fun y hy hmem => ?_⟩
        rcases List.mem_cons.1 hmem with rfl | hmem
        · exact hm hy
        · exact hs y (List.mem_cons_of_mem _ hy) hmem

/-- The instances are some, are distinct, and this one is among them. -/
def checkInstances (s : Settings) : Except ConfigError Unit :=
  if s.instances.isEmpty then .error (.invalid "server_instances" "at least one instance is required")
  else
    match duplicate? [] s.instances with
    | some x => .error (.invalid "server_instances" ("instance " ++ x.id ++ " is listed more than once"))
    | none =>
      if s.instances.contains ⟨s.instanceId⟩ then .ok ()
      else .error (.invalid "instance_id" (s.instanceId ++ " is not one of server_instances"))

/-- Refuse settings that the service cannot start with. -/
def validate (s : Settings) : Except ConfigError Unit := do
  positive "batch_size" s.batchSize
  positive "shared_executor_pool_size" s.executor.workers
  positive "shared_executor_queue_size" s.executor.queue
  positive "sequence_executor_count" s.executor.isolated
  positive "sequence_executor_queue_size" s.executor.isolatedQueue
  positive "producer_pool_size" s.poolSize
  positive "sharding_total_count" s.shards.toNat
  positiveInt "checkpoint_topic_partitions" s.partitions
  positiveInt "checkpoint_replication_factor" s.replication
  if s.retry.coefficient = 0 then
    throw (.invalid "retry_backoff_coefficient" "must be at least 1")
  s.checkInstances
  let _ ← ServiceLevel.ofName s.level
  let _ ← Strategy.ofName s.strategy
  let _ : Chain Unit ← s.chain

end Settings

end Relay
