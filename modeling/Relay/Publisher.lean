import Relay.Checkpoint
import Relay.World

/-!
# Publishing

Messages leave through producers. Each tenant has a pool of producers that are connected to its cluster
when the first message for it comes; a pool that cannot be completed is not kept. A sequential subscriber
always uses the producer that the checksum of the key picks, so that messages with one key leave in the
order in which they are handed over.
-/

namespace Relay

/-- The settings of a publisher. -/
structure Publisher where
  /-- The pipeline it publishes for. -/
  pipeline : String
  /-- What the names of checkpoint topics start with. -/
  lead : String
  /-- How many producers a tenant has. -/
  poolSize : Nat
  /-- How long a flush may take. -/
  flushTimeout : Duration
  deriving DecidableEq, Repr, Inhabited

namespace ProducerPool

/-- The producer for a record of a subscriber with a key. For a subscriber without order any number
picks one. -/
def select (p : ProducerPool) (s : Subscriber) (key : Bytes) (spread : Nat) : Except ConfigError String :=
  let i := if s.isSequential then (crc32 key).toNat else spread
  match p.clients[i % p.clients.length]? with
  | some client => .ok client
  | none => .error (.missingProducer p.tenant)

end ProducerPool

namespace Publisher

variable {σ : Type}

/-- A publisher has at least one producer for each tenant. -/
def check (p : Publisher) : Except ConfigError Unit :=
  if p.poolSize = 0 then .error (.zeroSize "producer_pool_size") else .ok ()

/-- The topic of a subscriber. -/
def topic (p : Publisher) (s : Subscriber) : String := checkpointTopic p.lead p.pipeline s.id

/-- The client id of a producer of a tenant. -/
def clientId (p : Publisher) (tenant : String) (i : Nat) : String :=
  "checkpoint-" ++ p.pipeline ++ "-" ++ tenant ++ "-" ++ toString i

/-- The client ids of the producers of a tenant. -/
def clientIds (p : Publisher) (tenant : String) : List String :=
  (List.range p.poolSize).map (p.clientId tenant)

/-- Connect producers, one after the other, until one cannot be connected. -/
def connect (w : World σ) (source : Source) : List String → Session σ → Except PublishError Unit × Session σ
  | [], s => (.ok (), s)
  | client :: rest, s =>
    match w.create source client s.world with
    | (.ok (), world) =>
      connect w source rest ({ s with world }.note (.created source.servers client true))
    | (.error e, world) =>
      (.error e, { s with world }.note (.created source.servers client false))

/-- Build the pool of a tenant and keep it. -/
def build (w : World σ) (p : Publisher) (registry : Registry) (tenant : String) (s : Session σ) :
    Except PublishError ProducerPool × Session σ :=
  match registry.source? p.pipeline tenant with
  | none => (.error (.config (.missingTenantSource p.pipeline tenant)), s)
  | some source =>
    match connect w source (p.clientIds tenant) s with
    | (.error e, s) => (.error e, s)
    | (.ok (), s) =>
      let pool : ProducerPool := ⟨tenant, p.clientIds tenant⟩
      (.ok pool, { s.count "producer_pools_created_total" [] 1 with pools := s.pools.insert tenant pool })

/-- The pool of a subscriber's tenant, built when it is first asked for. -/
def obtain (w : World σ) (p : Publisher) (registry : Registry) (subscriber : Subscriber) (s : Session σ) :
    Except PublishError ProducerPool × Session σ :=
  match subscriber.tenant with
  | .error e => (.error (.config e), s)
  | .ok tenant =>
    match s.pools.get? tenant with
    | some pool => (.ok pool, s)
    | none => build w p registry tenant s

/-- The producer for a record of a subscriber with a key. -/
def select (w : World σ) (p : Publisher) (registry : Registry) (subscriber : Subscriber) (key : Bytes)
    (s : Session σ) : Except PublishError String × Session σ :=
  match obtain w p registry subscriber s with
  | (.error e, s) => (.error e, s)
  | (.ok pool, s) =>
    let (spread, world) := if subscriber.isSequential then (0, s.world) else w.spread s.world
    ((pool.select subscriber key spread).mapError .config, { s with world })

/-- Hand the message of a record to its producer. -/
def send (w : World σ) (p : Publisher) (registry : Registry) (slot : Nat) (times : UInt32) (r : Routed)
    (value : Json.Value) (s : Session σ) : Except PublishError Shipment × Session σ :=
  match select w p registry r.subscriber r.record.keyBytes s with
  | (.error e, s) => (.error e, s.note (.unsent slot times e))
  | (.ok client, s) =>
    let shipment : Shipment := ⟨slot, times, client, r.message p.lead p.pipeline value⟩
    match w.send shipment s.world with
    | (.ok (), world) => (.ok shipment, { s with world }.note (.sent shipment (.ok ())))
    | (.error e, world) => (.error e, { s with world }.note (.sent shipment (.error e)))

/-- Flush producers in turn; how the last of them ended. A panic leaves the rest unflushed. -/
def flushAll (w : World σ) : List String → Session σ → Flush × Session σ
  | [], s => (.done, s)
  | client :: rest, s =>
    match w.flush client s.world with
    | (.panicked, world) => (.panicked, { s with world }.note (.flushed client))
    | (_, world) => flushAll w rest ({ s with world }.note (.flushed client))

/-- Flush every producer and drop all pools. A panic leaves the pools as they are. -/
def close (w : World σ) (s : Session σ) : Session σ :=
  match flushAll w (s.pools.values.flatMap (·.clients)) s with
  | (.panicked, s) => s
  | (_, s) => { s with pools := .empty }

end Publisher

end Relay
