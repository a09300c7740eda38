import Relay.Journal
import Relay.Tracker

/-!
# Surroundings

The surroundings of a pipeline are its worker pools, its producers, the consumer group and the clock.
`World σ` lists what a pipeline may ask of them; `σ` is the state that they keep. A property that holds
for every world holds whatever fails out there and in whichever order work completes.
-/

namespace Relay

/-- Work that a pipeline is waiting for. -/
inductive Waiting where
  /-- A job on its pool. -/
  | job (job : Job)
  /-- A message on its way. -/
  | shipment (shipment : Shipment)
  /-- Work that rests until an instant before its next attempt. -/
  | rest (wake : Nat)
  /-- Work that has failed already. -/
  | failure
  deriving Repr

/-- How a flush ends. -/
inductive Flush where
  | done
  | failed
  | panicked
  deriving DecidableEq, Repr, Inhabited

/-- What a pipeline may ask of its surroundings. -/
structure World (σ : Type) where
  /-- Read the clock, in nanoseconds. -/
  clock : σ → Nat × σ
  /-- Show the filters the subscribers of the coming batch. -/
  refresh : List Subscriber → σ → σ
  /-- Give a job to its pool; whether the pool accepted it. -/
  submit : Job → σ → Bool × σ
  /-- The result of a job that has ended. -/
  finish : Job → σ → Except ProcessError Outcome × σ
  /-- Cancel the jobs that have not started. -/
  cancelAll : σ → σ
  /-- Let the pools refuse jobs from now on, and wait for those they have. -/
  shutdown : σ → σ
  /-- Which work completes next, by its place in the list; none if no work ever completes. -/
  next : List Waiting → σ → Option Nat × σ
  /-- Connect a producer to a cluster. -/
  create : Source → String → σ → Except PublishError Unit × σ
  /-- Any number, to spread messages over producers. -/
  spread : σ → Nat × σ
  /-- Hand a message to a producer; whether the producer accepted it. -/
  send : Shipment → σ → Except PublishError Unit × σ
  /-- The delivery report of a message. -/
  deliver : Shipment → σ → Except PublishError Unit × σ
  /-- Flush a producer. -/
  flush : String → σ → Flush × σ
  /-- Commit offsets to the consumer group. -/
  commit : Offsets → σ → Except AckError Unit × σ
  /-- Rewind the consumer. -/
  seek : Offsets → σ → Except AckError Unit × σ

/-- The producers of one tenant. -/
structure ProducerPool where
  /-- The tenant. -/
  tenant : String
  /-- The client ids of its producers. -/
  clients : List String
  deriving DecidableEq, Repr, Inhabited

/-- What lasts from one batch of a pipeline to the next. -/
structure Session (σ : Type) where
  /-- The state of the surroundings. -/
  world : σ
  /-- The latest instant that was read. -/
  now : Nat
  /-- What happened so far, the latest event first. -/
  journal : List Event
  /-- The producers by tenant. -/
  pools : SortedMap String ProducerPool
  /-- What the consumer group has accepted. -/
  tracker : Tracker

namespace Session

variable {σ : Type}

/-- A session that begins. -/
def start (world : σ) : Session σ := ⟨world, 0, [], .empty, .empty⟩

/-- Write an event into the journal. -/
def note (e : Event) (s : Session σ) : Session σ := { s with journal := e :: s.journal }

/-- Increase a counter. -/
def count (name : String) (labels : List (String × String)) (n : Nat) (s : Session σ) : Session σ :=
  s.note (.counted ⟨name, labels⟩ n)

/-- Add a value to a distribution. -/
def observe (name : String) (labels : List (String × String)) (s : Session σ) : Session σ :=
  s.note (.observed ⟨name, labels⟩)

/-- Read the clock, which never goes back and has reached `least`. -/
def tick (w : World σ) (least : Nat) (s : Session σ) : Session σ :=
  let (t, world) := w.clock s.world
  { s with world, now := max s.now (max t least) }

/-- Forget what was committed for a partition that is taken away. -/
def revoke (p : Partition) (s : Session σ) : Session σ :=
  { s with tracker := s.tracker.clear p }.note (.revoked p)

end Session

end Relay
