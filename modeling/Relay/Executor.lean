import Relay.Chain

/-!
# Worker pools

Jobs run on worker pools: one pool that all subscribers share, and single-worker pools on which records
of sequential subscribers keep their order per key. Each pool takes accepted jobs in order from a queue of
bounded length; a submission waits while the queue is full.

The pools are a transition system. An `Action` is something that a caller, a worker or the clock does;
`Executor.act` gives the state after it, if it is possible. Nothing is said about when an action comes, so
a property of all lists of actions holds for every interleaving.
-/

namespace Relay

/-- A worker pool, by its role. -/
inductive Lane where
  /-- The pool of the subscribers without order. -/
  | shared
  /-- A single-worker pool. -/
  | isolated (index : Nat)
  deriving DecidableEq, Repr, Inhabited

/-- The name of a pool. -/
def Lane.name : Lane → String
  | .shared => "shared"
  | .isolated i => "sequence-" ++ toString i

/-- The sizes of the worker pools. -/
structure ExecutorSettings where
  /-- The workers of the shared pool. -/
  workers : Nat
  /-- The queue length of the shared pool. -/
  queue : Nat
  /-- The number of single-worker pools. -/
  isolated : Nat
  /-- The queue length of a single-worker pool. -/
  isolatedQueue : Nat
  deriving DecidableEq, Repr, Inhabited

namespace ExecutorSettings

/-- The single-worker pool of a key. -/
def index (s : ExecutorSettings) (key : Bytes) : Nat := (crc32 key).toNat % s.isolated

/-- The pool that a record runs on. -/
def lane (s : ExecutorSettings) (r : Routed) : Lane :=
  if r.subscriber.isSequential then .isolated (s.index r.record.keyBytes) else .shared

/-- Pools without workers are refused. -/
def check (s : ExecutorSettings) : Except ConfigError Unit :=
  if s.workers = 0 then .error (.zeroSize "shared_executor_pool_size")
  else if s.isolated = 0 then .error (.zeroSize "sequence_executor_count")
  else .ok ()

end ExecutorSettings

/-- How much can be made at most. Asked for more, the process panics. -/
structure Executor.Limits where
  /-- The longest queue. -/
  queue : Nat
  /-- The most workers of a pool. -/
  workers : Nat
  /-- The most single-worker pools. -/
  pools : Nat
  deriving DecidableEq, Repr

/-- Why worker pools do not start. -/
inductive Executor.Failure where
  /-- Their sizes are refused. -/
  | refused (cause : ConfigError)
  /-- They are larger than can be made. -/
  | panicked
  deriving DecidableEq, Repr

/-- A submitted record. -/
structure Executor.Task where
  /-- The number of the submission. -/
  id : Nat
  /-- How many cancellations of everything came before the submission. -/
  generation : Nat
  /-- The record. -/
  routed : Routed
  deriving Repr

/-- A pool of workers with a queue. -/
structure Pool where
  /-- Its role. -/
  lane : Lane
  /-- How many jobs run at a time. -/
  workers : Nat
  /-- How many jobs the queue holds. -/
  capacity : Nat
  /-- Submissions that wait for room in the queue, oldest first. -/
  waiting : List Executor.Task
  /-- Accepted jobs, oldest first. -/
  queue : List Executor.Task
  /-- Jobs that workers are running. -/
  running : List Executor.Task
  /-- Whether the workers were stopped. -/
  aborted : Bool
  deriving Repr

namespace Pool

/-- A pool that was made and has no jobs. A queue has room for at least one job. -/
def start (lane : Lane) (workers queue : Nat) : Pool :=
  ⟨lane, workers, max queue 1, [], [], [], false⟩

/-- Make a pool, first its queue and then its workers. -/
def make (limits : Executor.Limits) (lane : Lane) (workers queue : Nat) : Except Executor.Failure Pool :=
  if limits.queue < max queue 1 ∨ limits.workers < workers then .error .panicked
  else .ok (.start lane workers queue)

/-- Make a list with room for single-worker pools, and then these in turn. -/
def makeIsolated (limits : Executor.Limits) (count queue : Nat) : Except Executor.Failure (List Pool) :=
  if limits.pools < count then .error .panicked
  else (List.range count).mapM fun i => make limits (.isolated i) 1 queue

/-- Whether the queue takes one more job. -/
def hasRoom (p : Pool) : Bool := p.queue.length < p.capacity

/-- Accept a job, or let it wait behind those that wait already. -/
def offer (p : Pool) (t : Executor.Task) : Pool :=
  if p.hasRoom && p.waiting.isEmpty then { p with queue := p.queue ++ [t] }
  else { p with waiting := p.waiting ++ [t] }

/-- Let the first waiting submission into the queue. -/
def enter (p : Pool) : Option Pool :=
  match p.waiting with
  | [] => none
  | t :: ts =>
    if p.hasRoom && !p.aborted then some { p with waiting := ts, queue := p.queue ++ [t] } else none

/-- Let a free worker take the first job of the queue: the job, and the pool without it. -/
def take (p : Pool) : Option (Executor.Task × Pool) :=
  match p.queue with
  | [] => none
  | t :: ts =>
    if p.running.length < p.workers && !p.aborted then some (t, { p with queue := ts }) else none

/-- Whether no job is left. -/
def isIdle (p : Pool) : Bool := p.waiting.isEmpty && p.queue.isEmpty && p.running.isEmpty

end Pool

/-- The worker pools and what became of the submissions. -/
structure Executor where
  /-- The sizes. -/
  settings : ExecutorSettings
  /-- The shared pool. -/
  shared : Pool
  /-- The single-worker pools. -/
  isolated : List Pool
  /-- Whether submissions are refused. -/
  closed : Bool
  /-- The number of the next submission. -/
  nextId : Nat
  /-- How often everything was canceled. -/
  generation : Nat
  /-- The jobs that were canceled one by one. -/
  canceled : List Nat
  /-- The pool and number of every job that a worker took, the last one first. -/
  started : List (Lane × Nat)
  /-- The results of jobs, the last one first. -/
  results : List (Nat × Except ProcessError Outcome)
  /-- The refused submissions. -/
  refused : List (Nat × ExecutorError)
  deriving Repr

/-- What can happen to worker pools. -/
inductive Executor.Action where
  /-- A record is submitted. -/
  | submit (r : Routed)
  /-- A waiting submission enters the queue. -/
  | enter (lane : Lane)
  /-- A caller drops its waiting submission. -/
  | withdraw (id : Nat)
  /-- A worker takes a job. -/
  | start (lane : Lane)
  /-- A job ends with a result, or without one if it panicked. -/
  | finish (lane : Lane) (id : Nat) (result : Option (Except ProcessError Outcome))
  /-- One job is canceled. -/
  | cancel (id : Nat)
  /-- Every job submitted so far is canceled. -/
  | cancelAll
  /-- Submissions are refused from now on. -/
  | close
  /-- The workers of a closed pool are stopped before its queue is empty. -/
  | abort (lane : Lane)
  deriving Repr

namespace Executor

/-- The pools of settings, all of which were made. -/
def ofSettings (s : ExecutorSettings) : Executor where
  settings := s
  shared := .start .shared s.workers s.queue
  isolated := (List.range s.isolated).map fun i => .start (.isolated i) 1 s.isolatedQueue
  closed := false
  nextId := 0
  generation := 0
  canceled := []
  started := []
  results := []
  refused := []

/-- Make the pools of checked sizes. -/
def start (limits : Limits) (s : ExecutorSettings) : Except Failure Executor := do
  s.check.mapError .refused
  let shared ← Pool.make limits .shared s.workers s.queue
  let isolated ← Pool.makeIsolated limits s.isolated s.isolatedQueue
  return { ofSettings s with shared, isolated }

/-- The pool of a role. -/
def pool? (e : Executor) : Lane → Option Pool
  | .shared => some e.shared
  | .isolated i => e.isolated[i]?

/-- The executor with one pool replaced. -/
def withPool (e : Executor) (p : Pool) : Lane → Executor
  | .shared => { e with shared := p }
  | .isolated i => { e with isolated := e.isolated.set i p }

/-- The roles of all pools. -/
def lanes (e : Executor) : List Lane := .shared :: (List.range e.isolated.length).map .isolated

/-- Whether a job was canceled. -/
def isCanceled (e : Executor) (t : Task) : Bool :=
  t.generation < e.generation || e.canceled.contains t.id

/-- The result of a job, if it has ended. -/
def result? (e : Executor) (id : Nat) : Option (Except ProcessError Outcome) :=
  (e.results.find? fun r => r.1 == id).map (·.2)

/-- The refusal of a submission. -/
def refusal? (e : Executor) (id : Nat) : Option ExecutorError :=
  (e.refused.find? fun r => r.1 == id).map (·.2)

/-- Whether a submission still waits for room. -/
def isWaiting (e : Executor) (id : Nat) : Bool :=
  e.lanes.any fun lane => (e.pool? lane).any fun p => p.waiting.any fun t => t.id == id

/-- Submit a record. -/
def submit (e : Executor) (r : Routed) : Option Executor :=
  let lane := e.settings.lane r
  let task : Task := ⟨e.nextId, e.generation, r⟩
  let e := { e with nextId := e.nextId + 1 }
  if e.closed then some { e with refused := (task.id, .poolClosed lane.name) :: e.refused }
  else (e.pool? lane).map fun p => e.withPool (p.offer task) lane

/-- Let a worker take a job. A canceled job ends when it is taken. -/
def startJob (e : Executor) (lane : Lane) : Option Executor := do
  let p ← e.pool? lane
  let (t, p) ← p.take
  let e := { e with started := (lane, t.id) :: e.started }
  if e.isCanceled t then
    return { e.withPool p lane with results := (t.id, .error .canceled) :: e.results }
  else
    return e.withPool { p with running := p.running ++ [t] } lane

/-- End a running job. -/
def finishJob (e : Executor) (lane : Lane) (id : Nat) (result : Option (Except ProcessError Outcome)) :
    Option Executor := do
  let p ← e.pool? lane
  let t ← p.running.find? fun t => t.id == id
  let p := { p with running := p.running.filter fun t' => t'.id != t.id }
  return { e.withPool p lane with results := (id, result.getD (.error .canceled)) :: e.results }

/-- Stop the workers of a pool. Jobs that no worker has taken are canceled, waiting submissions are
refused, and running jobs go on. -/
def abortPool (e : Executor) (lane : Lane) : Option Executor := do
  let p ← e.pool? lane
  if e.closed then
    return { e.withPool { p with waiting := [], queue := [], aborted := true } lane with
      results := (p.queue.map fun t => (t.id, .error .canceled)) ++ e.results
      refused := (p.waiting.map fun t => (t.id, .poolClosed lane.name)) ++ e.refused }
  else none

/-- The executor after an action, if the action is possible. -/
def act (e : Executor) : Action → Option Executor
  | .submit r => e.submit r
  | .enter lane => do return e.withPool (← (← e.pool? lane).enter) lane
  | .withdraw id =>
    let drop (p : Pool) : Pool := { p with waiting := p.waiting.filter fun t => t.id != id }
    some { e with shared := drop e.shared, isolated := e.isolated.map drop }
  | .start lane => e.startJob lane
  | .finish lane id result => e.finishJob lane id result
  | .cancel id => some { e with canceled := id :: e.canceled }
  | .cancelAll => some { e with generation := e.generation + 1 }
  | .close => some { e with closed := true }
  | .abort lane => e.abortPool lane

/-- The executor after a list of actions, if each is possible in its turn. -/
def run (e : Executor) (actions : List Action) : Option Executor := actions.foldlM act e

end Executor

end Relay
