import Relay.Executor
import Relay.Json.Access

/-!
# Worker pools at work

Worker pools whose workers act as soon as they can: a submission with room enters the queue, a free worker
takes the first job, and a job ends at once unless its record names a gate that is closed. Between two
requests of a caller nothing is left that could happen, so every answer is determined.

A scripted mapper stands before the mappers of the chain. It notes in which order records with one key
reach it, waits at their gates, and fails as their payloads say.
-/

namespace Relay

open Json

/-- Worker pools with a scripted chain. -/
structure Workers where
  /-- The pools. -/
  executor : Executor
  /-- The chain, with the scripted mapper in it. -/
  chain : Chain Unit
  /-- The gates that are open. -/
  opened : List String
  /-- The gates that records have reached. -/
  reached : List String
  /-- The offsets of the records that reached the scripted mapper, by key. -/
  order : SortedMap String (List Int)
  /-- The submissions that were accepted, in order. -/
  accepted : List Nat
  /-- The submissions whose results were handed out. -/
  awaited : List Nat

/-- What becomes of a submission. -/
inductive Submission where
  /-- It has a number among the accepted submissions. -/
  | accepted (number : Nat)
  /-- There is no room. -/
  | blocked
  /-- The pool takes no job. -/
  | refused (e : ExecutorError)
  deriving Repr

/-- What is known of a submission. -/
inductive Awaited where
  /-- Its result. -/
  | ended (result : Except ProcessError Outcome)
  /-- It has not ended. -/
  | pending
  /-- There is no such submission, or its result was handed out before. -/
  | unknown
  deriving Repr

namespace Routed

/-- Whether the payload of a record asks for a failure. -/
def asksFor (r : Routed) (failure : String) : Bool := r.record.value.boolOr failure false

/-- The gate that a record waits at. -/
def gate? (r : Routed) : Option String := (r.record.value.member? "gate").bind Value.asText?

end Routed

namespace Workers

/-- The mapper that fails as payloads say and changes nothing. A panic leaves no result. -/
def mapper : Mapper Unit where
  name := "SCRIPTED"
  map r c s :=
    if r.asksFor "panic" then (.error .canceled, s)
    else if r.asksFor "give_up" then (.error (.giveUp "scripted"), s)
    else if r.asksFor "fail" then (.error (.failed "scripted"), s)
    else (.ok c, s)

/-- Workers of checked sizes, none of which is too large to be made, with a chain. -/
def start (settings : ExecutorSettings) (chain : Chain Unit) : Except ConfigError Workers := do
  settings.check
  let chain := { chain with mappers := mapper :: chain.mappers }
  return ⟨.ofSettings settings, chain, [], [], .empty, [], []⟩

/-- Whether a record gets past the filters. -/
def reaches (w : Workers) (r : Routed) : Bool :=
  match Chain.passes r w.chain.filters with
  | .ok passed => passed
  | .error _ => false

/-- Whether a record waits at a closed gate. -/
def isHeld (w : Workers) (r : Routed) : Bool :=
  w.reaches r && r.gate?.any fun g => !w.opened.contains g

/-- The workers after a job has begun. -/
def begin (w : Workers) (t : Executor.Task) : Workers :=
  if w.executor.isCanceled t || !w.reaches t.routed then w
  else
    let key := Bytes.shown t.routed.record.keyBytes
    { w with
      reached := t.routed.gate?.toList ++ w.reached
      order := w.order.insert key ((w.order.get? key).getD [] ++ [t.routed.offset]) }

/-- Let a waiting submission of a pool enter its queue. -/
def enter (w : Workers) (lane : Lane) : Option Workers :=
  (w.executor.act (.enter lane)).map fun executor => { w with executor }

/-- Let a free worker of a pool take a job. -/
def take (w : Workers) (lane : Lane) : Option Workers := do
  let (t, _) ← (← w.executor.pool? lane).take
  let executor ← w.executor.act (.start lane)
  return { w with executor }.begin t

/-- Let a job of a pool end that waits at no gate. -/
def finish (w : Workers) (lane : Lane) : Option Workers := do
  let t ← (← w.executor.pool? lane).running.find? fun t => !w.isHeld t.routed
  let result := (w.chain.process t.routed ()).1
  let executor ← w.executor.act (.finish lane t.id (some result))
  return { w with executor }

/-- Something that can happen in some pool. -/
def step? (w : Workers) : Option Workers :=
  w.executor.lanes.findSome? fun lane => w.enter lane <|> w.take lane <|> w.finish lane

/-- The workers after everything that can happen, in so many steps. -/
def run : Nat → Workers → Workers
  | 0, w => w
  | n + 1, w =>
    match w.step? with
    | none => w
    | some w => run n w

/-- The workers after everything that can happen. Each submission enters, starts and ends at most
once. -/
def settle (w : Workers) : Workers := run (3 * w.executor.nextId) w

/-- Do something, and let everything happen that can happen then. An action that is not possible does
nothing. -/
def act (w : Workers) (action : Executor.Action) : Workers :=
  match w.executor.act action with
  | none => w
  | some executor => { w with executor }.settle

/-- Submit a record. A submission without room is dropped. -/
def submit (w : Workers) (r : Routed) : Submission × Workers :=
  let id := w.executor.nextId
  let w := w.act (.submit r)
  match w.executor.refusal? id with
  | some e => (.refused e, w)
  | none =>
    if w.executor.isWaiting id then (.blocked, w.act (.withdraw id))
    else (.accepted w.accepted.length, { w with accepted := w.accepted ++ [id] })

/-- Ask for the result of an accepted submission. -/
def await (w : Workers) (number : Nat) : Awaited × Workers :=
  match w.accepted[number]? with
  | none => (.unknown, w)
  | some id =>
    if w.awaited.contains number then (.unknown, w)
    else
      match w.executor.result? id with
      | none => (.pending, w)
      | some result => (.ended result, { w with awaited := number :: w.awaited })

/-- The accepted submissions whose results were not handed out. -/
def unawaited (w : Workers) : List Nat :=
  (List.range w.accepted.length).filter fun n => !w.awaited.contains n

/-- Cancel an accepted submission. -/
def cancel (w : Workers) (number : Nat) : Workers :=
  match w.accepted[number]? with
  | none => w
  | some id => w.act (.cancel id)

/-- Open a gate. -/
def openGate (w : Workers) (gate : String) : Workers :=
  { w with opened := gate :: w.opened }.settle

/-- Stop the workers of a pool unless it is idle. -/
def abandon (w : Workers) (lane : Lane) : Workers :=
  if (w.executor.pool? lane).all Pool.isIdle then w else w.act (.abort lane)

/-- Close all pools, and stop the workers of those that are not idle then. -/
def shutdown (w : Workers) : Workers :=
  let w := w.act .close
  w.executor.lanes.foldl abandon w

end Workers

/-- The jobs of a pool in the order in which its workers take them, if each ends before the next is
taken. -/
def Pool.drain : Nat → Pool → List Executor.Task
  | 0, _ => []
  | n + 1, p =>
    match p.take, p.enter with
    | some (t, p), _ => t :: drain n p
    | none, some p => drain n p
    | none, none => []

end Relay
