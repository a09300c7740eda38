import Relay.Executor
import Relay.Matching
import Relay.Publisher
import Relay.ServiceLevel
import Relay.Work

/-!
# Dispatching batches

A batch is matched with the subscribers, filtered and mapped on the worker pools, published, and
acknowledged as the service level demands. A record that fails is retried within its budget and then
abandoned; it never fails the batch. Only a mistake in the configuration and a closed worker pool do, and
then nothing is committed.
-/

namespace Relay

/-- The settings of a dispatcher. -/
structure Dispatcher where
  /-- Whether records are republished. Otherwise every batch is committed at once. -/
  checkpoint : Bool
  /-- The service level of a pipeline that republishes. -/
  configured : ServiceLevel
  /-- The budget of each stage. -/
  retry : RetryPolicy
  /-- The worker pools. -/
  executor : ExecutorSettings
  /-- How records are published. -/
  publisher : Publisher
  deriving Repr

/-- How a dispatch ends. -/
inductive Dispatched where
  /-- The batch was acknowledged. -/
  | done (summary : Summary) (ledger : Ledger)
  /-- The batch was given back. -/
  | failed (e : DispatchError)
  /-- Some work never ends. -/
  | stuck
  deriving Repr

namespace Dispatcher

variable {σ : Type}

/-- The pipeline. -/
def pipeline (d : Dispatcher) : String := d.publisher.pipeline

/-- The service level in force. -/
def level (d : Dispatcher) : ServiceLevel := if d.checkpoint then d.configured else .force

/-- The budget in force. -/
def budget (d : Dispatcher) : Budget := ⟨d.retry, d.level.retries⟩

/-! ## Filtering and mapping -/

/-- Give a record to its worker pool. -/
def submit (w : World σ) (d : Dispatcher) (slot : Nat) (r : Routed) (a : Attempt) (c : Course σ) :
    Launch Job × Course σ :=
  let job : Job := ⟨slot, a.times, r⟩
  match w.submit job c.session.world with
  | (true, world) => (.flying job, c.on fun s => { s with world }.note (.submitted job true))
  | (false, world) =>
    (.stopped (.executor (.poolClosed (d.executor.lane r).name)),
      c.on fun s => { s with world }.note (.submitted job false))

/-- Take a record back from its worker pool. -/
def harvest (w : World σ) (r : Routed) (job : Job) (c : Course σ) : Landing × Course σ :=
  let (result, world) := w.finish job c.session.world
  let c := c.on fun s => { s with world }.note (.processed job result)
  match result with
  | .ok outcome =>
    if outcome.passed then
      let c := c.on fun s =>
        (s.count "filter_records_total" [("status", "matched")] 1).observe "filter_records_duration_ms" []
      (.done, c.collect ⟨job.slot, r, outcome.carried.value⟩)
    else
      let c := c.on (·.count "filter_records_total" [("status", "filtered")] 1)
      (.done, c.filterOut r.coordinates)
  | .error e => (.failed e.isGiveUp, c)

/-- Filtering and mapping as work. -/
def filterMap (w : World σ) (d : Dispatcher) : Work σ Routed Job where
  stage := .filterMap
  failures := ⟨"filter_records_total", [("status", "failed")]⟩
  place := Routed.coordinates
  launch := submit w d
  land := harvest w
  waiting := .job

/-! ## Publishing -/

/-- Hand the message of a record to its producer. -/
def send (w : World σ) (d : Dispatcher) (registry : Registry) (slot : Nat) (m : Mapped) (a : Attempt)
    (c : Course σ) : Launch Shipment × Course σ :=
  match d.publisher.send w registry slot a.times m.routed m.value c.session with
  | (.ok shipment, session) => (.flying shipment, { c with session }.use shipment.client)
  | (.error e, session) =>
    let c := { c with session }
    match e.escalate with
    | .error e => (.stopped e, c)
    | .ok e => (.failed e.isGiveUp, c)

/-- Take a delivery report. -/
def confirm (w : World σ) (m : Mapped) (shipment : Shipment) (c : Course σ) : Landing × Course σ :=
  let (result, world) := w.deliver shipment c.session.world
  let c := c.on fun s => { s with world }.note (.delivered shipment result)
  match result with
  | .ok () =>
    let c := c.on fun s =>
      (s.count "checkpoint_sent_total" [("status", "success")] 1).observe
        "checkpoint_sent_duration_ms" []
    (.done, c.publish m.routed.coordinates)
  | .error e =>
    match e.escalate with
    | .error e => (.stopped e, c)
    | .ok e => (.failed e.isGiveUp, c)

/-- Publishing as work. -/
def publish (w : World σ) (d : Dispatcher) (registry : Registry) : Work σ Mapped Shipment where
  stage := .publish
  failures := ⟨"checkpoint_sent_total", [("status", "failed")]⟩
  place := fun m => m.routed.coordinates
  launch := send w d registry
  land := confirm w
  waiting := .shipment

/-- Whether the report of an accepted message is awaited. A message that is not is published as soon as
it is accepted. -/
def awaitDelivery (d : Dispatcher) (m : Mapped) (_ : Shipment) (c : Course σ) : Bool × Course σ :=
  if d.level.awaitsDelivery then (true, c)
  else
    let c := c.on (·.count "checkpoint_sent_total" [("status", "enqueued")] 1)
    (false, c.publish m.routed.coordinates)

/-- Flush the producers that took messages, whether the flushes succeed or not. -/
def flushUsed (w : World σ) (c : Course σ) : Course σ :=
  c.used.keys.foldl (fun c client =>
    let (_, world) := w.flush client c.session.world
    c.on fun s => { s with world }.note (.flushed client)) c

/-! ## Acknowledging -/

/-- Rewind the consumer, unless there is nothing to rewind. -/
def rewind (w : World σ) (offsets : Offsets) (c : Course σ) : Course σ :=
  if offsets.isEmpty then c
  else
    match w.seek offsets c.session.world with
    | (.ok (), world) =>
      { c.on fun s => { s with world }.note (.sought offsets true) with
        summary := { c.summary with rewound := offsets } }
    | (.error _, world) => c.on fun s => { s with world }.note (.sought offsets false)

/-- Count every partition of a list under a name. -/
def countPartitions (name : String) (partitions : List Partition) (c : Course σ) : Course σ :=
  partitions.foldl (fun c p =>
    c.on (·.count name [("topic", p.topic), ("partition", toString p.number)] 1)) c

/-- The partitions of a ledger whose end is not among the offsets to commit. -/
def gaps (l : Ledger) (offsets : Offsets) : List Partition :=
  (l.ends.filter fun p stop => offsets.get? p != some stop).keys

/-- Commit offsets that advance; whether that succeeded. -/
def commit (w : World σ) (kind : String) (offsets : Offsets) (c : Course σ) : Bool × Course σ :=
  match w.commit offsets c.session.world with
  | (.ok (), world) =>
    let c := c.on fun s =>
      let s := { s with world }.note (.committed offsets true)
      let s := s.count "acknowledge_total" [("status", "success"), ("kind", kind)] 1
      let s := s.observe "acknowledge_duration_ms" [("kind", kind)]
      { s with tracker := s.tracker.mark offsets }
    (true, { c with summary := { c.summary with committed := offsets } })
  | (.error _, world) =>
    (false, c.on fun s =>
      let s := { s with world }.note (.committed offsets false)
      s.count "acknowledge_total" [("status", "error"), ("kind", kind)] 1)

/-- Commit what the service level allows. After a failed commit the whole batch comes again; otherwise
what lies behind the settled run does, if the service level commits no more. -/
def acknowledge (w : World σ) (level : ServiceLevel) (c : Course σ) : Course σ :=
  if c.ledger.isEmpty then c
  else
    let action := level.acknowledge c.ledger
    let tracker := c.session.tracker
    let c :=
      if action.isRun then
        countPartitions "acknowledge_gap_detected_total" (gaps c.ledger action.offsets) c
      else c
    let c :=
      countPartitions "acknowledge_regression_skipped_total" (tracker.regressing action.offsets) c
    let advancing := tracker.advancing action.offsets
    let (accepted, c) := if advancing.isEmpty then (true, c) else commit w action.kind advancing c
    if !accepted then rewind w (c.ledger.redelivery .empty) c
    else if action.isRun then rewind w (c.ledger.redelivery action.offsets) c
    else c

/-! ## The whole batch -/

/-- Match a batch: undecodable and unmatched messages are settled, and the matched records returned. -/
def matchBatch (subscribers : List Subscriber) (batch : Batch) (c : Course σ) : List Routed × Course σ :=
  let c := c.settleAll (batch.errors.filterMap (·.coordinates?))
  let m := Matching.ofRecords subscribers batch.records
  let c := c.settleAll (m.unmatched.map (·.coordinates))
  let c :=
    if m.unmatched.isEmpty then c else c.on (·.count "records_unmatched_total" [] m.unmatched.length)
  (m.matched, { c with
    summary := { c.summary with
      matched := m.matched.length
      unmatched := m.unmatched.length
      undecodable := batch.errors.length } })

/-- Filter and map the matched records. -/
def runFilterMap (w : World σ) (d : Dispatcher) (matched : List Routed) (c : Course σ) :
    Ending × Course σ :=
  match (filterMap w d).launchAll w (fun _ _ c => (true, c)) matched.zipIdx c with
  | (.error e, c) => (.stopped e, c)
  | (.ok tasks, c) => (filterMap w d).finish w d.budget tasks c

/-- The mapped records, in source order. -/
def sorted (mapped : List Mapped) : List Mapped :=
  mapped.mergeSort fun a b => a.routed.coordinates.le b.routed.coordinates

/-- Publish the mapped records and flush the producers that took them. -/
def runPublish (w : World σ) (d : Dispatcher) (registry : Registry) (c : Course σ) : Ending × Course σ :=
  let items := (sorted c.mapped.reverse).map fun m => (m, m.slot)
  match (publish w d registry).launchAll w d.awaitDelivery items c with
  | (.error e, c) => (.stopped e, c)
  | (.ok tasks, c) =>
    match (publish w d registry).finish w d.budget tasks c with
    | (.over, c) => (.over, flushUsed w c)
    | (ending, c) => (ending, c)

/-- Acknowledge the batch of a course and report on it. -/
def conclude (w : World σ) (d : Dispatcher) (c : Course σ) : Dispatched × Session σ :=
  let c := acknowledge w d.level c
  (.done c.summary c.ledger, c.session.observe "batch_dispatch_duration_ms" [])

/-- Dispatch a batch. -/
def dispatch (w : World σ) (d : Dispatcher) (registry : Registry) (batch : Batch) (s : Session σ) :
    Dispatched × Session σ :=
  let subscribers := registry.subscribers d.pipeline
  let s := { s with world := w.refresh subscribers s.world }
  let (matched, c) := matchBatch subscribers batch (.start s)
  match runFilterMap w d matched c with
  | (.stopped e, c) => (.failed e, { c.session with world := w.cancelAll c.session.world })
  | (.stuck, c) => (.stuck, c.session)
  | (.over, c) =>
    if d.checkpoint then
      match runPublish w d registry c with
      | (.stopped e, c) => (.failed e, c.session)
      | (.stuck, c) => (.stuck, c.session)
      | (.over, c) => conclude w d c
    else conclude w d (c.settleAll ((sorted c.mapped.reverse).map (·.routed.coordinates)))

/-- Dispatch a batch for the consumer, and count an error that stops the pipeline. -/
def process (w : World σ) (d : Dispatcher) (registry : Registry) (batch : Batch) (s : Session σ) :
    Dispatched × Session σ :=
  match d.dispatch w registry batch s with
  | (.failed e, s) =>
    (.failed e,
      if e.isFatal then s.count "batch_dispatch_fatal_total" [("pipeline", d.pipeline)] 1 else s)
  | result => result

/-- Cancel what has not started, wait for the worker pools, and close the producers. -/
def close (w : World σ) (s : Session σ) : Session σ :=
  Publisher.close w { s with world := w.shutdown (w.cancelAll s.world) }

end Dispatcher

end Relay
