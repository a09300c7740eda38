import Relay.Dispatch

/-!
# Rehearsals

A rehearsal is a pipeline among surroundings that follow a script: how the chain treats certain records,
which producers can be connected, what becomes of messages with certain keys, and how commits and rewinds
are answered. What a script leaves open succeeds. Work completes in the order in which it became ready,
and time passes only while everything in flight rests.
-/

namespace Relay

/-- The script of one record in its chain. -/
structure MapScript where
  /-- Where the record stands. -/
  place : Coordinates
  /-- How the coming attempts fail; none for one that passes. -/
  cues : List (Option ProcessError)
  /-- The number of attempts so far. -/
  calls : Nat
  deriving Repr

/-- How a producer treats a message. -/
inductive SendCue where
  /-- The message is accepted, and its delivery reported, unless the report never comes. -/
  | accept (report : Option (Except PublishError Unit))
  /-- The message is refused. -/
  | reject (e : PublishError)
  deriving Repr

/-- The script of the messages with one key. -/
structure SendScript where
  /-- The key. -/
  key : Bytes
  /-- The treatment of the coming messages. -/
  cues : List SendCue
  deriving Repr

/-- Scripted surroundings. -/
structure Rehearsal where
  /-- The chain, with the scripted mapper in it. -/
  chain : Chain (List MapScript)
  /-- The scripts of records. -/
  maps : List MapScript
  /-- The results of jobs that have not been asked for. -/
  results : List ((Nat × UInt32) × Except ProcessError Outcome)
  /-- Whether the worker pools are closed. -/
  closed : Bool
  /-- Whether the coming producers can be connected. -/
  creations : List Bool
  /-- The scripts of messages. -/
  sends : List SendScript
  /-- The delivery reports that have not been asked for. -/
  reports : List ((Nat × UInt32) × Option (Except PublishError Unit))
  /-- How every flush ends. -/
  flush : Flush
  /-- Whether the coming commits are accepted. -/
  commits : List Bool
  /-- Whether the coming rewinds succeed. -/
  seeks : List Bool

namespace MapScript

/-- Play the next cue of the first script for a record. -/
def play (c : Coordinates) : List MapScript → Option ProcessError × List MapScript
  | [] => (none, [])
  | m :: ms =>
    if m.place = c then
      ((m.cues.head?).join, { m with cues := m.cues.tail, calls := m.calls + 1 } :: ms)
    else
      let (cue, ms) := play c ms
      (cue, m :: ms)

/-- The mapper that fails as the scripts say and changes nothing. -/
def mapper : Mapper (List MapScript) where
  name := "SCRIPTED"
  map r c ms :=
    match play r.coordinates ms with
    | (none, ms) => (.ok c, ms)
    | (some e, ms) => (.error e, ms)

end MapScript

namespace SendScript

/-- Play the next cue of the first script for a key. -/
def play (key : Bytes) : List SendScript → SendCue × List SendScript
  | [] => (.accept (some (.ok ())), [])
  | s :: ss =>
    if s.key = key then
      ((s.cues.head?).getD (.accept (some (.ok ()))), { s with cues := s.cues.tail } :: ss)
    else
      let (cue, ss) := play key ss
      (cue, s :: ss)

end SendScript

namespace Rehearsal

/-- The next answer of a script; what is not scripted succeeds. -/
def next (script : List Bool) : Bool × List Bool := (script.head?.getD true, script.tail)

/-- The entry of a key in a list of entries. -/
def lookUp {α : Type} (key : Nat × UInt32) (l : List ((Nat × UInt32) × α)) : Option α :=
  (l.find? fun e => e.1 == key).map (·.2)

/-- Set the entry of a key in a list of entries. -/
def setEntry {α : Type} (key : Nat × UInt32) (a : α) (l : List ((Nat × UInt32) × α)) :
    List ((Nat × UInt32) × α) :=
  (key, a) :: l.filter fun e => e.1 != key

/-- Whether waiting work is complete. -/
def isReady (s : Rehearsal) : Waiting → Bool
  | .job _ => true
  | .shipment x => ((lookUp (x.slot, x.times) s.reports).join).isSome
  | .rest _ => false
  | .failure => true

/-- The place of the work that rests for the shortest time. -/
def soonest : List Waiting → Option (Nat × Nat)
  | [] => none
  | x :: xs =>
    match x, (soonest xs).map fun (i, wake) => (i + 1, wake) with
    | .rest wake, some (i, wake') => if wake ≤ wake' then some (0, wake) else some (i, wake')
    | .rest wake, none => some (0, wake)
    | _, later => later

/-- Which work completes next: the first that is complete, or else what rests for the shortest time. -/
def choose (s : Rehearsal) (waiting : List Waiting) : Option Nat :=
  (waiting.findIdx? s.isReady).orElse fun _ => (soonest waiting).map (·.1)

/-- The scripted surroundings as a world. -/
def world : World Rehearsal where
  clock s := (0, s)
  refresh subscribers s := { s with chain := s.chain.refresh subscribers }
  submit job s :=
    if s.closed then (false, s)
    else
      let (result, maps) := s.chain.process job.routed s.maps
      (true, { s with maps, results := setEntry (job.slot, job.times) result s.results })
  finish job s := ((lookUp (job.slot, job.times) s.results).getD (.error .canceled), s)
  cancelAll s := s
  shutdown s := { s with closed := true }
  next waiting s := (s.choose waiting, s)
  create _ _ s :=
    let (ok, creations) := next s.creations
    (if ok then .ok () else .error (.creation "scripted"), { s with creations })
  spread s := (0, s)
  send x s :=
    match SendScript.play (x.message.key.getD []) s.sends with
    | (.accept report, sends) =>
      (.ok (), { s with sends, reports := setEntry (x.slot, x.times) report s.reports })
    | (.reject e, sends) => (.error e, { s with sends })
  deliver x s := (((lookUp (x.slot, x.times) s.reports).join).getD (.error .canceled), s)
  flush _ s := (s.flush, s)
  commit _ s :=
    let (ok, commits) := next s.commits
    (if ok then .ok () else .error (.other "scripted"), { s with commits })
  seek _ s :=
    let (ok, seeks) := next s.seeks
    (if ok then .ok () else .error (.other "scripted"), { s with seeks })

end Rehearsal

/-- The messages of a journal, the latest first, in the order in which they were handed over. -/
def Event.shipments (journal : List Event) : List Shipment :=
  journal.reverse.filterMap fun
    | .sent x _ => some x
    | _ => none

/-- Shipments in rounds: the first shipment of every message in order, then the second shipments of
messages in the order of their first, and so on. -/
def Shipment.rounds (xs : List Shipment) : List Shipment :=
  let messages := xs.map (·.message)
  let placed := xs.zipIdx.map fun (x, i) =>
    ((messages.take i).count x.message, messages.idxOf x.message, x)
  (placed.mergeSort fun a b => a.1 < b.1 || (a.1 == b.1 && a.2.1 ≤ b.2.1)).map (·.2.2)

end Relay
