import Relay.Course

/-!
# Work with retries

Both stages of a dispatch work alike. Each record is launched; while it is in flight the stage waits for
any of its attempts to land; a failed attempt rests before the next one, or its record is abandoned. `Work`
says what launching and landing mean for a stage, and `Work.run` goes on until nothing is in flight. The
surroundings choose which attempt comes next.

`Work.run` takes steps while fuel lasts. `Task.weight` bounds the steps that an attempt can still need, so
the total weight is fuel enough.
-/

namespace Relay

/-- Where an attempt stands. -/
inductive Phase (τ : Type) where
  /-- It waits for an instant to be launched. -/
  | resting (wake : Nat)
  /-- It is in flight. -/
  | flying (ticket : τ)
  /-- It failed at launch. -/
  | failed (giveUp : Bool)
  deriving Repr

/-- An attempt at an item of work. -/
structure Task (α τ : Type) where
  /-- The place of the record among the matched records. -/
  slot : Nat
  /-- The item. -/
  item : α
  /-- The budget used so far. -/
  attempt : Attempt
  /-- Where it stands. -/
  phase : Phase τ
  deriving Repr

/-- How a launch ends. -/
inductive Launch (τ : Type) where
  /-- The attempt is in flight. -/
  | flying (ticket : τ)
  /-- The attempt failed. -/
  | failed (giveUp : Bool)
  /-- The dispatch cannot go on. -/
  | stopped (e : DispatchError)
  deriving Repr

/-- How an attempt lands. -/
inductive Landing where
  /-- The item is done. -/
  | done
  /-- The attempt failed. -/
  | failed (giveUp : Bool)
  /-- The dispatch cannot go on. -/
  | stopped (e : DispatchError)
  deriving Repr, DecidableEq

/-- A kind of work on items of type `α` whose attempts in flight hold a ticket of type `τ`. -/
structure Work (σ α τ : Type) where
  /-- The stage. -/
  stage : Stage
  /-- The counter of failed attempts. -/
  failures : Series
  /-- Where the record of an item stands. -/
  place : α → Coordinates
  /-- Launch an attempt. -/
  launch : Nat → α → Attempt → Course σ → Launch τ × Course σ
  /-- Land an attempt. -/
  land : α → τ → Course σ → Landing × Course σ
  /-- What an attempt in flight looks like from outside. -/
  waiting : τ → Waiting

/-- How work ends. -/
inductive Ending where
  /-- Nothing is in flight. -/
  | over
  /-- The dispatch cannot go on. -/
  | stopped (e : DispatchError)
  /-- What is in flight never lands. -/
  | stuck
  deriving Repr, DecidableEq

/-- When the budget of retries is used, and whether there is one. -/
structure Budget where
  /-- The budget. -/
  policy : RetryPolicy
  /-- Whether failures are retried at all. -/
  enabled : Bool
  deriving Repr

/-- A bound on the number of steps that an attempt can still need: two for each retry, one to launch if
it rests, and one to land. -/
def Task.weight {α τ : Type} (p : RetryPolicy) (t : Task α τ) : Nat :=
  2 * (p.times.toNat - t.attempt.times.toNat) +
    match t.phase with
    | .resting _ => 2
    | .flying _ => 1
    | .failed _ => 1

namespace Work

variable {σ α τ : Type}

/-- What an attempt looks like from outside. -/
def outside (k : Work σ α τ) (t : Task α τ) : Waiting :=
  match t.phase with
  | .resting wake => .rest wake
  | .flying ticket => k.waiting ticket
  | .failed _ => .failure

/-- Judge a failed attempt: it rests before the next one, or its record is abandoned. -/
def fail (k : Work σ α τ) (b : Budget) (t : Task α τ) (giveUp : Bool) (c : Course σ) :
    Option (Task α τ) × Course σ :=
  let now := c.session.now
  let decision := b.policy.decide now t.attempt giveUp b.enabled
  let c := c.on fun s =>
    (s.note (.counted k.failures 1)).note (.judged k.stage t.slot t.attempt now decision)
  match decision with
  | .retry attempt backoff =>
    (some { t with attempt, phase := .resting (now + backoff.nanos) },
      c.on (·.count "task_retries_total" [("stage", k.stage.name)] 1))
  | .abandon reason =>
    let labels := [("stage", k.stage.name), ("reason", reason.name)]
    (none, (c.on (·.count "records_abandoned_total" labels 1)).abandon (k.place t.item))

/-- Let an attempt that is due take its next step. It gives the attempt that is then in flight, if
any. -/
def advance (k : Work σ α τ) (b : Budget) (t : Task α τ) (c : Course σ) :
    Except DispatchError (Option (Task α τ)) × Course σ :=
  match t.phase with
  | .resting _ =>
    match k.launch t.slot t.item t.attempt c with
    | (.flying ticket, c) => (.ok (some { t with phase := .flying ticket }), c)
    | (.failed giveUp, c) => let (t, c) := k.fail b t giveUp c; (.ok t, c)
    | (.stopped e, c) => (.error e, c)
  | .flying ticket =>
    match k.land t.item ticket c with
    | (.done, c) => (.ok none, c)
    | (.failed giveUp, c) => let (t, c) := k.fail b t giveUp c; (.ok t, c)
    | (.stopped e, c) => (.error e, c)
  | .failed giveUp => let (t, c) := k.fail b t giveUp c; (.ok t, c)

/-- The instant before which an attempt takes no step. -/
def due (t : Task α τ) : Nat :=
  match t.phase with
  | .resting wake => wake
  | .flying _ => 0
  | .failed _ => 0

/-- Let the attempt that the surroundings choose take its next step; none if they choose none. -/
def step (w : World σ) (k : Work σ α τ) (b : Budget) (tasks : List (Task α τ)) (c : Course σ) :
    Option (Except DispatchError (List (Task α τ)) × Course σ) :=
  match w.next (tasks.map k.outside) c.session.world with
  | (none, _) => none
  | (some i, world) =>
    match tasks[i]? with
    | none => none
    | some t =>
      match k.advance b t (c.on fun s => { s with world }.tick w (due t)) with
      | (.error e, c) => some (.error e, c)
      | (.ok rest, c) => some (.ok (tasks.eraseIdx i ++ rest.toList), c)

/-- Go on while something is in flight. -/
def run (w : World σ) (k : Work σ α τ) (b : Budget) :
    Nat → List (Task α τ) → Course σ → Ending × Course σ
  | _, [], c => (.over, c)
  | 0, _ :: _, c => (.stuck, c)
  | fuel + 1, t :: ts, c =>
    match k.step w b (t :: ts) c with
    | none => (.stuck, c)
    | some (.error e, c) => (.stopped e, c)
    | some (.ok tasks, c) => run w k b fuel tasks c

/-- Finish what is in flight. -/
def finish (w : World σ) (k : Work σ α τ) (b : Budget) (tasks : List (Task α τ)) (c : Course σ) :
    Ending × Course σ :=
  k.run w b ((tasks.map (·.weight b.policy)).foldr (· + ·) 0) tasks c

/-- Launch the first attempt at each item in turn; an item comes with the place of its record. `keep` says
what becomes of an attempt in flight: it may be let go at once. -/
def launchAll (w : World σ) (k : Work σ α τ) (keep : α → τ → Course σ → Bool × Course σ) :
    List (α × Nat) → Course σ → Except DispatchError (List (Task α τ)) × Course σ
  | [], c => (.ok [], c)
  | (item, slot) :: items, c =>
    let c := c.on (·.tick w 0)
    let attempt := Attempt.first c.session.now
    match k.launch slot item attempt c with
    | (.stopped e, c) => (.error e, c)
    | (.failed giveUp, c) =>
      match launchAll w k keep items c with
      | (.ok tasks, c) => (.ok (⟨slot, item, attempt, .failed giveUp⟩ :: tasks), c)
      | (.error e, c) => (.error e, c)
    | (.flying ticket, c) =>
      let (kept, c) := keep item ticket c
      match launchAll w k keep items c with
      | (.ok tasks, c) =>
        (.ok (if kept then ⟨slot, item, attempt, .flying ticket⟩ :: tasks else tasks), c)
      | (.error e, c) => (.error e, c)

end Work

end Relay
