import Relay.Proofs.Connections
import Relay.Proofs.Numerals
import Relay.Proofs.Reckoning
import Relay.Proofs.SettledRun

/-!
# The counters of a dispatch balance

Every branch of a dispatch counts what it does: a verdict of a filter, a failed attempt, a retry, a record given up, a
message sent. So the counters have to agree with one another and with the summary of the batch. They do because each
step keeps the books (`Booked`): what it counts is what it does to the records, with nothing left out and nothing
counted twice. Books of steps in a row add up, whatever the surroundings make of the steps.
-/

namespace Relay

/-! ## Reading counters -/

/-- By how much an event increases a counter. All series of its name count that have the labels asked for. -/
@[simp] def Event.increase (asked : Series) : Event → Nat
  | .counted series amount =>
    if series.name = asked.name ∧ ∀ label ∈ asked.labels, label ∈ series.labels then amount else 0
  | _ => 0

/-- By how much some events increase a counter. -/
def increases (asked : Series) (events : List Event) : Nat := (events.map (·.increase asked)).sum

/-- By how much a counter grows from one session to the next. -/
def Session.grown {σ : Type} (s s' : Session σ) (asked : Series) : Nat := increases asked (s.written s')

@[simp] theorem increases_nil (asked : Series) : increases asked [] = 0 := rfl

@[simp] theorem increases_cons (asked : Series) (e : Event) (events : List Event) :
    increases asked (e :: events) = e.increase asked + increases asked events := rfl

@[simp] theorem increases_append (asked : Series) (events events' : List Event) :
    increases asked (events ++ events') = increases asked events + increases asked events' := by
  rw [increases, List.map_append, List.sum_append]
  rfl

theorem increases_eq_zero {asked : Series} {events : List Event} (h : ∀ e ∈ events, e.increase asked = 0) :
    increases asked events = 0 := by
  induction events with
  | nil => rfl
  | cons e events ih =>
    obtain ⟨he, hevents⟩ := List.forall_mem_cons.1 h
    rw [increases_cons, he, ih hevents]

/-- The counter of what a filter said of records. -/
@[simp] def filterRecords (status : String) : Series := ⟨"filter_records_total", [("status", status)]⟩

/-- The counter of what became of messages. -/
@[simp] def checkpointSent (status : String) : Series := ⟨"checkpoint_sent_total", [("status", status)]⟩

/-- The counter of the retries in a stage. -/
@[simp] def taskRetries (stage : Stage) : Series := ⟨"task_retries_total", [("stage", stage.name)]⟩

/-- The counter of the records given up in a stage. -/
@[simp] def recordsAbandoned (stage : Stage) : Series := ⟨"records_abandoned_total", [("stage", stage.name)]⟩

/-- The counter of the failed attempts in a stage. -/
@[simp] def Stage.failures : Stage → Series
  | .filterMap => filterRecords "failed"
  | .publish => checkpointSent "failed"

/-- The names of the counters that tell of records. -/
def recordCounters : List String :=
  ["filter_records_total", "checkpoint_sent_total", "task_retries_total", "records_abandoned_total",
    "records_unmatched_total", "acknowledge_gap_detected_total"]

/-- Whether an event says nothing to the counters of records. -/
def Event.isUncounted : Event → Bool
  | .counted series _ => series.name ∉ recordCounters
  | _ => true

theorem Event.increase_of_isUncounted {e : Event} {asked : Series} (he : e.isUncounted = true)
    (hasked : asked.name ∈ recordCounters) : e.increase asked = 0 := by
  cases e with
  | counted series amount =>
    refine if_neg fun h => ?_
    rw [← h.1] at hasked
    simp only [isUncounted, hasked, not_true_eq_false, decide_false, Bool.false_eq_true] at he
  | _ => rfl

theorem increases_of_isUncounted {asked : Series} {events : List Event} (h : ∀ e ∈ events, e.isUncounted = true)
    (hasked : asked.name ∈ recordCounters) : increases asked events = 0 :=
  increases_eq_zero fun e he => e.increase_of_isUncounted (h e he) hasked

/-! ## Books -/

/-- From one course to another some events are written down, and their counts agree with what becomes of the records
and with each other. -/
structure Booked {σ : Type} (d : Dispatcher) (events : List Event) (c c' : Course σ) : Prop where
  journal : c'.session.journal = events ++ c.session.journal
  /-- The consumer group is not concerned. -/
  group : ∀ e ∈ events, e.isGroup = false
  filtered : c'.summary.filtered = c.summary.filtered + increases (filterRecords "filtered") events
  mapped : c'.mapped.length = c.mapped.length + increases (filterRecords "matched") events
  published : c'.summary.published =
    c.summary.published + (increases (checkpointSent "success") events + increases (checkpointSent "enqueued") events)
  /-- A message counts when it is accepted or when it is delivered, as the service level says. -/
  level : if d.level = .force then increases (checkpointSent "success") events = 0
    else increases (checkpointSent "enqueued") events = 0
  /-- A failed attempt is retried or the last one. -/
  failed : ∀ stage : Stage, increases stage.failures events =
    increases (taskRetries stage) events + increases (recordsAbandoned stage) events
  abandoned : c'.summary.abandoned = c.summary.abandoned + increases ⟨"records_abandoned_total", []⟩ events
  stages : increases ⟨"records_abandoned_total", []⟩ events =
    increases (recordsAbandoned .filterMap) events + increases (recordsAbandoned .publish) events
  unmatched : c'.summary.unmatched = c.summary.unmatched + increases ⟨"records_unmatched_total", []⟩ events
  gaps : ∀ labels, increases ⟨"acknowledge_gap_detected_total", labels⟩ events = 0

section Books

variable {σ : Type} {w : World σ} {d : Dispatcher} {registry : Registry} {events events' : List Event}
  {c c' c'' : Course σ}

/-- Books add up. -/
theorem Booked.trans (h : Booked d events c c') (h' : Booked d events' c' c'') : Booked d (events' ++ events) c c'' where
  journal := by rw [h'.journal, h.journal, List.append_assoc]
  group e he := (List.mem_append.1 he).elim (h'.group e) (h.group e)
  filtered := by rw [h'.filtered, h.filtered, increases_append]; omega
  mapped := by rw [h'.mapped, h.mapped, increases_append]; omega
  published := by rw [h'.published, h.published, increases_append, increases_append]; omega
  level := by
    have hlevel := h.level
    have hlevel' := h'.level
    split at hlevel
    · next hforce =>
      rw [if_pos hforce] at hlevel' ⊢
      rw [increases_append, hlevel, hlevel']
    · next hforce =>
      rw [if_neg hforce] at hlevel' ⊢
      rw [increases_append, hlevel, hlevel']
  failed stage := by rw [increases_append, increases_append, increases_append, h'.failed, h.failed]; omega
  abandoned := by rw [h'.abandoned, h.abandoned, increases_append]; omega
  stages := by rw [increases_append, increases_append, increases_append, h'.stages, h.stages]; omega
  unmatched := by rw [h'.unmatched, h.unmatched, increases_append]; omega
  gaps labels := by rw [increases_append, h'.gaps, h.gaps]

/-- From one course to another nothing is counted, and the records stay as they are. -/
structure Uncounted (c c' : Course σ) : Prop where
  events : ∃ events, c'.session.journal = events ++ c.session.journal ∧
    ∀ e ∈ events, e.isUncounted = true ∧ e.isGroup = false
  summary : c'.summary = c.summary
  mapped : c'.mapped = c.mapped

/-- Where nothing is counted the books do not change. -/
theorem Uncounted.booked (h : Uncounted c c') :
    ∃ events, Booked d events c c' ∧ increases (recordsAbandoned .publish) events = 0 := by
  obtain ⟨⟨events, hjournal, hevents⟩, hsummary, hmapped⟩ := h
  have hzero : ∀ asked : Series, asked.name ∈ recordCounters → increases asked events = 0 :=
    fun asked => increases_of_isUncounted fun e he => (hevents e he).1
  refine ⟨events, ⟨hjournal, fun e he => (hevents e he).2, ?_, ?_, ?_, ?_, fun stage => ?_, ?_, ?_, ?_, fun labels => ?_⟩,
    hzero _ (by decide)⟩
  · rw [hsummary, hzero _ (by decide), Nat.add_zero]
  · rw [hmapped, hzero _ (by decide), Nat.add_zero]
  · rw [hsummary, hzero _ (by decide), hzero _ (by decide), Nat.add_zero]
  · rw [hzero _ (by decide), hzero _ (by decide), ite_self]
  · rw [hzero _ (by cases stage <;> decide), hzero _ (by cases stage <;> decide), hzero _ (by cases stage <;> decide)]
  · rw [hsummary, hzero _ (by decide), Nat.add_zero]
  · rw [hzero _ (by decide), hzero _ (by decide), hzero _ (by decide)]
  · rw [hsummary, hzero _ (by decide), Nat.add_zero]
  · exact hzero _ (by simp [recordCounters])

/-! ## Steps that count nothing -/

theorem uncounted_on {f : Session σ → Session σ} (h : (f c.session).journal = c.session.journal) :
    Uncounted c (c.on f) := ⟨⟨[], h, by simp⟩, rfl, rfl⟩

theorem uncounted_note {e : Event} (world : σ) (he : e.isUncounted = true ∧ e.isGroup = false) :
    Uncounted c (c.on fun s => { s with world }.note e) := ⟨⟨[e], rfl, by simpa using he⟩, rfl, rfl⟩

theorem Uncounted.trans (h : Uncounted c c') (h' : Uncounted c' c'') : Uncounted c c'' := by
  obtain ⟨⟨events, hjournal, hevents⟩, hsummary, hmapped⟩ := h
  obtain ⟨⟨events', hjournal', hevents'⟩, hsummary', hmapped'⟩ := h'
  refine ⟨⟨events' ++ events, by rw [hjournal', hjournal, List.append_assoc], ?_⟩, hsummary'.trans hsummary,
    hmapped'.trans hmapped⟩
  exact fun e he => (List.mem_append.1 he).elim (hevents' e) (hevents e)

theorem uncounted_submit {slot : Nat} {r : Routed} {a : Attempt} {launch : Launch Job}
    (h : d.submit w slot r a c = (launch, c')) : Uncounted c c' := by
  simp only [Dispatcher.submit] at h
  split at h
  · obtain ⟨-, rfl⟩ := Prod.mk.inj h
    exact uncounted_note _ ⟨rfl, rfl⟩
  · obtain ⟨-, rfl⟩ := Prod.mk.inj h
    exact uncounted_note _ ⟨rfl, rfl⟩

theorem uncounted_harvest {r : Routed} {job : Job} {giveUp : Bool}
    (h : Dispatcher.harvest w r job c = (.failed giveUp, c')) : Uncounted c c' := by
  simp only [Dispatcher.harvest] at h
  split at h
  · split at h <;> simp at h
  · obtain ⟨-, rfl⟩ := Prod.mk.inj h
    exact uncounted_note _ ⟨rfl, rfl⟩

theorem uncounted_send {slot : Nat} {m : Mapped} {a : Attempt} {launch : Launch Shipment}
    (h : d.send w registry slot m a c = (launch, c')) : Uncounted c c' := by
  have hsend : ∃ events, (d.publisher.send w registry slot a.times m.routed m.value c.session).2.journal =
      events ++ c.session.journal ∧ ∀ e ∈ events, e.isUncounted = true ∧ e.isGroup = false := by
    obtain ⟨added, hjournal, hadded⟩ := Publisher.writes_select (P := fun e => e.isUncounted = true ∧ e.isGroup = false)
      (fun _ _ _ => ⟨rfl, rfl⟩) ⟨by decide, rfl⟩ w d.publisher registry m.routed.subscriber m.routed.record.keyBytes
      c.session
    unfold Publisher.send
    split
    · next heq =>
      rw [heq] at hjournal
      exact ⟨_ :: added, congrArg (_ :: ·) hjournal, List.forall_mem_cons.2 ⟨⟨rfl, rfl⟩, hadded⟩⟩
    · next heq =>
      rw [heq] at hjournal
      dsimp only
      split
      · exact ⟨_ :: added, congrArg (_ :: ·) hjournal, List.forall_mem_cons.2 ⟨⟨rfl, rfl⟩, hadded⟩⟩
      · exact ⟨_ :: added, congrArg (_ :: ·) hjournal, List.forall_mem_cons.2 ⟨⟨rfl, rfl⟩, hadded⟩⟩
  simp only [Dispatcher.send] at h
  split at h
  · next heq =>
    rw [heq] at hsend
    obtain ⟨-, rfl⟩ := Prod.mk.inj h
    exact ⟨hsend, rfl, rfl⟩
  · next heq =>
    rw [heq] at hsend
    split at h
    · obtain ⟨-, rfl⟩ := Prod.mk.inj h
      exact ⟨hsend, rfl, rfl⟩
    · obtain ⟨-, rfl⟩ := Prod.mk.inj h
      exact ⟨hsend, rfl, rfl⟩

theorem uncounted_confirm {m : Mapped} {x : Shipment} {giveUp : Bool}
    (h : Dispatcher.confirm w m x c = (.failed giveUp, c')) : Uncounted c c' := by
  simp only [Dispatcher.confirm] at h
  split at h
  · simp at h
  · split at h
    · simp at h
    · obtain ⟨-, rfl⟩ := Prod.mk.inj h
      exact uncounted_note _ ⟨rfl, rfl⟩

theorem uncounted_flushUsed (w : World σ) (c : Course σ) : Uncounted c (Dispatcher.flushUsed w c) := by
  rw [Dispatcher.flushUsed]
  generalize c.used.keys = clients
  induction clients generalizing c with
  | nil => exact uncounted_on (f := id) rfl
  | cons client rest ih =>
    rw [List.foldl_cons]
    exact (uncounted_note _ ⟨rfl, rfl⟩).trans (ih _)

/-! ## Steps that count -/

/-- A record that passed its chain is counted as matched, and one that did not as filtered. -/
theorem booked_harvest {r : Routed} {job : Job} (h : Dispatcher.harvest w r job c = (.done, c')) :
    ∃ events, Booked d events c c' ∧ c'.summary.published = c.summary.published ∧
      increases (recordsAbandoned .publish) events = 0 := by
  rcases hf : w.finish job c.session.world with ⟨e | outcome, world⟩ <;> simp only [Dispatcher.harvest, hf] at h
  · simp at h
  · split at h
    · obtain ⟨-, rfl⟩ := Prod.mk.inj h
      refine ⟨[.observed ⟨"filter_records_duration_ms", []⟩, .counted (filterRecords "matched") 1,
        .processed job (.ok outcome)], ⟨rfl, ?_, ?_, ?_, ?_, ?_, fun stage => ?failed, ?_, ?_, ?_, ?_⟩, rfl, ?_⟩
      case failed => cases stage <;> simp
      all_goals simp [Course.collect, Course.on, Event.isGroup]
    · obtain ⟨-, rfl⟩ := Prod.mk.inj h
      refine ⟨[.counted (filterRecords "filtered") 1, .processed job (.ok outcome)],
        ⟨rfl, ?_, ?_, ?_, ?_, ?_, fun stage => ?failed, ?_, ?_, ?_, ?_⟩, rfl, ?_⟩
      case failed => cases stage <;> simp
      all_goals simp [Course.filterOut, Course.settle, Course.on, Event.isGroup]

/-- A delivery counts as a success. -/
theorem booked_confirm {m : Mapped} {x : Shipment} (hlevel : d.level ≠ .force)
    (h : Dispatcher.confirm w m x c = (.done, c')) :
    ∃ events, Booked d events c c' ∧ c'.summary.published = c.summary.published + 1 ∧ c'.mapped = c.mapped ∧
      increases (recordsAbandoned .publish) events = 0 := by
  rcases hd : w.deliver x c.session.world with ⟨e | _, world⟩ <;> simp only [Dispatcher.confirm, hd] at h
  · split at h <;> simp at h
  · obtain ⟨-, rfl⟩ := Prod.mk.inj h
    refine ⟨[.observed ⟨"checkpoint_sent_duration_ms", []⟩, .counted (checkpointSent "success") 1, .delivered x (.ok ())],
      ⟨rfl, ?_, ?_, ?_, ?_, ?_, fun stage => ?failed, ?_, ?_, ?_, ?_⟩, rfl, rfl, ?_⟩
    case failed => cases stage <;> simp
    all_goals simp [Course.publish, Course.settle, Course.on, Event.isGroup, hlevel]

/-- A message whose delivery nobody awaits counts as enqueued. -/
theorem booked_awaitDelivery {m : Mapped} {x : Shipment} (h : d.awaitDelivery m x c = (false, c')) :
    d.level = .force ∧
      ∃ events, Booked d events c c' ∧ c'.summary.published = c.summary.published + 1 ∧ c'.mapped = c.mapped ∧
        increases (recordsAbandoned .publish) events = 0 := by
  rw [Dispatcher.awaitDelivery_eq] at h
  split at h
  · simp at h
  · next hawaits =>
    have hlevel : d.level = .force := by
      cases hl : d.level <;> simp [hl, ServiceLevel.awaitsDelivery] at hawaits ⊢
    obtain ⟨-, rfl⟩ := Prod.mk.inj h
    refine ⟨hlevel, [.counted (checkpointSent "enqueued") 1],
      ⟨rfl, ?_, ?_, ?_, ?_, ?_, fun stage => ?failed, ?_, ?_, ?_, ?_⟩, rfl, rfl, ?_⟩
    case failed => cases stage <;> simp
    all_goals simp [Course.publish, Course.settle, Course.on, Event.isGroup, hlevel]

/-- A failed attempt counts as one, and as a retry or as a record given up. -/
theorem booked_fail {α τ : Type} {k : Work σ α τ} (hk : k.failures = k.stage.failures) (b : Budget) (t : Task α τ)
    (giveUp : Bool) (c : Course σ) :
    ∃ events, Booked d events c (k.fail b t giveUp c).2 ∧
      (k.fail b t giveUp c).2.summary.published = c.summary.published ∧ (k.fail b t giveUp c).2.mapped = c.mapped ∧
      increases (recordsAbandoned k.stage) events + (k.fail b t giveUp c).1.toList.length = 1 ∧
      ∀ stage ≠ k.stage, increases (recordsAbandoned stage) events = 0 := by
  obtain ⟨stage, failures, place, launch, land, waiting⟩ := k
  obtain rfl : failures = stage.failures := hk
  cases hd : b.policy.decide c.session.now t.attempt giveUp b.enabled with
  | retry attempt backoff =>
    refine ⟨[.counted (taskRetries stage) 1, .judged stage t.slot t.attempt c.session.now (.retry attempt backoff),
      .counted stage.failures 1], ?_⟩
    simp only [Work.fail, hd]
    refine ⟨⟨rfl, ?_, ?_, ?_, ?_, ?_, fun asked => ?failed, ?_, ?_, ?_, ?_⟩, rfl, rfl, ?_, fun asked _ => ?abandoned⟩
    case failed => cases asked <;> cases stage <;> simp [Stage.name]
    case abandoned => cases asked <;> cases stage <;> simp
    all_goals cases stage <;> simp [Course.on, Event.isGroup]
  | abandon reason =>
    refine ⟨[.counted ⟨"records_abandoned_total", [("stage", stage.name), ("reason", reason.name)]⟩ 1,
      .judged stage t.slot t.attempt c.session.now (.abandon reason), .counted stage.failures 1], ?_⟩
    simp only [Work.fail, hd]
    refine ⟨⟨rfl, ?_, ?_, ?_, ?_, ?_, fun asked => ?failed, ?_, ?_, ?_, ?_⟩, rfl, rfl, ?_, fun asked hne => ?abandoned⟩
    case failed => cases asked <;> cases stage <;> simp [Stage.name]
    case abandoned => cases asked <;> cases stage <;> simp [Stage.name] at hne ⊢
    all_goals cases stage <;> simp [Course.abandon, Course.on, Event.isGroup, Stage.name]

/-! ## The two stages -/

/-- While records are filtered none is published, and none given up by publishing. -/
structure FilterBooked (d : Dispatcher) (c₀ : Course σ) (events : List Event) (c : Course σ) : Prop where
  booked : Booked d events c₀ c
  published : c.summary.published = 0
  abandoned : increases (recordsAbandoned .publish) events = 0

/-- While records are published each record that passed its chain is still to be published, or published, or given
up. -/
structure PublishBooked (d : Dispatcher) (c₀ : Course σ) (left : Nat) (events : List Event) (c : Course σ) : Prop where
  booked : Booked d events c₀ c
  balance : c.mapped.length = left + c.summary.published + increases (recordsAbandoned .publish) events

variable {c₀ : Course σ} {left left' : Nat}

theorem FilterBooked.step (h : FilterBooked d c₀ events c) (hbooked : Booked d events' c c')
    (hpublished : c'.summary.published = c.summary.published)
    (habandoned : increases (recordsAbandoned .publish) events' = 0) : FilterBooked d c₀ (events' ++ events) c' :=
  ⟨h.booked.trans hbooked, hpublished.trans h.published, by rw [increases_append, habandoned, h.abandoned]⟩

theorem FilterBooked.uncounted (h : FilterBooked d c₀ events c) (hc : Uncounted c c') :
    ∃ events, FilterBooked d c₀ events c' := by
  obtain ⟨events', hbooked, habandoned⟩ := hc.booked
  exact ⟨_, h.step hbooked (congrArg Summary.published hc.summary) habandoned⟩

theorem PublishBooked.step (h : PublishBooked d c₀ left events c) (hbooked : Booked d events' c c')
    (hmapped : c'.mapped = c.mapped)
    (hleft : left + c.summary.published =
      left' + c'.summary.published + increases (recordsAbandoned .publish) events') :
    PublishBooked d c₀ left' (events' ++ events) c' := by
  refine ⟨h.booked.trans hbooked, ?_⟩
  have hbalance := h.balance
  rw [hmapped, increases_append]
  omega

theorem PublishBooked.uncounted (h : PublishBooked d c₀ left events c) (hc : Uncounted c c') :
    ∃ events, PublishBooked d c₀ left events c' := by
  obtain ⟨events', hbooked, habandoned⟩ := hc.booked
  refine ⟨_, h.step hbooked hc.mapped ?_⟩
  rw [habandoned, hc.summary, Nat.add_zero]

theorem filterBooked_launches (w : World σ) (d : Dispatcher) (c₀ : Course σ) :
    (Dispatcher.filterMap w d).Launches w (fun _ _ c => (true, c)) (fun _ _ c => ∃ events, FilterBooked d c₀ events c)
      fun _ _ => True where
  ticked := by
    rintro items ts c ⟨events, h⟩
    exact h.uncounted (uncounted_on rfl)
  kept := by
    rintro item slot items ts c job c₁ c' ⟨events, h⟩ hl hk
    obtain ⟨-, rfl⟩ := Prod.mk.inj hk
    exact h.uncounted (uncounted_submit hl)
  dropped := by simp
  failed _ hl := absurd hl Dispatcher.submit_ne_failed
  stopped _ _ := trivial

theorem filterBooked_turns (w : World σ) (d : Dispatcher) (c₀ : Course σ) :
    (Dispatcher.filterMap w d).Turns w d.budget (fun _ c => ∃ events, FilterBooked d c₀ events c) fun _ _ => True where
  perm _ h := h
  chosen := by
    rintro ts c least ⟨events, h⟩
    exact h.uncounted (uncounted_on rfl)
  launched := by
    rintro t wake ts c job c' - ⟨events, h⟩ hl
    exact h.uncounted (uncounted_submit hl)
  unlaunched _ _ hl := absurd hl Dispatcher.submit_ne_failed
  barred _ _ _ := trivial
  landed := by
    rintro t job ts c c' - ⟨events, h⟩ hl
    obtain ⟨events', hbooked, hpublished, habandoned⟩ := booked_harvest hl
    exact ⟨_, h.step hbooked hpublished habandoned⟩
  crashed := by
    rintro t job ts c giveUp c' - ⟨events, h⟩ hl
    exact h.uncounted (uncounted_harvest hl)
  broken _ _ _ := trivial
  judged := by
    rintro t giveUp ts c - ⟨events, h⟩
    obtain ⟨events', hbooked, hpublished, -, -, habandoned⟩ :=
      booked_fail (k := Dispatcher.filterMap w d) rfl d.budget t giveUp c
    exact ⟨_, h.step hbooked hpublished (habandoned .publish (show Stage.publish ≠ .filterMap by decide))⟩

/-- Without retries an attempt that failed is the last one of its record. -/
theorem fail_of_force {α τ : Type} (k : Work σ α τ) (hlevel : d.level = .force) (t : Task α τ) (giveUp : Bool)
    (c : Course σ) : (k.fail d.budget t giveUp c).1 = none := by
  have henabled : d.budget.enabled = false := by rw [Dispatcher.budget, hlevel, ServiceLevel.retries]
  simp only [Work.fail, RetryPolicy.decide, henabled]
  cases giveUp <;> rfl

/-- Where no delivery is awaited, what is left has failed. -/
def OnlyFailed (d : Dispatcher) (ts : List (Task Mapped Shipment)) : Prop :=
  d.level = .force → ∀ t ∈ ts, ∃ giveUp, t.phase = .failed giveUp

theorem publishBooked_launches (w : World σ) (d : Dispatcher) (registry : Registry) (c₀ : Course σ) :
    (Dispatcher.publish w d registry).Launches w d.awaitDelivery
      (fun items ts c => (∃ events, PublishBooked d c₀ (items.length + ts.length) events c) ∧ OnlyFailed d ts)
      fun _ _ => True where
  ticked := by
    rintro items ts c ⟨⟨events, h⟩, hfailed⟩
    exact ⟨h.uncounted (uncounted_on rfl), hfailed⟩
  kept := by
    rintro m slot items ts c x c₁ c' ⟨⟨events, h⟩, hfailed⟩ hl hk
    rw [Dispatcher.awaitDelivery_eq] at hk
    split at hk
    · next hawaits =>
      obtain ⟨-, rfl⟩ := Prod.mk.inj hk
      refine ⟨?_, fun hlevel => ?_⟩
      · rw [List.length_cons, Nat.add_right_comm, Nat.add_assoc] at h
        rw [List.length_append, List.length_singleton]
        exact h.uncounted (uncounted_send hl)
      · simp [hlevel, ServiceLevel.awaitsDelivery] at hawaits
    · simp at hk
  dropped := by
    rintro m slot items ts c x c₁ c' ⟨⟨events, h⟩, hfailed⟩ hl hk
    obtain ⟨events₁, h₁⟩ := h.uncounted (uncounted_send hl)
    obtain ⟨-, events₂, hbooked, hpublished, hmapped, habandoned⟩ := booked_awaitDelivery hk
    refine ⟨⟨_, h₁.step hbooked hmapped ?_⟩, hfailed⟩
    rw [hpublished, habandoned, List.length_cons]
    omega
  failed := by
    rintro m slot items ts c giveUp c' ⟨⟨events, h⟩, hfailed⟩ hl
    rw [List.length_cons, Nat.add_right_comm, Nat.add_assoc] at h
    rw [List.length_append, List.length_singleton]
    refine ⟨h.uncounted (uncounted_send hl), fun hlevel t ht => ?_⟩
    rcases List.mem_append.1 ht with ht | ht
    · exact hfailed hlevel t ht
    · obtain rfl := List.mem_singleton.1 ht
      exact ⟨giveUp, rfl⟩
  stopped _ _ := trivial

theorem publishBooked_turns (w : World σ) (d : Dispatcher) (registry : Registry) (c₀ : Course σ) :
    (Dispatcher.publish w d registry).Turns w d.budget
      (fun ts c => (∃ events, PublishBooked d c₀ ts.length events c) ∧ OnlyFailed d ts) fun _ _ => True where
  perm := by
    rintro ts ts' c hp ⟨h, hfailed⟩
    rw [← hp.length_eq]
    exact ⟨h, fun hlevel t ht => hfailed hlevel t (hp.mem_iff.2 ht)⟩
  chosen := by
    rintro ts c least ⟨⟨events, h⟩, hfailed⟩
    exact ⟨h.uncounted (uncounted_on rfl), hfailed⟩
  launched := by
    rintro t wake ts c x c' hp ⟨⟨events, h⟩, hfailed⟩ hl
    refine ⟨h.uncounted (uncounted_send hl), fun hlevel => ?_⟩
    obtain ⟨giveUp, hphase⟩ := hfailed hlevel t List.mem_cons_self
    simp [hp] at hphase
  unlaunched := by
    rintro t wake ts c giveUp c' hp ⟨⟨events, h⟩, hfailed⟩ hl
    refine ⟨h.uncounted (uncounted_send hl), fun hlevel => ?_⟩
    obtain ⟨giveUp, hphase⟩ := hfailed hlevel t List.mem_cons_self
    simp [hp] at hphase
  barred _ _ _ := trivial
  landed := by
    rintro t x ts c c' hp ⟨⟨events, h⟩, hfailed⟩ hl
    have hlevel : d.level ≠ .force := fun hlevel => by
      obtain ⟨giveUp, hphase⟩ := hfailed hlevel t List.mem_cons_self
      simp [hp] at hphase
    obtain ⟨events', hbooked, hpublished, hmapped, habandoned⟩ := booked_confirm hlevel hl
    refine ⟨⟨_, h.step hbooked hmapped ?_⟩, fun hforce => absurd hforce hlevel⟩
    rw [hpublished, habandoned, List.length_cons]
    omega
  crashed := by
    rintro t x ts c giveUp c' hp ⟨⟨events, h⟩, hfailed⟩ hl
    refine ⟨h.uncounted (uncounted_confirm hl), fun hlevel => ?_⟩
    obtain ⟨giveUp, hphase⟩ := hfailed hlevel t List.mem_cons_self
    simp [hp] at hphase
  broken _ _ _ := trivial
  judged := by
    rintro t giveUp ts c hp ⟨⟨events, h⟩, hfailed⟩
    obtain ⟨events', hbooked, hpublished, hmapped, hone, -⟩ :=
      booked_fail (k := Dispatcher.publish w d registry) rfl d.budget t giveUp c
    refine ⟨⟨_, h.step hbooked hmapped ?_⟩, fun hlevel => ?_⟩
    · have hone : increases (recordsAbandoned .publish) events' + _ = 1 := hone
      rw [hpublished, List.length_append, List.length_cons]
      omega
    · rw [fail_of_force _ hlevel]
      exact fun t' ht' => hfailed hlevel t' (List.mem_cons_of_mem _ ht')

/-! ## The batch up to its acknowledgement -/

theorem booked_matchBatch (d : Dispatcher) (subscribers : List Subscriber) (batch : Batch) (s : Session σ) :
    ∃ events, FilterBooked d (.start s) events (Dispatcher.matchBatch subscribers batch (.start s)).2 := by
  have hsettled : ∀ (places : List Coordinates) (c : Course σ), (c.settleAll places).session = c.session ∧
      (c.settleAll places).summary = c.summary ∧ (c.settleAll places).mapped = c.mapped := by
    intro places c
    rw [Course.settleAll_eq]
    exact ⟨rfl, rfl, rfl⟩
  unfold Dispatcher.matchBatch
  dsimp only
  cases hunmatched : (Matching.ofRecords subscribers batch.records).unmatched with
  | nil =>
    refine ⟨[], ⟨?_, ?_, ?_, ?_, ?_, ?_, fun stage => ?_, ?_, ?_, ?_, fun labels => ?_⟩, ?_, ?_⟩
    all_goals simp [hsettled, Course.start, Summary.empty]
  | cons r rest =>
    refine ⟨[.counted ⟨"records_unmatched_total", []⟩ (rest.length + 1)],
      ⟨?_, ?_, ?_, ?_, ?_, ?_, fun stage => ?failed, ?_, ?_, ?_, fun labels => ?_⟩, ?_, ?_⟩
    case failed => cases stage <;> simp
    all_goals
      simp [hsettled, Course.start, Course.on, Summary.empty, Session.count, Session.note, Event.isGroup]

/-- When a batch comes to its acknowledgement, nothing of it is left to publish. -/
theorem booked_dispatch {batch : Batch} {s s' : Session σ} {summary : Summary} {ledger : Ledger}
    (hcheckpoint : d.checkpoint = true) (h : d.dispatch w registry batch s = (.done summary ledger, s')) :
    ∃ world events c, PublishBooked d (.start { s with world }) 0 events c ∧
      Dispatcher.conclude w d c = (.done summary ledger, s') := by
  simp only [Dispatcher.dispatch, hcheckpoint, if_true] at h
  have hmatched := booked_matchBatch d (registry.subscribers d.pipeline) batch
    { s with world := w.refresh (registry.subscribers d.pipeline) s.world }
  generalize Dispatcher.matchBatch _ batch _ = begun at h hmatched
  obtain ⟨hfiltered, -, -⟩ : (∀ c₁, Dispatcher.runFilterMap w d begun.1 begun.2 = (.over, c₁) → _) ∧ _ ∧ _ :=
    Dispatcher.runFilterMap_turns (filterBooked_launches w d _) (filterBooked_turns w d _) (fun _ _ h => h) hmatched
  rcases hf : Dispatcher.runFilterMap w d begun.1 begun.2 with ⟨_ | e | _, c₁⟩ <;> rw [hf] at h
  · obtain ⟨events, hbooked, hnone, habandoned⟩ := hfiltered c₁ hf
    have hleft : PublishBooked d (.start _) c₁.mapped.length events c₁ := ⟨hbooked, by rw [hnone, habandoned]; rfl⟩
    obtain ⟨hpublished, -, -⟩ := Dispatcher.runPublish_turns (publishBooked_launches w d registry _)
      (publishBooked_turns w d registry _) (fun ts c h => by simpa using h)
      (fun c h => ⟨h.1.elim fun _ h => h.uncounted (uncounted_flushUsed w c), h.2⟩) (c := c₁)
      ⟨⟨events, by simpa [(Dispatcher.sorted_perm c₁.mapped).length_eq] using hleft⟩, by simp [OnlyFailed]⟩
    rcases hp : Dispatcher.runPublish w d registry c₁ with ⟨_ | e | _, c₂⟩ <;> simp only [hp] at h
    · obtain ⟨⟨events', hbooked'⟩, -⟩ := hpublished c₂ hp
      exact ⟨_, events', c₂, hbooked', h⟩
    · simp at h
    · simp at h
  · simp at h
  · simp at h

end Books

/-! ## Gaps -/

/-- The labels of a partition. -/
def Partition.labels (p : Partition) : List (String × String) :=
  [("topic", p.topic), ("partition", toString p.number)]

theorem Partition.labels_subset_iff {p q : Partition} : (∀ label ∈ p.labels, label ∈ q.labels) ↔ q = p := by
  constructor
  · intro h
    obtain ⟨htopic, hnumber⟩ : p.topic = q.topic ∧ toString p.number = toString q.number := by
      simpa [labels] using h
    obtain ⟨topic, number⟩ := p
    obtain ⟨topic', number'⟩ := q
    obtain rfl : topic = topic' := htopic
    obtain rfl : number = number' := toString_int_inj hnumber
    rfl
  · rintro rfl label hlabel
    exact hlabel

/-- The counts of gaps in partitions, the latest first. -/
def gapCounts (partitions : List Partition) : List Event :=
  (partitions.map fun p => .counted ⟨"acknowledge_gap_detected_total", p.labels⟩ 1).reverse

theorem gapCounts_cons (p : Partition) (partitions : List Partition) :
    gapCounts (p :: partitions) =
      gapCounts partitions ++ [.counted ⟨"acknowledge_gap_detected_total", p.labels⟩ 1] := by
  rw [gapCounts, List.map_cons, List.reverse_cons]
  rfl

/-- All gaps together are as many as the partitions. -/
theorem increases_gapCounts (partitions : List Partition) :
    increases ⟨"acknowledge_gap_detected_total", []⟩ (gapCounts partitions) = partitions.length := by
  induction partitions with
  | nil => rfl
  | cons p partitions ih => simp [gapCounts_cons, ih]

/-- The gaps of a partition are counted apart from those of the others. -/
theorem increases_gapCounts_labels (p : Partition) (partitions : List Partition) :
    increases ⟨"acknowledge_gap_detected_total", p.labels⟩ (gapCounts partitions) = partitions.count p := by
  induction partitions with
  | nil => rfl
  | cons q partitions ih =>
    have hq : (Event.counted ⟨"acknowledge_gap_detected_total", q.labels⟩ 1).increase
        ⟨"acknowledge_gap_detected_total", p.labels⟩ = if q = p then 1 else 0 :=
      if_congr ((and_iff_right rfl).trans Partition.labels_subset_iff) rfl rfl
    rw [gapCounts_cons, increases_append, ih, increases_cons, hq, List.count_cons]
    simp

theorem increases_gapCounts_of_ne {asked : Series} (h : asked.name ≠ "acknowledge_gap_detected_total")
    (partitions : List Partition) : increases asked (gapCounts partitions) = 0 := by
  refine increases_eq_zero fun e he => ?_
  obtain ⟨p, -, rfl⟩ := List.mem_map.1 (List.mem_reverse.1 he)
  exact if_neg fun hname => h hname.1.symm

/-- Under the strict level a partition has a gap exactly if it is rewound to the end of its settled run. -/
theorem Ledger.mem_gaps_iff (l : Ledger) (p : Partition) :
    p ∈ Dispatcher.gaps l (ServiceLevel.strict.acknowledge l).offsets ↔
      p ∈ (l.redelivery (ServiceLevel.strict.acknowledge l).offsets).keys := by
  rw [Dispatcher.gaps, SortedMap.mem_keys_iff, SortedMap.mem_keys_iff, SortedMap.get?_filter]
  by_cases hlisted : ∃ o, l.status ⟨p, o⟩ ≠ none
  · obtain ⟨o, ho⟩ := hlisted
    obtain ⟨first, last, next, hspans⟩ := exists_spans ho
    have hfirst := hspans.first_le_last
    have hnext := hspans.next_le
    rw [hspans.get?_ends, hspans.get?_commit, hspans.get?_redelivery_commit]
    by_cases hle : next ≤ last
    · have hne : first < next → next ≠ last + 1 := by omega
      simpa [hle] using hne
    · obtain rfl : next = last + 1 := by omega
      simp [show first < last + 1 by omega]
  · have hnone : ∀ o, l.status ⟨p, o⟩ = none := by simpa using hlisted
    obtain ⟨-, hredelivery, hends⟩ := get?_of_status_eq_none hnone (ServiceLevel.strict.acknowledge l).offsets
    rw [hredelivery, hends]
    simp

theorem Ledger.gaps_perm (l : Ledger) :
    (Dispatcher.gaps l (ServiceLevel.strict.acknowledge l).offsets).Perm
      (l.redelivery (ServiceLevel.strict.acknowledge l).offsets).keys :=
  (List.perm_ext_iff_of_nodup (SortedMap.nodup_keys _) (SortedMap.nodup_keys _)).2 l.mem_gaps_iff

/-! ## The acknowledgement -/

section Acknowledgement

variable {σ : Type} {w : World σ} {level : ServiceLevel} {c : Course σ}

theorem journal_countPartitions (name : String) (partitions : List Partition) (c : Course σ) :
    (Dispatcher.countPartitions name partitions c).session.journal =
      (partitions.map fun p => .counted ⟨name, p.labels⟩ 1).reverse ++ c.session.journal := by
  rw [Dispatcher.countPartitions]
  induction partitions generalizing c with
  | nil => rfl
  | cons p partitions ih =>
    rw [List.foldl_cons, ih, List.map_cons, List.reverse_cons, List.append_assoc]
    rfl

theorem journal_commit (kind : String) (offsets : Offsets) (c : Course σ) :
    ∃ answered, (∀ e ∈ answered, e.isUncounted = true) ∧
      (if offsets.isEmpty then (true, c) else Dispatcher.commit w kind offsets c).2.session.journal =
        answered ++ c.session.journal := by
  split
  · exact ⟨[], by simp, rfl⟩
  · unfold Dispatcher.commit
    split
    · exact ⟨[_, _, _], by simp [Event.isUncounted, recordCounters], rfl⟩
    · exact ⟨[_, _], by simp [Event.isUncounted, recordCounters], rfl⟩

theorem journal_rewind (offsets : Offsets) (c : Course σ) :
    ∃ answered, (∀ e ∈ answered, e.isUncounted = true) ∧
      (Dispatcher.rewind w offsets c).session.journal = answered ++ c.session.journal := by
  unfold Dispatcher.rewind
  split
  · exact ⟨[], by simp, rfl⟩
  · split
    · exact ⟨[_], by simp [Event.isUncounted], rfl⟩
    · exact ⟨[_], by simp [Event.isUncounted], rfl⟩

/-- The partitions whose gaps an acknowledgement counts. -/
def countedGaps (level : ServiceLevel) (l : Ledger) : List Partition :=
  if (level.acknowledge l).isRun then Dispatcher.gaps l (level.acknowledge l).offsets else []

/-- Of the counters of records, an acknowledgement only increases those of gaps. -/
theorem journal_acknowledge (w : World σ) (level : ServiceLevel) (c : Course σ) :
    ∃ answered, (∀ e ∈ answered, e.isUncounted = true) ∧
      (Dispatcher.acknowledge w level c).session.journal =
        answered ++ (gapCounts (countedGaps level c.ledger) ++ c.session.journal) := by
  by_cases hempty : c.ledger.isEmpty = true
  · have hledger : c.ledger = .empty := congrArg Ledger.mk (SortedMap.eq_empty_of_isEmpty hempty)
    rw [Dispatcher.acknowledge, if_pos hempty, hledger]
    exact ⟨[], by simp, by cases level <;> rfl⟩
  simp only [Dispatcher.acknowledge, if_neg hempty]
  -- the counts come first, then the commit, then the rewind
  have hgaps : (if (level.acknowledge c.ledger).isRun then Dispatcher.countPartitions "acknowledge_gap_detected_total"
        (Dispatcher.gaps c.ledger (level.acknowledge c.ledger).offsets) c else c).session.journal =
      gapCounts (countedGaps level c.ledger) ++ c.session.journal := by
    rw [countedGaps]
    split
    · exact journal_countPartitions _ _ c
    · rfl
  generalize hcounted : Dispatcher.countPartitions "acknowledge_regression_skipped_total" _ _ = c₁
  obtain ⟨regressions, hregressions, hjournal⟩ : ∃ regressions, (∀ e ∈ regressions, e.isUncounted = true) ∧
      c₁.session.journal = regressions ++ (gapCounts (countedGaps level c.ledger) ++ c.session.journal) := by
    rw [← hcounted, journal_countPartitions, hgaps]
    refine ⟨_, fun e he => ?_, rfl⟩
    obtain ⟨p, -, rfl⟩ := List.mem_map.1 (List.mem_reverse.1 he)
    rfl
  obtain ⟨commit, hcommit, hjournal'⟩ := journal_commit (w := w) (level.acknowledge c.ledger).kind
    (c.session.tracker.advancing (level.acknowledge c.ledger).offsets) c₁
  rw [hjournal, ← List.append_assoc] at hjournal'
  generalize (if (c.session.tracker.advancing (level.acknowledge c.ledger).offsets).isEmpty then (true, c₁)
    else Dispatcher.commit w _ _ c₁) = committed at hjournal'
  have hanswered : ∀ e ∈ commit ++ regressions, e.isUncounted = true :=
    fun e he => (List.mem_append.1 he).elim (hcommit e) (hregressions e)
  have hrewind : ∀ offsets, ∃ answered, (∀ e ∈ answered, e.isUncounted = true) ∧
      (Dispatcher.rewind w offsets committed.2).session.journal =
        answered ++ (gapCounts (countedGaps level c.ledger) ++ c.session.journal) := by
    intro offsets
    obtain ⟨rewind, hrewind, hjournal''⟩ := journal_rewind (w := w) offsets committed.2
    refine ⟨rewind ++ (commit ++ regressions), fun e he => (List.mem_append.1 he).elim (hrewind e) (hanswered e), ?_⟩
    rw [hjournal'', hjournal', List.append_assoc rewind]
  split
  · exact hrewind _
  · split
    · exact hrewind _
    · exact ⟨_, hanswered, hjournal'⟩

/-- The offsets of an event that asks the consumer to rewind. -/
def Event.rewind? : Event → Option Offsets
  | .sought offsets _ => some offsets
  | _ => none

/-- The partitions that the consumer is asked to rewind from one session to the next. -/
def Session.rewinds (s s' : Session σ) : List Partition := ((s.written s').filterMap Event.rewind?).flatMap (·.keys)

theorem Event.rewind?_of_not_isNews (e : Event) (h : e.isNews = false) : e.rewind? = none := by
  cases e with
  | sought => simp [isNews] at h
  | _ => rfl

theorem filterMap_rewind?_of_group {events : List Event} (h : ∀ e ∈ events, e.isGroup = false) :
    events.filterMap Event.rewind? = [] := by
  refine List.filterMap_eq_nil_iff.2 fun e he => ?_
  have hgroup := h e he
  cases e with
  | sought => simp [Event.isGroup] at hgroup
  | _ => rfl

theorem filterMap_rewind?_calls (resumed asked : Offsets) (sought accepted : Bool) :
    ((Dispatcher.call .sought resumed sought ++ Dispatcher.call .committed asked accepted).filterMap
      Event.rewind?).flatMap (·.keys) = resumed.keys := by
  have hcommitted : (Dispatcher.call .committed asked accepted).filterMap Event.rewind? = [] := by
    rw [Dispatcher.call]
    split <;> rfl
  rw [List.filterMap_append, hcommitted, List.append_nil, Dispatcher.call]
  split
  · next hempty => rw [SortedMap.keys_of_isEmpty hempty]; rfl
  · exact List.append_nil _

end Acknowledgement

/-! ## The whole batch -/

section Dispatch

variable {σ : Type} {w : World σ} {d : Dispatcher} {registry : Registry} {batch : Batch} {s s' : Session σ}
  {summary : Summary} {ledger : Ledger}

/-- A dispatch writes down the events of its records, then the gaps, then the calls to the consumer group and what says
nothing to the counters of records. -/
structure Closes (level : ServiceLevel) (ledger : Ledger) (accepted : Bool) (events : List Event) (s s' : Session σ) :
    Prop where
  written : ∃ answered, s.written s' = answered ++ (gapCounts (countedGaps level ledger) ++ events) ∧
    ∀ e ∈ answered, e.isUncounted = true
  rewinds : s.rewinds s' = (Dispatcher.resumed level ledger accepted).keys
  refused : accepted = false → ∃ offsets, .committed offsets false ∈ s.written s'

/-- The books of a dispatch are kept until its batch is acknowledged. -/
theorem booked_done (hcheckpoint : d.checkpoint = true)
    (h : d.dispatch w registry batch s = (.done summary ledger, s')) :
    ∃ (world : σ) (events : List Event) (c : Course σ) (accepted : Bool),
      PublishBooked d (.start { s with world }) 0 events c ∧ Closes d.level ledger accepted events s s' ∧
      summary = { c.summary with committed := summary.committed, rewound := summary.rewound } := by
  obtain ⟨world, events, c, hbooked, hconclude⟩ := booked_dispatch hcheckpoint h
  obtain ⟨accepted, sought, hack⟩ := Dispatcher.acknowledge_spec w d.level c
  obtain ⟨answered, hanswered, hjournal⟩ := journal_acknowledge w d.level c
  obtain ⟨added, hadded, hcalls⟩ := hack.adds
  simp only [Dispatcher.conclude, Prod.mk.injEq, Dispatched.done.injEq] at hconclude
  obtain ⟨⟨rfl, rfl⟩, rfl⟩ := hconclude
  rw [hack.ledger]
  have hevents := hbooked.booked.journal
  have hwritten : s.written ((Dispatcher.acknowledge w d.level c).session.observe "batch_dispatch_duration_ms" []) =
      .observed ⟨"batch_dispatch_duration_ms", []⟩ :: added ++ events := by
    refine Session.written_eq (congrArg (_ :: ·) ?_)
    rw [hadded, hevents, ← List.append_assoc]
    rfl
  have hsplit : added = answered ++ gapCounts (countedGaps d.level c.ledger) := by
    rw [← List.append_assoc] at hjournal
    exact List.append_cancel_right (hadded.symm.trans hjournal)
  refine ⟨world, events, c, accepted, hbooked, ⟨?_, ?_, fun hrefused => ?_⟩, by rw [hack.summary]⟩
  · refine ⟨.observed ⟨"batch_dispatch_duration_ms", []⟩ :: answered, ?_, List.forall_mem_cons.2 ⟨rfl, hanswered⟩⟩
    rw [hwritten, hsplit, List.cons_append, List.cons_append, List.append_assoc]
  · rw [Session.rewinds, hwritten, List.filterMap_append, filterMap_rewind?_of_group hbooked.booked.group,
      List.append_nil, List.filterMap_cons, filterMap_of_isNews Event.rewind?_of_not_isNews, hcalls]
    exact filterMap_rewind?_calls ..
  · have hasked : (Dispatcher.asked d.level c.session.tracker c.ledger).isEmpty = false := by
      by_contra hempty
      rw [hack.asked (by simpa using hempty)] at hrefused
      simp at hrefused
    have hcall : .committed (Dispatcher.asked d.level c.session.tracker c.ledger) accepted ∈
        added.filter Event.isNews := by
      rw [hcalls, List.mem_append, Dispatcher.mem_call, Dispatcher.mem_call]
      exact .inr ⟨hasked, rfl⟩
    rw [hrefused] at hcall
    refine ⟨Dispatcher.asked d.level c.session.tracker c.ledger, ?_⟩
    rw [hwritten]
    exact List.mem_append_left _ (List.mem_cons_of_mem _ (List.mem_filter.1 hcall).1)

/-- Under the strict level the gaps are counted in the partitions that are rewound. -/
theorem Closes.gaps_perm {ledger : Ledger} {events : List Event} (h : Closes .strict ledger true events s s') :
    (countedGaps .strict ledger).Perm (s.rewinds s') := by
  rw [h.rewinds]
  exact ledger.gaps_perm

theorem nodup_countedGaps (level : ServiceLevel) (ledger : Ledger) : (countedGaps level ledger).Nodup := by
  rw [countedGaps]
  split
  · exact SortedMap.nodup_keys _
  · exact List.nodup_nil

/-- Whatever fails or is retried on the way, the counters of a dispatch that acknowledges its batch agree with its
summary and with one another. What a filter said of a record, what became of a message and how often an attempt failed
are counted once each, and a failed attempt is a retry or a record given up. Under the strict level, if no commit was
refused, the gaps are counted by partition, once for each that the consumer is asked to rewind. -/
theorem counters_balance (hcheckpoint : d.checkpoint = true)
    (h : d.dispatch w registry batch s = (.done summary ledger, s')) :
    s.grown s' ⟨"filter_records_total", [("status", "filtered")]⟩ = summary.filtered ∧
    s.grown s' ⟨"filter_records_total", [("status", "matched")]⟩ =
      summary.published + s.grown s' ⟨"records_abandoned_total", [("stage", "publish")]⟩ ∧
    s.grown s' ⟨"filter_records_total", [("status", "failed")]⟩ =
      s.grown s' ⟨"task_retries_total", [("stage", "filter_map")]⟩ +
        s.grown s' ⟨"records_abandoned_total", [("stage", "filter_map")]⟩ ∧
    s.grown s' ⟨"checkpoint_sent_total", [("status", "success")]⟩ +
      s.grown s' ⟨"checkpoint_sent_total", [("status", "enqueued")]⟩ = summary.published ∧
    (d.level ≠ .force → s.grown s' ⟨"checkpoint_sent_total", [("status", "enqueued")]⟩ = 0) ∧
    (d.level = .force → s.grown s' ⟨"checkpoint_sent_total", [("status", "success")]⟩ = 0) ∧
    s.grown s' ⟨"checkpoint_sent_total", [("status", "failed")]⟩ =
      s.grown s' ⟨"task_retries_total", [("stage", "publish")]⟩ +
        s.grown s' ⟨"records_abandoned_total", [("stage", "publish")]⟩ ∧
    s.grown s' ⟨"records_abandoned_total", []⟩ = summary.abandoned ∧
    s.grown s' ⟨"records_unmatched_total", []⟩ = summary.unmatched ∧
    (d.level = .strict → (∀ offsets, .committed offsets false ∉ s.written s') →
      (s.rewinds s').Nodup ∧ s.grown s' ⟨"acknowledge_gap_detected_total", []⟩ = (s.rewinds s').length ∧
      ∀ p : Partition,
        s.grown s' ⟨"acknowledge_gap_detected_total", [("topic", p.topic), ("partition", toString p.number)]⟩ =
          if p ∈ s.rewinds s' then 1 else 0) := by
  obtain ⟨world, events, c, accepted, ⟨hbooked, hbalance⟩, hcloses, hsummary⟩ := booked_done hcheckpoint h
  obtain ⟨answered, hwritten, hanswered⟩ := hcloses.written
  have hgrown : ∀ asked : Series, asked.name ∈ recordCounters → asked.name ≠ "acknowledge_gap_detected_total" →
      s.grown s' asked = increases asked events := by
    intro asked hasked hne
    rw [Session.grown, hwritten, increases_append, increases_append, increases_of_isUncounted hanswered hasked,
      increases_gapCounts_of_ne hne, Nat.zero_add, Nat.zero_add]
  have hgaps : ∀ labels, s.grown s' ⟨"acknowledge_gap_detected_total", labels⟩ =
      increases ⟨"acknowledge_gap_detected_total", labels⟩ (gapCounts (countedGaps d.level ledger)) := by
    intro labels
    rw [Session.grown, hwritten, increases_append, increases_append,
      increases_of_isUncounted hanswered (by simp [recordCounters]), hbooked.gaps, Nat.zero_add, Nat.add_zero]
  have hfiltered : c.summary.filtered = increases (filterRecords "filtered") events :=
    hbooked.filtered.trans (Nat.zero_add _)
  have hmapped : c.mapped.length = increases (filterRecords "matched") events := hbooked.mapped.trans (Nat.zero_add _)
  have hpublished : c.summary.published =
      increases (checkpointSent "success") events + increases (checkpointSent "enqueued") events :=
    hbooked.published.trans (Nat.zero_add _)
  have habandoned : c.summary.abandoned = increases ⟨"records_abandoned_total", []⟩ events :=
    hbooked.abandoned.trans (Nat.zero_add _)
  have hunmatched : c.summary.unmatched = increases ⟨"records_unmatched_total", []⟩ events :=
    hbooked.unmatched.trans (Nat.zero_add _)
  refine ⟨?_, ?_, ?_, ?_, fun hne => ?_, fun hforce => ?_, ?_, ?_, ?_, fun hstrict hcommits => ?_⟩
  · rw [hgrown _ (by decide) (by decide), hsummary]
    exact hfiltered.symm
  · rw [hgrown _ (by decide) (by decide), hgrown _ (by decide) (by decide), hsummary]
    rw [hmapped, Nat.zero_add] at hbalance
    exact hbalance
  · rw [hgrown _ (by decide) (by decide), hgrown _ (by decide) (by decide), hgrown _ (by decide) (by decide)]
    exact hbooked.failed .filterMap
  · rw [hgrown _ (by decide) (by decide), hgrown _ (by decide) (by decide), hsummary]
    exact hpublished.symm
  · have hlevel := hbooked.level
    rw [if_neg hne] at hlevel
    rw [hgrown _ (by decide) (by decide)]
    exact hlevel
  · have hlevel := hbooked.level
    rw [if_pos hforce] at hlevel
    rw [hgrown _ (by decide) (by decide)]
    exact hlevel
  · rw [hgrown _ (by decide) (by decide), hgrown _ (by decide) (by decide), hgrown _ (by decide) (by decide)]
    exact hbooked.failed .publish
  · rw [hgrown _ (by decide) (by decide), hsummary]
    exact habandoned.symm
  · rw [hgrown _ (by decide) (by decide), hsummary]
    exact hunmatched.symm
  · have haccepted : accepted = true := by
      by_contra hrefused
      obtain ⟨offsets, hcommitted⟩ := hcloses.refused (by simpa using hrefused)
      exact hcommits offsets hcommitted
    rw [hstrict] at hcloses hgaps
    rw [haccepted] at hcloses
    have hperm := hcloses.gaps_perm
    have hnodup := hperm.nodup_iff.1 (nodup_countedGaps _ _)
    refine ⟨hnodup, ?_, fun p => ?_⟩
    · rw [hgaps, increases_gapCounts, hperm.length_eq]
    · refine (hgaps p.labels).trans ?_
      rw [increases_gapCounts_labels, hperm.count_eq, hnodup.count]

end Dispatch

namespace Mishap

/-- Surroundings where the first record is canceled once, and the second one is never delivered. -/
def undelivered : World Unit :=
  { Orders.oldest with
    deliver := fun x s => (if x.slot = 1 then .error (.produce "") else .ok (), s) }

/-- The session after two records were dispatched there. -/
def after : Session Unit := (Orders.dispatcher.dispatch undelivered Orders.registry Orders.batch (.start ())).2

/-- Of two records one is published and one given up after its retries; the consumer is asked to rewind to it. -/
theorem balanced_undelivered :
    (Session.start ()).grown after ⟨"filter_records_total", [("status", "failed")]⟩ = 1 ∧
      (Session.start ()).grown after ⟨"filter_records_total", [("status", "matched")]⟩ = 1 + 1 ∧
      (Session.start ()).grown after ⟨"checkpoint_sent_total", [("status", "failed")]⟩ =
        (Session.start ()).grown after ⟨"task_retries_total", [("stage", "publish")]⟩ + 1 ∧
      (Session.start ()).rewinds after = [⟨"", 0⟩] ∧
      (Session.start ()).grown after
        ⟨"acknowledge_gap_detected_total", [("topic", ""), ("partition", toString (0 : Int))]⟩ = 1 := by
  have hdone : Orders.dispatcher.dispatch undelivered Orders.registry Orders.batch (.start ()) =
      (.done ⟨2, 0, 0, 0, 1, 1, .ofList [(⟨"", 0⟩, 1)], .ofList [(⟨"", 0⟩, 1)]⟩
        ⟨.ofList [(⟨"", 0⟩, .ofList [(0, .settled), (1, .abandoned)])]⟩, after) :=
    Prod.ext (by cbv) rfl
  obtain ⟨-, hmatched, -, -, -, -, hfailed, -, -, hgaps⟩ := counters_balance rfl hdone
  have habandoned : (Session.start ()).grown after ⟨"records_abandoned_total", [("stage", "publish")]⟩ = 1 := by cbv
  have hrewinds : (Session.start ()).rewinds after = [⟨"", 0⟩] := by cbv
  have hgroup : ((Session.start ()).written after).filter Event.isGroup =
      [.sought (.ofList [(⟨"", 0⟩, 1)]) true, .committed (.ofList [(⟨"", 0⟩, 1)]) true] := by cbv
  have haccepted : ∀ offsets, .committed offsets false ∉ (Session.start ()).written after := by
    intro offsets hm
    have hm' : .committed offsets false ∈ ((Session.start ()).written after).filter Event.isGroup :=
      List.mem_filter.2 ⟨hm, rfl⟩
    rw [hgroup] at hm'
    simp at hm'
  obtain ⟨-, -, hgap⟩ := hgaps rfl haccepted
  rw [hrewinds] at hgap
  refine ⟨by cbv, ?_, ?_, hrewinds, hgap ⟨"", 0⟩⟩
  · rw [hmatched, habandoned]
  · rw [hfailed, habandoned]

end Mishap

end Relay
