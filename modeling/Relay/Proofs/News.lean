import Relay.Dispatch

/-!
# What an operation tells

Every operation of a dispatch writes into the journal. Measurements and the upkeep of producers put aside,
what it writes are the news: which job or message it handed over, what came back, what was decided. Each
operation of the two stages is described by its news and by what it changes of the records of the batch;
everything else stays as it was.
-/

namespace Relay

/-- Whether an event is about a record or the consumer group. Measurements and the upkeep of producers
are not. -/
def Event.isNews : Event → Bool
  | .counted _ _ => false
  | .observed _ => false
  | .created _ _ _ => false
  | .flushed _ => false
  | _ => true

theorem PublishError.escalate_eq_ok {e e' : PublishError} (h : e.escalate = .ok e') :
    e.isConfig = false ∧ e' = e := by
  cases e <;> simp_all [escalate, isConfig]

theorem PublishError.escalate_eq_error {e : PublishError} {e' : DispatchError}
    (h : e.escalate = .error e') : ∃ cause, e = .config cause ∧ e' = .config cause := by
  cases e <;> simp_all [escalate]

namespace Session

variable {σ : Type} {s s' s'' : Session σ} {news news' : List Event}

/-- The journal grows by events of which `news` are the news, the latest first. -/
def Adds (news : List Event) (s s' : Session σ) : Prop :=
  ∃ added, s'.journal = added ++ s.journal ∧ added.filter Event.isNews = news

/-- The journal grows by some news, and what is known of commits stays. -/
structure Tells (news : List Event) (s s' : Session σ) : Prop where
  /-- The journal grows. -/
  adds : s.Adds news s'
  /-- The tracker stays. -/
  tracker : s'.tracker = s.tracker
  /-- The clock does not go back. -/
  now : s.now ≤ s'.now

theorem Adds.refl (s : Session σ) : s.Adds [] s := ⟨[], rfl, rfl⟩

theorem Adds.trans (h : s.Adds news s') (h' : s'.Adds news' s'') : s.Adds (news' ++ news) s'' := by
  obtain ⟨added, hj, rfl⟩ := h
  obtain ⟨added', hj', rfl⟩ := h'
  exact ⟨added' ++ added, by rw [hj', hj, List.append_assoc], List.filter_append ..⟩

theorem Tells.refl (s : Session σ) : s.Tells [] s := ⟨.refl s, rfl, Nat.le_refl _⟩

theorem Tells.trans (h : s.Tells news s') (h' : s'.Tells news' s'') : s.Tells (news' ++ news) s'' :=
  ⟨h.adds.trans h'.adds, h'.tracker.trans h.tracker, Nat.le_trans h.now h'.now⟩

theorem Tells.quiet (h : s.Tells news s') (h' : s'.Tells [] s'') : s.Tells news s'' := h.trans h'

theorem Tells.after_quiet (h : s.Tells [] s') (h' : s'.Tells news s'') : s.Tells news s'' := by
  simpa using h.trans h'

theorem tells_note {e : Event} (he : e.isNews = true) (s : Session σ) : s.Tells [e] (s.note e) :=
  ⟨⟨[e], rfl, by simp [he]⟩, rfl, Nat.le_refl _⟩

theorem tells_aside {e : Event} (he : e.isNews = false) (s : Session σ) : s.Tells [] (s.note e) :=
  ⟨⟨[e], rfl, by simp [he]⟩, rfl, Nat.le_refl _⟩

theorem tells_count (name : String) (labels : List (String × String)) (n : Nat) (s : Session σ) :
    s.Tells [] (s.count name labels n) := tells_aside rfl s

theorem tells_observe (name : String) (labels : List (String × String)) (s : Session σ) :
    s.Tells [] (s.observe name labels) := tells_aside rfl s

theorem tells_world (world : σ) (s : Session σ) : s.Tells [] { s with world } :=
  ⟨⟨[], rfl, rfl⟩, rfl, Nat.le_refl _⟩

theorem tells_world_note (world : σ) {e : Event} (he : e.isNews = true) (s : Session σ) :
    s.Tells [e] ({ s with world }.note e) := (tells_world world s).after_quiet (tells_note he _)

theorem tells_tick (w : World σ) (least : Nat) (s : Session σ) : s.Tells [] (s.tick w least) :=
  ⟨⟨[], rfl, rfl⟩, rfl, Nat.le_max_left ..⟩

end Session

namespace Course

variable {σ : Type} {c c' c'' : Course σ} {news news' : List Event}

/-- A course tells some news; its records stay as they are. -/
structure Tells (news : List Event) (c c' : Course σ) : Prop where
  /-- The news. -/
  session : c.session.Tells news c'.session
  /-- The ledger stays. -/
  ledger : c'.ledger = c.ledger
  /-- The counts stay. -/
  summary : c'.summary = c.summary
  /-- The payloads to publish stay. -/
  mapped : c'.mapped = c.mapped

theorem Tells.refl (c : Course σ) : c.Tells [] c := ⟨.refl _, rfl, rfl, rfl⟩

theorem Tells.trans (h : c.Tells news c') (h' : c'.Tells news' c'') : c.Tells (news' ++ news) c'' :=
  ⟨h.session.trans h'.session, h'.ledger.trans h.ledger, h'.summary.trans h.summary,
    h'.mapped.trans h.mapped⟩

theorem Tells.quiet (h : c.Tells news c') (h' : c'.Tells [] c'') : c.Tells news c'' := h.trans h'

theorem tells_on {f : Session σ → Session σ} (c : Course σ) (h : c.session.Tells news (f c.session)) :
    c.Tells news (c.on f) := ⟨h, rfl, rfl, rfl⟩

theorem tells_step (world : σ) {e : Event} (he : e.isNews = true) (c : Course σ) :
    c.Tells [e] (c.on fun s => { s with world }.note e) :=
  c.tells_on (Session.tells_world_note world he _)

theorem settleAll_eq (c : Course σ) (places : List Coordinates) :
    c.settleAll places = { c with ledger := places.foldl Ledger.settle c.ledger } := by
  rw [settleAll]
  induction places generalizing c with
  | nil => rfl
  | cons place rest ih => exact ih (c.settle place)

end Course

/-! ## Filtering and mapping -/

namespace Dispatcher

variable {σ : Type} {w : World σ} {d : Dispatcher} {c c' : Course σ}

/-- A job in flight carries the record and its place, and its pool accepted it. -/
theorem submit_flying {slot : Nat} {r : Routed} {a : Attempt} {job : Job}
    (h : d.submit w slot r a c = (.flying job, c')) :
    job = ⟨slot, a.times, r⟩ ∧ c.Tells [.submitted job true] c' := by
  simp only [submit] at h
  split at h
  · obtain ⟨hj, rfl⟩ := Prod.mk.inj h
    obtain rfl := Launch.flying.inj hj
    exact ⟨rfl, c.tells_step _ rfl⟩
  · simp at h

theorem submit_ne_failed {slot : Nat} {r : Routed} {a : Attempt} {giveUp : Bool} :
    d.submit w slot r a c ≠ (.failed giveUp, c') := by
  intro h
  simp only [submit] at h
  split at h <;> simp at h

/-- Only a pool that refuses a job stops the dispatch in this stage. -/
theorem submit_stopped {slot : Nat} {r : Routed} {a : Attempt} {e : DispatchError}
    (h : d.submit w slot r a c = (.stopped e, c')) :
    e = .executor (.poolClosed (d.executor.lane r).name) ∧
      c.Tells [.submitted ⟨slot, a.times, r⟩ false] c' := by
  simp only [submit] at h
  split at h
  · simp at h
  · obtain ⟨he, rfl⟩ := Prod.mk.inj h
    exact ⟨(Launch.stopped.inj he).symm, c.tells_step _ rfl⟩

/-- A record that passed its chain is collected, and one that did not is filtered out. -/
theorem harvest_done {r : Routed} {job : Job} (h : harvest w r job c = (.done, c')) :
    ∃ outcome c₁, c.Tells [.processed job (.ok outcome)] c₁ ∧
      c' = if outcome.passed then c₁.collect ⟨job.slot, r, outcome.carried.value⟩
        else c₁.filterOut r.coordinates := by
  simp only [harvest] at h
  split at h
  case h_1 outcome heq =>
    rw [heq] at h
    have htell := c.tells_step (w.finish job c.session.world).2
      (show (Event.processed job (.ok outcome)).isNews = true from rfl)
    split at h
    · next hp =>
      obtain ⟨-, rfl⟩ := Prod.mk.inj h
      refine ⟨outcome, _, htell.quiet (Course.tells_on _ ((Session.tells_count ..).quiet
        (Session.tells_observe ..))), by rw [if_pos hp]⟩
    · next hp =>
      obtain ⟨-, rfl⟩ := Prod.mk.inj h
      exact ⟨outcome, _, htell.quiet (Course.tells_on _ (Session.tells_count ..)), by rw [if_neg hp]⟩
  case h_2 => simp at h

theorem harvest_failed {r : Routed} {job : Job} {giveUp : Bool}
    (h : harvest w r job c = (.failed giveUp, c')) :
    ∃ e, giveUp = e.isGiveUp ∧ c.Tells [.processed job (.error e)] c' := by
  simp only [harvest] at h
  split at h
  case h_1 => split at h <;> simp at h
  case h_2 e heq =>
    rw [heq] at h
    obtain ⟨hg, rfl⟩ := Prod.mk.inj h
    exact ⟨e, (Landing.failed.inj hg).symm, c.tells_step _ rfl⟩

theorem harvest_ne_stopped {r : Routed} {job : Job} {e : DispatchError} :
    harvest w r job c ≠ (.stopped e, c') := by
  intro h
  simp only [harvest] at h
  split at h
  · split at h <;> simp at h
  · simp at h

end Dispatcher

/-! ## Publishing -/

namespace Publisher

variable {σ : Type} {w : World σ} {p : Publisher} {registry : Registry}

theorem tells_connect (source : Source) (clients : List String) (s : Session σ) :
    s.Tells [] (connect w source clients s).2 := by
  induction clients generalizing s with
  | nil => exact .refl s
  | cons client rest ih =>
    simp only [connect]
    split
    · exact ((Session.tells_world ..).quiet (Session.tells_aside rfl _)).quiet (ih _)
    · exact (Session.tells_world ..).quiet (Session.tells_aside rfl _)

theorem tells_build (tenant : String) (s : Session σ) : s.Tells [] (build w p registry tenant s).2 := by
  simp only [build]
  split
  · exact .refl s
  · next source _ =>
    have h := tells_connect (w := w) source (p.clientIds tenant) s
    split
    · next heq =>
      rw [heq] at h
      exact h
    · next heq =>
      rw [heq] at h
      exact h.quiet ⟨⟨[_], rfl, rfl⟩, rfl, Nat.le_refl _⟩

theorem tells_obtain (subscriber : Subscriber) (s : Session σ) :
    s.Tells [] (obtain w p registry subscriber s).2 := by
  simp only [obtain]
  split
  · exact .refl s
  · split
    · exact .refl s
    · exact tells_build _ s

theorem tells_select (subscriber : Subscriber) (key : Bytes) (s : Session σ) :
    s.Tells [] (select w p registry subscriber key s).2 := by
  have h : s.Tells [] (obtain w p registry subscriber s).2 := tells_obtain subscriber s
  simp only [select]
  split
  · next heq =>
    rw [heq] at h
    exact h
  · next heq =>
    rw [heq] at h
    exact h.quiet (Session.tells_world ..)

/-- The attempt to publish a record that a message belongs to. -/
structure Carries (p : Publisher) (slot : Nat) (times : UInt32) (r : Routed) (value : Json.Value)
    (x : Shipment) : Prop where
  /-- The place of the record. -/
  slot : x.slot = slot
  /-- The retries before the attempt. -/
  times : x.times = times
  /-- The message that the record is published as. -/
  message : x.message = r.message p.lead p.pipeline value

/-- A message that a producer accepted carries the record. -/
theorem send_ok {slot : Nat} {times : UInt32} {r : Routed} {value : Json.Value} {s s' : Session σ}
    {x : Shipment} (h : p.send w registry slot times r value s = (.ok x, s')) :
    p.Carries slot times r value x ∧ s.Tells [.sent x (.ok ())] s' := by
  have hselect : s.Tells [] (select w p registry r.subscriber r.record.keyBytes s).2 := tells_select ..
  simp only [send] at h
  split at h
  · simp at h
  · next heq =>
    rw [heq] at hselect
    split at h
    · obtain ⟨hx, rfl⟩ := Prod.mk.inj h
      obtain rfl := Except.ok.inj hx
      exact ⟨⟨rfl, rfl, rfl⟩, hselect.after_quiet (Session.tells_world_note _ rfl _)⟩
    · simp at h

/-- A message fails before it is handed over, or a producer refuses it. -/
theorem send_error {slot : Nat} {times : UInt32} {r : Routed} {value : Json.Value} {s s' : Session σ}
    {e : PublishError} (h : p.send w registry slot times r value s = (.error e, s')) :
    s.Tells [.unsent slot times e] s' ∨
      ∃ x, p.Carries slot times r value x ∧ s.Tells [.sent x (.error e)] s' := by
  have hselect : s.Tells [] (select w p registry r.subscriber r.record.keyBytes s).2 := tells_select ..
  simp only [send] at h
  split at h
  · next heq =>
    rw [heq] at hselect
    obtain ⟨he, rfl⟩ := Prod.mk.inj h
    obtain rfl := Except.error.inj he
    exact .inl (hselect.after_quiet (Session.tells_note rfl _))
  · next heq =>
    rw [heq] at hselect
    split at h
    · simp at h
    · obtain ⟨he, rfl⟩ := Prod.mk.inj h
      obtain rfl := Except.error.inj he
      exact .inr ⟨_, ⟨rfl, rfl, rfl⟩, hselect.after_quiet (Session.tells_world_note _ rfl _)⟩

end Publisher

namespace Dispatcher

variable {σ : Type} {w : World σ} {d : Dispatcher} {registry : Registry} {c c' : Course σ}

/-- The news of an attempt to hand a record over that failed. -/
def Unsent (d : Dispatcher) (slot : Nat) (m : Mapped) (a : Attempt) (e : PublishError) (news : Event) :
    Prop :=
  news = .unsent slot a.times e ∨
    ∃ x, d.publisher.Carries slot a.times m.routed m.value x ∧ news = .sent x (.error e)

/-- A message in flight carries the record, and its producer accepted it. -/
theorem send_flying {slot : Nat} {m : Mapped} {a : Attempt} {x : Shipment}
    (h : d.send w registry slot m a c = (.flying x, c')) :
    d.publisher.Carries slot a.times m.routed m.value x ∧ c.Tells [.sent x (.ok ())] c' := by
  simp only [send] at h
  split at h
  · next heq =>
    obtain ⟨hx, rfl⟩ := Prod.mk.inj h
    obtain rfl := Launch.flying.inj hx
    obtain ⟨hcarries, htell⟩ := Publisher.send_ok heq
    exact ⟨hcarries, ⟨htell, rfl, rfl, rfl⟩⟩
  · split at h <;> simp at h

theorem tells_unsent {slot : Nat} {m : Mapped} {a : Attempt} {e : PublishError} {s : Session σ}
    (h : d.publisher.send w registry slot a.times m.routed m.value c.session = (.error e, s)) :
    ∃ news, d.Unsent slot m a e news ∧ c.Tells [news] { c with session := s } := by
  rcases Publisher.send_error h with htell | ⟨x, hcarries, htell⟩
  · exact ⟨_, .inl rfl, ⟨htell, rfl, rfl, rfl⟩⟩
  · exact ⟨_, .inr ⟨x, hcarries, rfl⟩, ⟨htell, rfl, rfl, rfl⟩⟩

/-- A record that could not be handed over fails unless the configuration is at fault. -/
theorem send_failed {slot : Nat} {m : Mapped} {a : Attempt} {giveUp : Bool}
    (h : d.send w registry slot m a c = (.failed giveUp, c')) :
    ∃ e news, e.isConfig = false ∧ giveUp = e.isGiveUp ∧ d.Unsent slot m a e news ∧
      c.Tells [news] c' := by
  simp only [send] at h
  split at h
  · simp at h
  · next e s heq =>
    obtain ⟨news, hunsent, htell⟩ := tells_unsent heq
    split at h
    · simp at h
    · next e' he =>
      obtain ⟨hg, rfl⟩ := Prod.mk.inj h
      obtain ⟨hconfig, rfl⟩ := PublishError.escalate_eq_ok he
      exact ⟨_, news, hconfig, (Launch.failed.inj hg).symm, hunsent, htell⟩

/-- Only a mistake in the configuration stops the dispatch when a record is handed over. -/
theorem send_stopped {slot : Nat} {m : Mapped} {a : Attempt} {e : DispatchError}
    (h : d.send w registry slot m a c = (.stopped e, c')) :
    ∃ cause news, e = .config cause ∧ d.Unsent slot m a (.config cause) news ∧ c.Tells [news] c' := by
  simp only [send] at h
  split at h
  · simp at h
  · next heq =>
    obtain ⟨news, hunsent, htell⟩ := tells_unsent heq
    split at h
    · next he =>
      obtain ⟨hstop, rfl⟩ := Prod.mk.inj h
      obtain ⟨cause, rfl, rfl⟩ := PublishError.escalate_eq_error he
      exact ⟨cause, news, (Launch.stopped.inj hstop).symm, hunsent, htell⟩
    · simp at h

/-- A record whose delivery is reported is published. -/
theorem confirm_done {m : Mapped} {x : Shipment} (h : confirm w m x c = (.done, c')) :
    ∃ c₁, c.Tells [.delivered x (.ok ())] c₁ ∧ c' = c₁.publish m.routed.coordinates := by
  simp only [confirm] at h
  split at h
  · next heq =>
    rw [heq] at h
    have htell := c.tells_step (w.deliver x c.session.world).2
      (show (Event.delivered x (.ok ())).isNews = true from rfl)
    obtain ⟨-, rfl⟩ := Prod.mk.inj h
    exact ⟨_, htell.quiet (Course.tells_on _ ((Session.tells_count ..).quiet
      (Session.tells_observe ..))), rfl⟩
  · split at h <;> simp at h

theorem confirm_failed {m : Mapped} {x : Shipment} {giveUp : Bool}
    (h : confirm w m x c = (.failed giveUp, c')) :
    ∃ e, e.isConfig = false ∧ giveUp = e.isGiveUp ∧ c.Tells [.delivered x (.error e)] c' := by
  simp only [confirm] at h
  split at h
  · simp at h
  · next e heq =>
    rw [heq] at h
    split at h
    · simp at h
    · next he =>
      obtain ⟨hg, rfl⟩ := Prod.mk.inj h
      obtain ⟨hconfig, rfl⟩ := PublishError.escalate_eq_ok he
      exact ⟨_, hconfig, (Landing.failed.inj hg).symm, c.tells_step _ rfl⟩

/-- Only a mistake in the configuration stops the dispatch when a delivery is reported. -/
theorem confirm_stopped {m : Mapped} {x : Shipment} {e : DispatchError}
    (h : confirm w m x c = (.stopped e, c')) :
    ∃ cause, e = .config cause ∧ c.Tells [.delivered x (.error (.config cause))] c' := by
  simp only [confirm] at h
  split at h
  · simp at h
  · next heq =>
    rw [heq] at h
    split at h
    · next he =>
      obtain ⟨hstop, rfl⟩ := Prod.mk.inj h
      obtain ⟨cause, rfl, rfl⟩ := PublishError.escalate_eq_error he
      exact ⟨cause, (Landing.stopped.inj hstop).symm, c.tells_step _ rfl⟩
    · simp at h

theorem awaitDelivery_eq (d : Dispatcher) (m : Mapped) (x : Shipment) (c : Course σ) :
    d.awaitDelivery m x c =
      if d.level.awaitsDelivery then (true, c)
      else (false, (c.on (·.count "checkpoint_sent_total" [("status", "enqueued")] 1)).publish
        m.routed.coordinates) := rfl

theorem tells_flushUsed (c : Course σ) : c.Tells [] (flushUsed w c) := by
  rw [flushUsed]
  generalize c.used.keys = clients
  induction clients generalizing c with
  | nil => exact .refl c
  | cons client rest ih =>
    rw [List.foldl_cons]
    refine Course.Tells.quiet (c.tells_on ?_) (ih _)
    exact (Session.tells_world ..).quiet (Session.tells_aside rfl _)

theorem tells_countPartitions (name : String) (partitions : List Partition) (c : Course σ) :
    c.Tells [] (countPartitions name partitions c) := by
  rw [countPartitions]
  induction partitions generalizing c with
  | nil => exact .refl c
  | cons p rest ih => exact (c.tells_on (Session.tells_count ..)).quiet (ih _)

/-! ## Matching -/

/-- The places of a batch at which nothing is to be done: undecodable messages and unmatched records. -/
def idle (subscribers : List Subscriber) (batch : Batch) : List Coordinates :=
  batch.errors.filterMap (·.coordinates?) ++
    (Matching.ofRecords subscribers batch.records).unmatched.map (·.coordinates)

/-- Matching settles the idle places and counts. -/
theorem matchBatch_eq (subscribers : List Subscriber) (batch : Batch) (c : Course σ) :
    let m := Matching.ofRecords subscribers batch.records
    ∃ c', (c.settleAll (idle subscribers batch)).Tells [] c' ∧
      matchBatch subscribers batch c =
        (m.matched, { c' with
          summary := { c.summary with
            matched := m.matched.length
            unmatched := m.unmatched.length
            undecodable := batch.errors.length } }) := by
  intro m
  have hsettle : (c.settleAll (batch.errors.filterMap (·.coordinates?))).settleAll
      (m.unmatched.map (·.coordinates)) = c.settleAll (idle subscribers batch) := by
    simp only [Course.settleAll, idle, List.foldl_append, m]
  have hsummary : (c.settleAll (idle subscribers batch)).summary = c.summary := by
    rw [Course.settleAll_eq]
  by_cases hm : m.unmatched.isEmpty = true
  · refine ⟨_, .refl _, ?_⟩
    simp only [matchBatch, m, hm, if_true, ← hsettle] at *
    simp [hsummary]
  · refine ⟨_, Course.tells_on _ (Session.tells_count "records_unmatched_total" [] m.unmatched.length _), ?_⟩
    simp only [matchBatch, m, hm, ← hsettle] at *
    simp [hsummary, Course.on]

end Dispatcher

/-! ## Judging a failed attempt -/

namespace Work

variable {σ α τ : Type} {k : Work σ α τ} {b : Budget} {t : Task α τ} {giveUp : Bool} {c : Course σ}

/-- An attempt that is retried rests before the next one. -/
theorem fail_retry {attempt : Attempt} {backoff : Duration}
    (h : b.policy.decide c.session.now t.attempt giveUp b.enabled = .retry attempt backoff) :
    ∃ c', c.Tells [.judged k.stage t.slot t.attempt c.session.now (.retry attempt backoff)] c' ∧
      k.fail b t giveUp c =
        (some { t with attempt, phase := .resting (c.session.now + backoff.nanos) }, c') := by
  refine ⟨_, ?_, by simp only [fail, h]; rfl⟩
  exact (Course.tells_on _ ((Session.tells_count ..).after_quiet (Session.tells_note rfl _))).quiet
    (Course.tells_on _ (Session.tells_count ..))

/-- A record that is not retried is abandoned. -/
theorem fail_abandon {reason : AbandonReason}
    (h : b.policy.decide c.session.now t.attempt giveUp b.enabled = .abandon reason) :
    ∃ c', c.Tells [.judged k.stage t.slot t.attempt c.session.now (.abandon reason)] c' ∧
      k.fail b t giveUp c = (none, c'.abandon (k.place t.item)) := by
  refine ⟨_, ?_, by simp only [fail, h]; rfl⟩
  exact (Course.tells_on _ ((Session.tells_count ..).after_quiet (Session.tells_note rfl _))).quiet
    (Course.tells_on _ (Session.tells_count ..))

theorem fail_phase (phase : Phase τ) : k.fail b { t with phase } giveUp c = k.fail b t giveUp c := by
  cases h : b.policy.decide c.session.now t.attempt giveUp b.enabled <;> simp only [fail, h]

end Work

end Relay
