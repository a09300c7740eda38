import Relay.Proofs.WorkRules

/-!
# What became of every record of a batch

A dispatch that republishes and awaits deliveries leaves no place of its batch without a status, and a place
is settled for a reason: its message was undecodable, no subscriber takes its record, its chain rejected the
record, or the delivery of its own mapped payload was reported. Until the end, a place without a status is
pending: an attempt at its record is in flight, or its payload waits to be published.
-/

namespace Relay

/-- The places of a batch, as far as they are known. -/
def Batch.places (b : Batch) : List Coordinates :=
  b.errors.filterMap (·.coordinates?) ++ b.records.map (·.coordinates)

section Since

variable {σ : Type} {s s' s'' : Session σ} {news : List Event} {e : Event}

/-- An event was written down after the first session and before the second one. -/
def Session.Since (s s' : Session σ) (e : Event) : Prop :=
  ∃ added, s'.journal = added ++ s.journal ∧ e ∈ added

theorem Session.Since.mono (h : s.Since s' e) (h' : s'.Adds news s'') : s.Since s'' e := by
  obtain ⟨added, hj, he⟩ := h
  obtain ⟨added', hj', -⟩ := h'
  exact ⟨added' ++ added, by rw [hj', hj, List.append_assoc], List.mem_append_right _ he⟩

theorem Session.Adds.since {old : List Event} (h : s.Adds old s') (h' : s'.Adds news s'') (he : e ∈ news) :
    s.Since s'' e := by
  obtain ⟨added, hj, rfl⟩ := h
  obtain ⟨added', hj', rfl⟩ := h'
  exact ⟨added' ++ added, by rw [hj', hj, List.append_assoc],
    List.mem_append_left _ (List.mem_filter.1 he).1⟩

end Since

/-! ## Reasons to settle a place -/

section Reasons

variable {σ : Type} (d : Dispatcher) (subscribers : List Subscriber) (batch : Batch)

/-- A record of a batch that a subscriber takes passed its chain with a payload. -/
structure Passed (s s' : Session σ) (r : Routed) (value : Json.Value) : Prop where
  /-- A subscriber takes the record. -/
  matched : r ∈ (Matching.ofRecords subscribers batch.records).matched
  /-- Its job ended well. -/
  processed : ∃ job outcome, s.Since s' (.processed job (.ok outcome)) ∧ job.routed = r ∧
    outcome.passed = true ∧ outcome.carried.value = value

/-- Why nothing is left to do at a place of a batch. -/
inductive Disposed (s s' : Session σ) (place : Coordinates) : Prop where
  /-- Its message could not be decoded. -/
  | undecodable (u : Undecodable) (carried : u ∈ batch.errors) (known : u.coordinates? = some place)
  /-- No subscriber takes its record. -/
  | unmatched (r : Record) (carried : r ∈ batch.records) (known : r.coordinates = place)
      (unmatched : r.route? subscribers = none)
  /-- The chain of its subscriber rejected its record. -/
  | filtered (job : Job) (outcome : Outcome)
      (matched : job.routed ∈ (Matching.ofRecords subscribers batch.records).matched)
      (known : job.routed.coordinates = place) (rejected : outcome.passed = false)
      (processed : s.Since s' (.processed job (.ok outcome)))
  /-- The delivery of its record was reported. -/
  | published (r : Routed) (value : Json.Value) (x : Shipment) (passed : Passed subscribers batch s s' r value)
      (known : r.coordinates = place)
      (message : x.message = r.message d.publisher.lead d.publisher.pipeline value)
      (delivered : s.Since s' (.delivered x (.ok ())))

end Reasons

section Accounts

variable {σ : Type} {d : Dispatcher} {subscribers : List Subscriber} {batch : Batch}
  {s s' s'' : Session σ} {news : List Event} {place : Coordinates}

theorem Passed.mono {r : Routed} {value : Json.Value} (h : Passed subscribers batch s s' r value)
    (h' : s'.Adds news s'') : Passed subscribers batch s s'' r value := by
  obtain ⟨hm, job, outcome, he, h⟩ := h
  exact ⟨hm, job, outcome, he.mono h', h⟩

theorem Disposed.mono (h : Disposed d subscribers batch s s' place) (h' : s'.Adds news s'') :
    Disposed d subscribers batch s s'' place := by
  cases h with
  | undecodable u hu hk => exact .undecodable u hu hk
  | unmatched r hr hk hn => exact .unmatched r hr hk hn
  | filtered job outcome hm hk hp he => exact .filtered job outcome hm hk hp (he.mono h')
  | published r value x hp hk hx he => exact .published r value x (hp.mono h') hk hx (he.mono h')

theorem coordinates_mem_places {r : Routed}
    (h : r ∈ (Matching.ofRecords subscribers batch.records).matched) : r.coordinates ∈ batch.places := by
  obtain ⟨record, hr, hroute⟩ := List.mem_filterMap.1 h
  obtain ⟨subscriber, -, rfl⟩ := Option.map_eq_some_iff.1 hroute
  exact List.mem_append_right _ (List.mem_map.2 ⟨record, hr, rfl⟩)

/-! ## The books of a batch -/

/-- What a course knows of a batch, where the places of a list are pending. -/
structure Accounts (d : Dispatcher) (subscribers : List Subscriber) (batch : Batch) (s : Session σ)
    (pending : List Coordinates) (c : Course σ) : Prop where
  /-- The journal grew. -/
  history : ∃ news, s.Adds news c.session
  /-- Only places of the batch have a status. -/
  carried : ∀ place, c.ledger.status place ≠ none → place ∈ batch.places
  /-- A place without a status is pending. -/
  covered : ∀ place ∈ batch.places, c.ledger.status place ≠ none ∨ place ∈ pending
  /-- A settled place has its reason. -/
  settled : ∀ place, c.ledger.status place = some .settled → Disposed d subscribers batch s c.session place
  /-- What waits to be published passed its chain. -/
  mapped : ∀ m ∈ c.mapped, Passed subscribers batch s c.session m.routed m.value
  /-- Nothing is acknowledged yet. -/
  unacknowledged : c.summary.committed = .empty ∧ c.summary.rewound = .empty

namespace Accounts

variable {pending pending' : List Coordinates} {c c' : Course σ}

theorem mono (h : Accounts d subscribers batch s pending c) (hp : ∀ place ∈ pending, place ∈ pending') :
    Accounts d subscribers batch s pending' c :=
  { h with covered := fun place hm => (h.covered place hm).imp_right (hp place) }

theorem tells (h : Accounts d subscribers batch s pending c) (ht : c.Tells news c') :
    Accounts d subscribers batch s pending c' := by
  obtain ⟨old, hold⟩ := h.history
  refine ⟨⟨_, hold.trans ht.session.adds⟩, ?_, ?_, ?_, ?_, ?_⟩
  · rw [ht.ledger]
    exact h.carried
  · rw [ht.ledger]
    exact h.covered
  · rw [ht.ledger]
    exact fun place hs => (h.settled place hs).mono ht.session.adds
  · rw [ht.mapped]
    exact fun m hm => (h.mapped m hm).mono ht.session.adds
  · rw [ht.summary]
    exact h.unacknowledged

/-- A place gets a status, and a reason if it is settled. -/
theorem report {status : Status} (h : Accounts d subscribers batch s (place :: pending) c)
    (hplace : place ∈ batch.places)
    (hreason : status = .settled → Disposed d subscribers batch s c.session place)
    (hl : c'.ledger = c.ledger.report place status) (hs : c'.session = c.session)
    (hm : c'.mapped = c.mapped)
    (hu : c'.summary.committed = c.summary.committed ∧ c'.summary.rewound = c.summary.rewound) :
    Accounts d subscribers batch s pending c' := by
  refine ⟨hs ▸ h.history, fun q hq => ?_, fun q hq => ?_, fun q hq => ?_, ?_, ?_⟩
  · rw [hl, Ledger.status_report] at hq
    split at hq
    · next he => exact he ▸ hplace
    · exact h.carried q hq
  · rw [hl, Ledger.status_report]
    split
    · exact .inl (by simp)
    · next hne =>
      rcases h.covered q hq with hc | hc
      · exact .inl hc
      · exact .inr ((List.mem_cons.1 hc).resolve_left hne)
  · rw [hl, Ledger.status_report] at hq
    rw [hs]
    split at hq
    · next he =>
      subst he
      cases status with
      | settled => exact hreason rfl
      | abandoned => cases ho : c.ledger.status q <;> simp [ho, Status.revise] at hq
    · exact h.settled q hq
  · rw [hm, hs]
    exact h.mapped
  · rw [hu.1, hu.2]
    exact h.unacknowledged

end Accounts

/-! ## Filtering and mapping -/

/-- The books while records are filtered and mapped. -/
structure Filtering (d : Dispatcher) (subscribers : List Subscriber) (batch : Batch) (s : Session σ)
    (ts : List (Task Routed Job)) (c : Course σ) : Prop where
  /-- What is in flight or mapped is pending. -/
  accounts : Accounts d subscribers batch s
    (ts.map (·.item.coordinates) ++ c.mapped.map (·.routed.coordinates)) c
  /-- Only matched records are in flight. -/
  matched : ∀ t ∈ ts, t.item ∈ (Matching.ofRecords subscribers batch.records).matched
  /-- Their jobs carry them. -/
  jobs : ∀ t ∈ ts, ∀ job, t.phase = .flying job → job.routed = t.item

namespace Filtering

variable {w : World σ} {c c' : Course σ} {t : Task Routed Job} {ts ts' : List (Task Routed Job)}

theorem moves (h : Filtering d subscribers batch s (t :: ts) c) (ht : c.Tells news c') {attempt : Attempt}
    {phase : Phase Job} (hjob : ∀ job, phase = .flying job → job.routed = t.item) :
    Filtering d subscribers batch s ({ t with attempt, phase } :: ts) c' := by
  obtain ⟨ha, hm, hj⟩ := h
  obtain ⟨hmt, hm⟩ := List.forall_mem_cons.1 hm
  obtain ⟨-, hj⟩ := List.forall_mem_cons.1 hj
  refine ⟨?_, List.forall_mem_cons.2 ⟨hmt, hm⟩, List.forall_mem_cons.2 ⟨hjob, hj⟩⟩
  rw [ht.mapped]
  exact ha.tells ht

/-- A job that ended well settles its record or leaves a payload to publish. -/
theorem landed {job : Job} (h : Filtering d subscribers batch s (t :: ts) c) (hp : t.phase = .flying job)
    (hl : Dispatcher.harvest w t.item job c = (.done, c')) : Filtering d subscribers batch s ts c' := by
  obtain ⟨ha, hm, hj⟩ := h
  obtain ⟨hmt, hm⟩ := List.forall_mem_cons.1 hm
  obtain ⟨hjt, hj⟩ := List.forall_mem_cons.1 hj
  have hjob := hjt job hp
  obtain ⟨outcome, c₁, htell, rfl⟩ := Dispatcher.harvest_done hl
  obtain ⟨old, hold⟩ := ha.history
  have hsince : s.Since c₁.session (.processed job (.ok outcome)) :=
    hold.since htell.session.adds List.mem_cons_self
  have ha := ha.tells htell
  rw [← htell.mapped] at ha
  split
  · next hpassed =>
    refine ⟨⟨ha.history, ha.carried, ?_, ha.settled, ?_, ha.unacknowledged⟩, hm, hj⟩
    · refine fun place hplace => (ha.covered place hplace).imp_right fun hp => ?_
      simp only [List.map_cons, Course.collect] at hp ⊢
      exact List.perm_middle.symm.mem_iff.1 hp
    · exact List.forall_mem_cons.2 ⟨⟨hmt, job, outcome, hsince, hjob, hpassed, rfl⟩, ha.mapped⟩
  · next hpassed =>
    have hledger : (c₁.filterOut t.item.coordinates).ledger =
        c₁.ledger.report t.item.coordinates .settled := rfl
    refine ⟨ha.report (coordinates_mem_places hmt) (fun _ => ?_) hledger rfl rfl ⟨rfl, rfl⟩, hm, hj⟩
    exact .filtered job outcome (hjob ▸ hmt) (hjob ▸ rfl) (by simpa using hpassed) hsince

theorem keeps (w : World σ) (d : Dispatcher) (subscribers : List Subscriber) (batch : Batch)
    (s : Session σ) (b : Budget) :
    (Dispatcher.filterMap w d).Keeps b (Filtering d subscribers batch s) (fun _ _ => True) where
  perm hp h :=
    ⟨h.accounts.mono fun place hm => ((hp.map _).append_right _).mem_iff.1 hm,
      fun t ht => h.matched t (hp.mem_iff.2 ht), fun t ht => h.jobs t (hp.mem_iff.2 ht)⟩
  quiet htell h := ⟨htell.mapped ▸ h.accounts.tells htell, h.matched, h.jobs⟩
  launched _ h hl := by
    obtain ⟨rfl, htell⟩ := Dispatcher.submit_flying hl
    exact h.moves htell (by rintro _ ⟨⟩; rfl)
  unlaunched _ _ hl := absurd hl Dispatcher.submit_ne_failed
  barred _ _ _ := trivial
  landed hp h hl := h.landed hp hl
  crashed _ h hl := by
    obtain ⟨e, -, htell⟩ := Dispatcher.harvest_failed hl
    exact h.moves htell (by simp)
  broken _ _ _ := trivial
  retried _ _ h _ htell := h.moves htell (by simp)
  abandoned _ h _ htell := by
    obtain ⟨ha, hm, hj⟩ := h
    obtain ⟨hmt, hm⟩ := List.forall_mem_cons.1 hm
    obtain ⟨-, hj⟩ := List.forall_mem_cons.1 hj
    have ha := ha.tells htell
    rw [← htell.mapped] at ha
    exact ⟨ha.report (coordinates_mem_places hmt) (by simp) rfl rfl rfl ⟨rfl, rfl⟩, hm, hj⟩

end Filtering

/-! ## Publishing -/

/-- The books while payloads are published. -/
structure Publishing (d : Dispatcher) (subscribers : List Subscriber) (batch : Batch) (s : Session σ)
    (ts : List (Task Mapped Shipment)) (c : Course σ) : Prop where
  /-- What is in flight is pending. -/
  accounts : Accounts d subscribers batch s (ts.map (·.item.routed.coordinates)) c
  /-- Only payloads of records that passed their chain are in flight. -/
  passed : ∀ t ∈ ts, Passed subscribers batch s c.session t.item.routed t.item.value
  /-- Their messages carry them. -/
  messages : ∀ t ∈ ts, ∀ x, t.phase = .flying x →
    x.message = t.item.routed.message d.publisher.lead d.publisher.pipeline t.item.value

namespace Publishing

variable {w : World σ} {registry : Registry} {c c' : Course σ} {t : Task Mapped Shipment}
  {ts ts' : List (Task Mapped Shipment)}

theorem tells (h : Publishing d subscribers batch s ts c) (ht : c.Tells news c') :
    Publishing d subscribers batch s ts c' :=
  ⟨h.accounts.tells ht, fun t hm => (h.passed t hm).mono ht.session.adds, h.messages⟩

theorem moves (h : Publishing d subscribers batch s (t :: ts) c) (ht : c.Tells news c') {attempt : Attempt}
    {phase : Phase Shipment} (hmessage : ∀ x, phase = .flying x →
      x.message = t.item.routed.message d.publisher.lead d.publisher.pipeline t.item.value) :
    Publishing d subscribers batch s ({ t with attempt, phase } :: ts) c' := by
  obtain ⟨ha, hp, hm⟩ := h.tells ht
  obtain ⟨hpt, hp⟩ := List.forall_mem_cons.1 hp
  obtain ⟨-, hm⟩ := List.forall_mem_cons.1 hm
  exact ⟨ha, List.forall_mem_cons.2 ⟨hpt, hp⟩, List.forall_mem_cons.2 ⟨hmessage, hm⟩⟩

/-- A record whose status is reported is no longer in flight. -/
theorem leaves {status : Status} (h : Publishing d subscribers batch s (t :: ts) c)
    (hreason : status = .settled →
      Disposed d subscribers batch s c.session t.item.routed.coordinates)
    (hl : c'.ledger = c.ledger.report t.item.routed.coordinates status) (hs : c'.session = c.session)
    (hm : c'.mapped = c.mapped)
    (hu : c'.summary.committed = c.summary.committed ∧ c'.summary.rewound = c.summary.rewound) :
    Publishing d subscribers batch s ts c' := by
  obtain ⟨ha, hp, hx⟩ := h
  obtain ⟨hpt, hp⟩ := List.forall_mem_cons.1 hp
  obtain ⟨-, hx⟩ := List.forall_mem_cons.1 hx
  refine ⟨ha.report (coordinates_mem_places hpt.matched) hreason hl hs hm hu, ?_, hx⟩
  rw [hs]
  exact hp

/-- A record whose delivery is reported is settled. -/
theorem landed {x : Shipment} (h : Publishing d subscribers batch s (t :: ts) c)
    (hp : t.phase = .flying x) (hl : Dispatcher.confirm w t.item x c = (.done, c')) :
    Publishing d subscribers batch s ts c' := by
  obtain ⟨c₁, htell, rfl⟩ := Dispatcher.confirm_done hl
  obtain ⟨old, hold⟩ := h.accounts.history
  have hmessage := h.messages t List.mem_cons_self x hp
  have hsince : s.Since c₁.session (.delivered x (.ok ())) :=
    hold.since htell.session.adds List.mem_cons_self
  have h := h.tells htell
  have hledger : (c₁.publish t.item.routed.coordinates).ledger =
      c₁.ledger.report t.item.routed.coordinates .settled := rfl
  refine h.leaves (fun _ => ?_) hledger rfl rfl ⟨rfl, rfl⟩
  exact .published _ _ x (h.passed t List.mem_cons_self) rfl hmessage hsince

theorem keeps (w : World σ) (d : Dispatcher) (registry : Registry) (subscribers : List Subscriber)
    (batch : Batch) (s : Session σ) (b : Budget) :
    (Dispatcher.publish w d registry).Keeps b (Publishing d subscribers batch s) (fun _ _ => True) where
  perm hp h :=
    ⟨h.accounts.mono fun place hm => (hp.map _).mem_iff.1 hm,
      fun t ht => h.passed t (hp.mem_iff.2 ht), fun t ht => h.messages t (hp.mem_iff.2 ht)⟩
  quiet htell h := h.tells htell
  launched _ h hl := by
    obtain ⟨hcarries, htell⟩ := Dispatcher.send_flying hl
    exact h.moves htell (by rintro _ ⟨⟩; exact hcarries.message)
  unlaunched _ h hl := by
    obtain ⟨e, news, -, -, -, htell⟩ := Dispatcher.send_failed hl
    exact h.moves htell (by simp)
  barred _ _ _ := trivial
  landed hp h hl := h.landed hp hl
  crashed _ h hl := by
    obtain ⟨e, -, -, htell⟩ := Dispatcher.confirm_failed hl
    exact h.moves htell (by simp)
  broken _ _ _ := trivial
  retried _ _ h _ htell := h.moves htell (by simp)
  abandoned {t _ _ _ _ c'} _ h _ htell := by
    have hledger : (c'.abandon t.item.routed.coordinates).ledger =
        c'.ledger.report t.item.routed.coordinates .abandoned := rfl
    exact (h.tells htell).leaves (by simp) hledger rfl rfl ⟨rfl, rfl⟩

end Publishing

/-! ## From one stage to the next -/

theorem mem_places_of_mem_idle (h : place ∈ Dispatcher.idle subscribers batch) : place ∈ batch.places := by
  rcases List.mem_append.1 h with h | h
  · exact List.mem_append_left _ h
  · obtain ⟨r, hr, rfl⟩ := List.mem_map.1 h
    exact List.mem_append_right _ (List.mem_map.2 ⟨r, (List.mem_filter.1 hr).1, rfl⟩)

/-- An idle place is settled for a reason. -/
theorem disposed_of_mem_idle (h : place ∈ Dispatcher.idle subscribers batch) :
    Disposed d subscribers batch s s' place := by
  rcases List.mem_append.1 h with h | h
  · obtain ⟨u, hu, hk⟩ := List.mem_filterMap.1 h
    exact .undecodable u hu hk
  · obtain ⟨r, hr, rfl⟩ := List.mem_map.1 h
    obtain ⟨hr, hn⟩ := List.mem_filter.1 hr
    exact .unmatched r hr rfl (Option.isNone_iff_eq_none.1 hn)

/-- A place of a batch is idle, or a matched record stands there. -/
theorem mem_idle_or_matched (subscribers : List Subscriber) (h : place ∈ batch.places) :
    place ∈ Dispatcher.idle subscribers batch ∨
      place ∈ (Matching.ofRecords subscribers batch.records).matched.map (·.coordinates) := by
  rcases List.mem_append.1 h with h | h
  · exact .inl (List.mem_append_left _ h)
  · obtain ⟨r, hr, rfl⟩ := List.mem_map.1 h
    cases hroute : r.route? subscribers with
    | none =>
      exact .inl (List.mem_append_right _
        (List.mem_map.2 ⟨r, List.mem_filter.2 ⟨hr, by simp [hroute]⟩, rfl⟩))
    | some routed =>
      obtain ⟨subscriber, -, rfl⟩ := Option.map_eq_some_iff.1 hroute
      exact .inr (List.mem_map.2 ⟨_, List.mem_filterMap.2 ⟨r, hr, hroute⟩, rfl⟩)

/-- When a batch is matched, only its idle places have a status. -/
theorem Dispatcher.Begins.status_eq {c : Course σ} (h : Begins subscribers batch s c) (place : Coordinates) :
    c.ledger.status place = if place ∈ idle subscribers batch then some .settled else none := by
  rw [h.ledger, Ledger.status_foldl_settle]
  simp

/-- When a batch is matched, its matched records are pending. -/
theorem Filtering.begins {c : Course σ} (h : Dispatcher.Begins subscribers batch s c) :
    Filtering d subscribers batch s
      ((Matching.ofRecords subscribers batch.records).matched.zipIdx.map
        (fun x => ⟨x.2, x.1, .first 0, .resting 0⟩) ++ []) c := by
  have hstatus := h.status_eq
  refine ⟨⟨⟨[], h.session.adds⟩, fun place hp => ?_, fun place hp => ?_, fun place hp => ?_, ?_, ?_⟩,
    ?_, ?_⟩
  · rw [hstatus] at hp
    split at hp
    · next hi => exact mem_places_of_mem_idle hi
    · exact absurd rfl hp
  · rw [hstatus]
    rcases mem_idle_or_matched subscribers hp with hi | hm
    · exact .inl (by simp [hi])
    · right
      simp only [h.mapped, List.append_nil, List.map_map, List.map_nil]
      rw [← List.zipIdx_map_fst 0 (Matching.ofRecords subscribers batch.records).matched, List.map_map] at hm
      exact hm
  · rw [hstatus] at hp
    split at hp
    · next hi => exact disposed_of_mem_idle hi
    · simp at hp
  · simp [h.mapped]
  · simp [h.summary, Summary.empty]
  · intro t ht
    simp only [List.append_nil, List.mem_map] at ht
    obtain ⟨x, hx, rfl⟩ := ht
    exact List.fst_mem_of_mem_zipIdx hx
  · intro t ht job hp
    simp only [List.append_nil, List.mem_map] at ht
    obtain ⟨x, hx, rfl⟩ := ht
    simp at hp

/-- When the chains are done, the mapped payloads are pending. -/
theorem Filtering.published {c : Course σ} (h : Filtering d subscribers batch s [] c) :
    Publishing d subscribers batch s
      (((Dispatcher.sorted c.mapped.reverse).map fun m => (m, m.slot)).map
        (fun x => ⟨x.2, x.1, .first 0, .resting 0⟩) ++ []) c := by
  have hperm := Dispatcher.sorted_perm c.mapped
  refine ⟨h.accounts.mono fun place hp => ?_, fun t ht => ?_, fun t ht x hp => ?_⟩
  · simp only [List.map_nil, List.nil_append, List.mem_map] at hp
    obtain ⟨m, hm, rfl⟩ := hp
    simp only [List.append_nil, List.map_map, List.mem_map]
    exact ⟨m, hperm.mem_iff.2 hm, rfl⟩
  · simp only [List.append_nil, List.map_map, List.mem_map] at ht
    obtain ⟨m, hm, rfl⟩ := ht
    exact h.accounts.mapped m (hperm.mem_iff.1 hm)
  · simp only [List.append_nil, List.map_map, List.mem_map] at ht
    obtain ⟨m, hm, rfl⟩ := ht
    simp at hp

end Accounts

end Relay
