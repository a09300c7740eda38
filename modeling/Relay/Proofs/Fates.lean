import Relay.Proofs.Failing
import Relay.Proofs.Reckoning

/-!
# What the fates of the records settle

A matched record that does not end well has a fate: its chain rejects it, a verdict gives it up, or it stops the
whole dispatch. The journal tells the fates, no record has two of them, and the summary counts them. So what a
batch comes to depends on the fates of its records alone, not on the order in which they were met or on the
attempts that it took.
-/

namespace Relay

/-- How a matched record ends if it does not end well. -/
inductive Fate where
  /-- Its chain rejects it. -/
  | rejected
  /-- A verdict gives it up. -/
  | abandoned
  /-- It stops the dispatch. -/
  | fatal (e : DispatchError)
  deriving DecidableEq, Repr

namespace Dispatcher

/-- The place of the record whose fate an event seals, and the fate. -/
def fate? (d : Dispatcher) (e : Event) : Option (Nat × Fate) :=
  match e with
  | .processed job (.ok outcome) => if outcome.passed then none else some (job.slot, .rejected)
  | .judged _ slot _ _ (.abandon _) => some (slot, .abandoned)
  | e => (d.stops? e).bind fun err => e.sign.map fun x => (x.2.1, .fatal err)

/-- The fates that were met between two sessions, the latest first. -/
def fates {σ : Type} (d : Dispatcher) (s s' : Session σ) : List (Nat × Fate) :=
  (s.written s').filterMap d.fate?

section Fates

variable {σ : Type} {d : Dispatcher} {s s' s'' : Session σ} {old news : List Event} {e : Event}

theorem fate?_of_not_isNews (h : e.isNews = false) : d.fate? e = none := by
  cases e <;> first | rfl | simp [Event.isNews] at h

theorem fates_adds (h : s.Adds old s') (h' : s'.Adds news s'') :
    d.fates s s'' = news.filterMap d.fate? ++ d.fates s s' :=
  Session.filterMap_written (fun _ => fate?_of_not_isNews) h h'

theorem fates_eq_nil (h : s.Adds [] s') : d.fates s s' = [] := by
  obtain ⟨added, hj, hnews⟩ := h
  rw [fates, Session.written_eq hj, filterMap_of_isNews fun _ => fate?_of_not_isNews, hnews]
  rfl

/-- A record that was not handed over has a fate only if that stops the dispatch. -/
theorem fate?_of_unsent {slot : Nat} {m : Mapped} {a : Attempt} {cause : PublishError}
    (h : d.Unsent slot m a cause e) (hs : d.stops? e = none) : d.fate? e = none := by
  rcases h with rfl | ⟨x, -, rfl⟩
  · simp [fate?, hs]
  · simp [fate?, hs]

/-- An event stops a dispatch exactly if that is the fate of its record. -/
theorem stops?_iff {err : DispatchError} : d.stops? e = some err ↔ ∃ slot, d.fate? e = some (slot, .fatal err) := by
  constructor
  · intro h
    unfold stops? at h
    split at h <;> simp at h
    all_goals exact ⟨_, by rw [← h]; rfl⟩
  · rintro ⟨slot, h⟩
    unfold fate? at h
    split at h
    · split at h <;> simp at h
    · simp at h
    · obtain ⟨err', he, hx⟩ := Option.bind_eq_some_iff.1 h
      obtain ⟨x, -, heq⟩ := Option.map_eq_some_iff.1 hx
      obtain ⟨-, hfatal⟩ := Prod.mk.inj heq
      rw [he, Fate.fatal.inj hfatal]

theorem mem_fates {slot : Nat} {fate : Fate} :
    (slot, fate) ∈ d.fates s s' ↔ ∃ e ∈ s.written s', d.fate? e = some (slot, fate) := List.mem_filterMap

/-- A verdict on a record gave it up exactly if that is its fate. -/
theorem abandoned_mem_fates {slot : Nat} :
    (slot, .abandoned) ∈ d.fates s s' ↔
      ∃ stage a now reason, .judged stage slot a now (.abandon reason) ∈ s.written s' := by
  rw [mem_fates]
  constructor
  · rintro ⟨e, hm, he⟩
    unfold fate? at he
    split at he
    · split at he <;> simp at he
    · next stage slot' a now reason =>
      obtain ⟨rfl, -⟩ := Prod.mk.inj (Option.some.inj he)
      exact ⟨stage, a, now, reason, hm⟩
    · obtain ⟨err, -, hx⟩ := Option.bind_eq_some_iff.1 he
      obtain ⟨x, -, heq⟩ := Option.map_eq_some_iff.1 hx
      simp at heq
  · rintro ⟨stage, a, now, reason, hm⟩
    exact ⟨_, hm, rfl⟩

end Fates

end Dispatcher

/-! ## Ledgers without empty partitions -/

namespace Ledger

/-- No partition of a ledger is empty. -/
def Dense (l : Ledger) : Prop := ∀ p offsets, l.partitions.get? p = some offsets → offsets.isEmpty = false

theorem dense_empty : empty.Dense := by
  intro p offsets h
  simp [empty] at h

theorem Dense.report {l : Ledger} (h : l.Dense) (place : Coordinates) (s : Status) : (l.report place s).Dense := by
  intro p offsets hp
  rw [get?_report] at hp
  split at hp
  · obtain rfl := Option.some.inj hp
    exact SortedMap.isEmpty_of_get? ((SortedMap.get?_insert ..).trans (if_pos Std.ReflCmp.compare_self))
  · exact h p offsets hp

theorem Dense.settleAll {l : Ledger} (h : l.Dense) (places : List Coordinates) : (places.foldl settle l).Dense := by
  induction places generalizing l with
  | nil => exact h
  | cons place rest ih => exact ih (h.report place .settled)

theorem Dense.exists_status {l : Ledger} (h : l.Dense) {p : Partition} (hp : l.partitions.get? p ≠ none) :
    ∃ o, l.status ⟨p, o⟩ ≠ none := by
  obtain ⟨offsets, hoffsets⟩ := Option.ne_none_iff_exists'.1 hp
  by_contra hn
  push Not at hn
  have hempty : offsets.isEmpty = true := by
    refine (SortedMap.isEmpty_iff _).2 fun o => ?_
    have ho := hn o
    rwa [status, Ledger.offsets, hoffsets] at ho
  rw [h p offsets hoffsets] at hempty
  exact Bool.false_ne_true hempty

theorem get?_ne_none_of_status {l : Ledger} {p : Partition} {o : Int} (h : l.status ⟨p, o⟩ ≠ none) :
    l.partitions.get? p ≠ none := by
  intro hp
  rw [status, Ledger.offsets, hp] at h
  exact h rfl

/-- Ledgers without empty partitions are told apart by a status. -/
theorem Dense.ext {l l' : Ledger} (h : l.Dense) (h' : l'.Dense) (hs : ∀ place, l.status place = l'.status place) :
    l = l' := by
  have hpartitions : l.partitions = l'.partitions := by
    refine SortedMap.ext_get? fun p => ?_
    cases hp : l.partitions.get? p with
    | none =>
      by_contra hp'
      obtain ⟨o, ho⟩ := h'.exists_status (Ne.symm hp')
      rw [← hs] at ho
      exact get?_ne_none_of_status ho hp
    | some offsets =>
      obtain ⟨o, ho⟩ := h.exists_status (p := p) (by simp [hp])
      rw [hs] at ho
      obtain ⟨offsets', hp'⟩ := Option.ne_none_iff_exists'.1 (get?_ne_none_of_status ho)
      rw [hp']
      refine congrArg some (SortedMap.ext_get? fun o => ?_)
      have heq := hs ⟨p, o⟩
      rwa [status, status, Ledger.offsets, Ledger.offsets, hp, hp'] at heq
  cases l
  cases l'
  exact congrArg Ledger.mk hpartitions

end Ledger

/-! ## Counting fates -/

/-- The fates are counted, and the records whose places are left have none. -/
structure Counted {σ : Type} (d : Dispatcher) (s : Session σ) (left : List Nat) (c : Course σ) : Prop where
  history : ∃ old, s.Adds old c.session
  distinct : (left ++ (d.fates s c.session).map (·.1)).Nodup
  rejected : c.summary.filtered = ((d.fates s c.session).map (·.2)).count .rejected
  abandoned : c.summary.abandoned = ((d.fates s c.session).map (·.2)).count .abandoned
  unacknowledged : c.summary.committed = .empty ∧ c.summary.rewound = .empty
  dense : c.ledger.Dense

namespace Counted

variable {σ : Type} {d : Dispatcher} {s : Session σ} {left left' : List Nat} {slot : Nat} {c c' : Course σ}
  {e : Event}

theorem perm (h : Counted d s left c) (hp : left.Perm left') : Counted d s left' c :=
  { h with distinct := (hp.append_right _).nodup_iff.1 h.distinct }

/-- What seals no fate leaves the counts. -/
theorem tells {news : List Event} (h : Counted d s left c) (ht : c.Tells news c')
    (hnews : ∀ e ∈ news, d.fate? e = none) : Counted d s left c' := by
  obtain ⟨old, hold⟩ := h.history
  have hfates : d.fates s c'.session = d.fates s c.session := by
    rw [Dispatcher.fates_adds hold ht.session.adds, List.filterMap_eq_nil_iff.2 hnews, List.nil_append]
  refine ⟨⟨_, hold.trans ht.session.adds⟩, ?_, ?_, ?_, ?_, ?_⟩
  · rw [hfates]
    exact h.distinct
  · rw [hfates, ht.summary]
    exact h.rejected
  · rw [hfates, ht.summary]
    exact h.abandoned
  · rw [ht.summary]
    exact h.unacknowledged
  · rw [ht.ledger]
    exact h.dense

theorem quiet (h : Counted d s left c) (ht : c.Tells [] c') : Counted d s left c' := h.tells ht (by simp)

theorem tell (h : Counted d s left c) (ht : c.Tells [e] c') (he : d.fate? e = none) : Counted d s left c' :=
  h.tells ht (by simpa using he)

/-- A record that ends well has no fate. -/
theorem publish (h : Counted d s (slot :: left) c) (place : Coordinates) : Counted d s left (c.publish place) :=
  ⟨h.history, h.distinct.of_cons, h.rejected, h.abandoned, h.unacknowledged, h.dense.report place .settled⟩

/-- A record whose fate is sealed is counted and no longer left. -/
theorem seals {c₁ : Course σ} {fate : Fate} (place : Coordinates) (status : Status)
    (h : Counted d s (slot :: left) c) (ht : c.Tells [e] c₁) (he : d.fate? e = some (slot, fate))
    (hsession : c'.session = c₁.session) (hledger : c'.ledger = c₁.ledger.report place status)
    (hrejected : c'.summary.filtered = c₁.summary.filtered + [fate].count .rejected)
    (habandoned : c'.summary.abandoned = c₁.summary.abandoned + [fate].count .abandoned)
    (hcalls : c'.summary.committed = c₁.summary.committed ∧ c'.summary.rewound = c₁.summary.rewound) :
    Counted d s left c' := by
  obtain ⟨old, hold⟩ := h.history
  have hfates : d.fates s c'.session = (slot, fate) :: d.fates s c.session := by
    rw [hsession, Dispatcher.fates_adds hold ht.session.adds, List.filterMap_cons_some he]
    rfl
  have hcount : ∀ x, ((d.fates s c'.session).map (·.2)).count x =
      ((d.fates s c.session).map (·.2)).count x + [fate].count x := by
    intro x
    rw [hfates, List.map_cons, List.count_cons, List.count_singleton]
  refine ⟨⟨_, hsession ▸ hold.trans ht.session.adds⟩, ?_, ?_, ?_, ?_, ?_⟩
  · rw [hfates]
    exact List.perm_middle.nodup_iff.2 h.distinct
  · rw [hcount, hrejected, ht.summary, h.rejected]
  · rw [hcount, habandoned, ht.summary, h.abandoned]
  · rw [hcalls.1, hcalls.2, ht.summary]
    exact h.unacknowledged
  · rw [hledger, ht.ledger]
    exact h.dense.report place status

/-- A chain rejects its record. -/
theorem reject {job : Job} {outcome : Outcome} (h : Counted d s (job.slot :: left) c)
    (ht : c.Tells [.processed job (.ok outcome)] c') (hpassed : outcome.passed = false) (place : Coordinates) :
    Counted d s left (c'.filterOut place) := by
  have hfate : d.fate? (.processed job (.ok outcome)) = some (job.slot, .rejected) := by
    simp [Dispatcher.fate?, hpassed]
  exact h.seals place .settled ht hfate rfl rfl rfl rfl ⟨rfl, rfl⟩

/-- A verdict gives a record up. -/
theorem abandon {stage : Stage} {a : Attempt} {now : Nat} {reason : AbandonReason}
    (h : Counted d s (slot :: left) c) (ht : c.Tells [.judged stage slot a now (.abandon reason)] c')
    (place : Coordinates) : Counted d s left (c'.abandon place) :=
  h.seals place .abandoned ht rfl rfl rfl rfl rfl ⟨rfl, rfl⟩

theorem settleAll (h : Counted d s left c) (places : List Coordinates) : Counted d s left (c.settleAll places) := by
  rw [Course.settleAll_eq]
  exact { h with dense := h.dense.settleAll places }

end Counted

/-! ## The two stages -/

section Stages

variable {σ : Type} {w : World σ} {d : Dispatcher} {registry : Registry} {subscribers : List Subscriber}
  {batch : Batch} {s s' : Session σ} {c c' : Course σ}

/-- While records are filtered and mapped, those with an attempt and those with a payload are left. -/
structure FilterCounted (d : Dispatcher) (s : Session σ) (ts : List (Task Routed Job)) (c : Course σ) : Prop where
  counted : Counted d s (ts.map (·.slot) ++ c.mapped.map (·.slot)) c
  /-- Jobs have the places of their records. -/
  jobs : ∀ t ∈ ts, ∀ job, t.phase = .flying job → job.slot = t.slot

theorem FilterCounted.moves {t : Task Routed Job} {ts : List (Task Routed Job)} {e : Event}
    (h : FilterCounted d s (t :: ts) c) (ht : c.Tells [e] c') (he : d.fate? e = none) {attempt : Attempt}
    {phase : Phase Job} (hjob : ∀ job, phase = .flying job → job.slot = t.slot) :
    FilterCounted d s ({ t with attempt, phase } :: ts) c' := by
  obtain ⟨hcounted, hjobs⟩ := h
  obtain ⟨-, hjobs⟩ := List.forall_mem_cons.1 hjobs
  refine ⟨?_, List.forall_mem_cons.2 ⟨hjob, hjobs⟩⟩
  rw [ht.mapped]
  exact hcounted.tell ht he

theorem FilterCounted.landed {t : Task Routed Job} {ts : List (Task Routed Job)} {job : Job}
    (h : FilterCounted d s (t :: ts) c) (hp : t.phase = .flying job)
    (hl : Dispatcher.harvest w t.item job c = (.done, c')) : FilterCounted d s ts c' := by
  obtain ⟨hcounted, hjobs⟩ := h
  obtain ⟨hjob, hjobs⟩ := List.forall_mem_cons.1 hjobs
  have hslot := hjob job hp
  obtain ⟨outcome, c₁, htell, rfl⟩ := Dispatcher.harvest_done hl
  rw [List.map_cons, List.cons_append, ← hslot] at hcounted
  split
  · next hpassed =>
    refine ⟨?_, hjobs⟩
    have htold := hcounted.tell htell (by simp [Dispatcher.fate?, hpassed])
    rw [← htell.mapped] at htold
    have hcollected := htold.perm List.perm_middle.symm
    exact ⟨hcollected.history, hcollected.distinct, hcollected.rejected, hcollected.abandoned,
      hcollected.unacknowledged, hcollected.dense⟩
  · next hpassed =>
    refine ⟨?_, hjobs⟩
    have hrejected := hcounted.reject htell (by simpa using hpassed) t.item.coordinates
    rw [← htell.mapped] at hrejected
    exact hrejected

theorem FilterCounted.keeps (w : World σ) (d : Dispatcher) (s : Session σ) (b : Budget) :
    (Dispatcher.filterMap w d).Keeps b (FilterCounted d s) (fun _ _ => True) where
  perm hp h := ⟨h.counted.perm ((hp.map _).append_right _), fun t ht => h.jobs t (hp.mem_iff.2 ht)⟩
  quiet ht h := ⟨ht.mapped ▸ h.counted.quiet ht, h.jobs⟩
  launched _ h hl := by
    obtain ⟨rfl, htell⟩ := Dispatcher.submit_flying hl
    exact h.moves htell rfl (by rintro _ ⟨⟩; rfl)
  unlaunched _ _ hl := absurd hl Dispatcher.submit_ne_failed
  barred _ _ _ := trivial
  landed hp h hl := h.landed hp hl
  crashed _ h hl := by
    obtain ⟨e, -, htell⟩ := Dispatcher.harvest_failed hl
    exact h.moves htell rfl (by simp)
  broken _ _ _ := trivial
  retried _ _ h _ htell := h.moves htell rfl (by simp)
  abandoned {t _ _ _ _ _} _ h _ htell := by
    obtain ⟨hcounted, hjobs⟩ := h
    refine ⟨?_, (List.forall_mem_cons.1 hjobs).2⟩
    have habandoned := hcounted.abandon htell t.item.coordinates
    rw [← htell.mapped] at habandoned
    exact habandoned

/-- While payloads are published, those with an attempt are left. -/
def PublishCounted (d : Dispatcher) (s : Session σ) (ts : List (Task Mapped Shipment)) (c : Course σ) : Prop :=
  Counted d s (ts.map (·.slot)) c

theorem PublishCounted.keeps (w : World σ) (d : Dispatcher) (registry : Registry) (s : Session σ) (b : Budget) :
    (Dispatcher.publish w d registry).Keeps b (PublishCounted d s) (fun _ _ => True) where
  perm hp h := Counted.perm h (hp.map _)
  quiet ht h := Counted.quiet h ht
  launched _ h hl := by
    obtain ⟨-, htell⟩ := Dispatcher.send_flying hl
    exact Counted.tell h htell rfl
  unlaunched _ h hl := by
    obtain ⟨e, news, hconfig, -, hunsent, htell⟩ := Dispatcher.send_failed hl
    have hharmless := Dispatcher.harmless_of_unsent hunsent hconfig
    exact Counted.tell h htell (Dispatcher.fate?_of_unsent hunsent hharmless.1)
  barred _ _ _ := trivial
  landed _ h hl := by
    obtain ⟨c₁, htell, rfl⟩ := Dispatcher.confirm_done hl
    exact (Counted.tell h htell rfl).publish _
  crashed _ h hl := by
    obtain ⟨e, hconfig, -, htell⟩ := Dispatcher.confirm_failed hl
    refine Counted.tell h htell ?_
    cases e <;> first | rfl | simp [PublishError.isConfig] at hconfig
  broken _ _ _ := trivial
  retried _ _ h _ htell := Counted.tell h htell rfl
  abandoned _ h _ htell := Counted.abandon h htell _

theorem FilterCounted.begins (h : Dispatcher.Begins subscribers batch s c) :
    FilterCounted d s
      ((Matching.ofRecords subscribers batch.records).matched.zipIdx.map
        (fun x => ⟨x.2, x.1, .first 0, .resting 0⟩) ++ []) c := by
  have hfates : d.fates s c.session = [] := Dispatcher.fates_eq_nil h.session.adds
  refine ⟨⟨⟨[], h.session.adds⟩, ?_, ?_, ?_, ?_, ?_⟩, fun t ht job hp => ?_⟩
  · rw [hfates, h.mapped, List.append_nil, List.map_map, List.map_nil, List.map_nil, List.append_nil,
      List.append_nil]
    have hslots := List.zipIdx_map_snd 0 (Matching.ofRecords subscribers batch.records).matched
    exact hslots ▸ List.nodup_range'
  · rw [hfates, h.summary]
    rfl
  · rw [hfates, h.summary]
    rfl
  · rw [h.summary]
    exact ⟨rfl, rfl⟩
  · rw [h.ledger]
    exact Ledger.dense_empty.settleAll _
  · simp only [List.append_nil, List.mem_map] at ht
    obtain ⟨x, -, rfl⟩ := ht
    simp at hp

theorem FilterCounted.published (h : FilterCounted d s [] c) :
    PublishCounted d s
      (((Dispatcher.sorted c.mapped.reverse).map fun m => (m, m.slot)).map
        (fun x => ⟨x.2, x.1, .first 0, .resting 0⟩) ++ []) c := by
  have hperm := Dispatcher.sorted_perm c.mapped
  refine Counted.perm h.counted ?_
  rw [List.append_nil, List.map_map, List.map_map]
  exact (hperm.map _).symm

/-- When a batch is acknowledged, its fates are counted and the consumer group was left alone. -/
theorem counted_dispatch {summary : Summary} {ledger : Ledger}
    (h : d.dispatch w registry batch s = (.done summary ledger, s')) :
    ∃ c left, Dispatcher.conclude w d c = (.done summary ledger, s') ∧ s.Quiet c.session ∧ Counted d s left c := by
  have h₁ := (Dispatcher.quiet_filterMap w d s d.budget).and (FilterCounted.keeps w d s d.budget)
  have h₂ := (Dispatcher.quiet_publish w d registry s d.budget).and (PublishCounted.keeps w d registry s d.budget)
  have hstarts₁ := h₁.starts (fun _ _ c => (true, c))
    (fun _ h => ⟨h.1, h.2.counted, List.forall_mem_cons.2 (List.forall_mem_cons.1 h.2.jobs)⟩)
    (fun h hk => (Prod.mk.inj hk).2 ▸ h) (by simp)
  have hstarts₂ := h₂.starts d.awaitDelivery (fun _ h => h)
    (fun h hk => Dispatcher.awaitDelivery_kept hk ▸ h)
    (fun {t _ _ _ _} _ h hk => by
      refine ⟨Dispatcher.quiet_awaitDelivery h.1 hk, ?_⟩
      obtain ⟨c₁, htell, rfl⟩ := Dispatcher.awaitDelivery_dropped hk
      exact (Counted.quiet h.2 htell).publish t.item.routed.coordinates)
  obtain ⟨-, -, hdone⟩ := Dispatcher.dispatch_spec batch s hstarts₁ h₁ (fun _ _ h => h) hstarts₂ h₂
    (fun _ _ h => h) (fun c hc => ⟨(Session.Quiet.refl _).aside hc.session, FilterCounted.begins hc⟩)
    (fun c h => ⟨h.1, h.2.published⟩)
  obtain ⟨c, hconclude, hc⟩ := hdone _ _ _ h
  split at hc
  · exact ⟨c, _, hconclude, hc.1, hc.2⟩
  · obtain ⟨c₁, ⟨hquiet, hcounted⟩, rfl⟩ := hc
    refine ⟨_, _, hconclude, ?_, hcounted.counted.settleAll _⟩
    rw [Course.settleAll_eq]
    exact hquiet

/-- No record of a batch that is acknowledged has two fates, and the summary counts them. -/
theorem dispatch_fates {summary : Summary} {ledger : Ledger}
    (h : d.dispatch w registry batch s = (.done summary ledger, s')) :
    ((d.fates s s').map (·.1)).Nodup ∧
      summary.filtered = ((d.fates s s').map (·.2)).count .rejected ∧
      summary.abandoned = ((d.fates s s').map (·.2)).count .abandoned ∧ ledger.Dense := by
  obtain ⟨c, left, hconclude, hquiet, hcounted⟩ := counted_dispatch h
  obtain ⟨accepted, sought, hack⟩ := Dispatcher.acknowledge_spec w d.level c
  simp only [Dispatcher.conclude, Prod.mk.injEq, Dispatched.done.injEq] at hconclude
  obtain ⟨⟨rfl, rfl⟩, rfl⟩ := hconclude
  obtain ⟨old, hold⟩ := hcounted.history
  have hfates : d.fates s ((Dispatcher.acknowledge w d.level c).session.observe "batch_dispatch_duration_ms" []) =
      d.fates s c.session := by
    rw [Dispatcher.fates_adds hold (hack.adds.trans (Session.tells_observe ..).adds), List.nil_append,
      List.filterMap_eq_nil_iff.2, List.nil_append]
    intro e he
    rcases Dispatcher.eq_of_mem_calls he with rfl | rfl <;> rfl
  rw [hfates, hack.summary, hack.ledger]
  exact ⟨(List.nodup_append.1 hcounted.distinct).2.1, hcounted.rejected, hcounted.abandoned, hcounted.dense⟩

end Stages

end Relay
