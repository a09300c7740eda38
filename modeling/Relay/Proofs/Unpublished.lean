import Relay.Proofs.Attempts
import Relay.Proofs.Lockstep
import Relay.Proofs.Reckoning
import Relay.Proofs.SettledRun

/-!
# Pipelines that republish nothing

Without a checkpoint nothing that lies behind filtering and mapping can be seen in the outcome of a batch. Two
dispatchers that differ in the service level of republishing, the publisher, the clusters of the tenants and the
producers run in lockstep, and none of them asks a producer for anything. The batch is committed at its ends,
whatever was given up.
-/

namespace Relay

section Lockstep

variable {σ τ : Type} {w : World σ} {w' : World τ} {R : σ → τ → Prop} {s : Session σ} {s' : Session τ}

/-- Two dispatchers that republish nothing do the same, whatever they would publish and however. -/
theorem Dispatcher.alike_dispatch (hw : w.Alike w' R) {d d' : Dispatcher} (hd : d.checkpoint = false)
    (hd' : d'.checkpoint = false) (hretry : d.retry = d'.retry) (hexecutor : d.executor = d'.executor)
    {registry registry' : Registry}
    (hsubscribers : registry.subscribers d.pipeline = registry'.subscribers d'.pipeline) (batch : Batch)
    (hworld : R s.world s'.world) (hnow : s.now = s'.now) (htracker : s.tracker = s'.tracker) :
    Agree (Session.Alike R s s') (d.dispatch w registry batch s) (d'.dispatch w' registry' batch s') := by
  have hlevel : d.level = d'.level := by simp [level, hd, hd']
  have hbudget : d.budget = d'.budget := by simp only [budget, hlevel, hretry]
  have hstart : Course.Alike R s s' (.start { s with world := w.refresh (registry.subscribers d.pipeline) s.world })
      (.start { s' with world := w'.refresh (registry.subscribers d.pipeline) s'.world }) :=
    ⟨(Session.Alike.refl hworld hnow htracker).world_eq (hw.refresh _ hworld), rfl, rfl, rfl⟩
  obtain ⟨matched, c, c', hm, hm', hc⟩ :=
    (alike_matchBatch (registry.subscribers d.pipeline) batch hstart).exists_eq
  obtain ⟨ending, c₁, c₁', hf, hf', h₁⟩ := (alike_runFilterMap hw hexecutor hbudget matched hc).exists_eq
  rcases ending with _ | e | _ <;>
    simp only [dispatch, ← hsubscribers, hm, hm', hf, hf', hd, hd', Bool.false_eq_true, if_false]
  · have hsettled := h₁.settleAll ((sorted c₁.mapped.reverse).map (·.routed.coordinates))
    rw [← h₁.mapped]
    exact alike_conclude hw.toGroupAlike hlevel hsettled
  · exact .of _ (h₁.session.world_eq (hw.cancelAll h₁.session.world))
  · exact .of _ h₁.session

end Lockstep

/-! ## The outcome -/

namespace History

variable {b : Budget} {began : Nat} {signs : List Sign} {stand : Stand}

/-- Without retries no verdict asks for one. -/
theorem not_retried (h : History b began signs stand) (hb : b.retries = 0) (a next : Attempt) (now : Nat)
    (backoff : Duration) : .judged a now (.retry next backoff) ∉ signs := by
  intro hm
  obtain ⟨newer, older, rfl⟩ := List.append_of_mem hm
  obtain ⟨stand', h⟩ := h.earlier
  cases h with
  | retried _ decided =>
    obtain ⟨-, -, -, hlt, -⟩ := Budget.retry decided
    omega

end History

section Outcome

variable {σ : Type} {w : World σ} {d : Dispatcher} {registry : Registry} {batch : Batch} {s s' : Session σ}

/-- A pipeline that republishes nothing attempts each record at most once. -/
theorem attempted_once (hd : d.checkpoint = false) (w : World σ) (registry : Registry) (batch : Batch)
    (s : Session σ) (stage : Stage) (slot : Nat) :
    (tries (s.signs (d.dispatch w registry batch s).2 stage slot)).length ≤ 1 ∧
      ∀ a now next backoff,
        .judged stage slot a now (.retry next backoff) ∉ s.written (d.dispatch w registry batch s).2 := by
  have hzero : d.budget.retries = 0 := Dispatcher.retries_budget_eq_zero (.inl hd)
  obtain ⟨s₁, s₂, hstaged, -⟩ := staged_dispatch w d registry batch s
  obtain ⟨began, stand, hhistory⟩ := hstaged.history stage slot
  obtain ⟨n, htries, hle, -⟩ := hhistory.tries_eq
  refine ⟨?_, fun a now next backoff hm => ?_⟩
  · rw [htries, List.length_reverse, List.length_range]
    omega
  · exact hhistory.not_retried hzero a next now backoff (Session.mem_signs_iff.2 ⟨_, hm, rfl⟩)

/-- A pipeline that publishes nothing is never stopped by the configuration of publishing. -/
theorem ne_config_of_isShipping {err : DispatchError}
    (hquiet : ∀ e ∈ s.written (d.dispatch w registry batch s).2, e.isShipping = false)
    (hfailed : (d.dispatch w registry batch s).1 = .failed err) :
    ∃ cause, err = .executor cause := by
  rcases Dispatcher.halted_or_heeded w d registry batch s with ⟨err', herr, e, news, hold, he, -⟩ | ⟨hne, -⟩
  · obtain rfl : err = err' := Dispatched.failed.inj (hfailed.symm.trans herr)
    have hwritten := (Session.mem_written_iff hold.adds (Dispatcher.isNews_of_stops? he)).2 List.mem_cons_self
    have hnot := hquiet e hwritten
    -- of what stops a dispatch only the refusal of a job is not about producers
    unfold Dispatcher.stops? at he
    split at he
    · exact ⟨_, (Option.some.inj he).symm⟩
    · simp [Event.isShipping] at hnot
    · simp [Event.isShipping] at hnot
    · simp [Event.isShipping] at hnot
    · simp at he
  · exact absurd hfailed (hne err)

/-- The ends of a ledger are the ends of the batch whose places it lists. -/
theorem Ledger.get?_ends_iff {l : Ledger} {places : List Coordinates}
    (h : ∀ place, l.status place ≠ none ↔ place ∈ places) (p : Partition) (stop : Int) :
    l.ends.get? p = some stop ↔ IsGreatest {o | ⟨p, o⟩ ∈ places} (stop - 1) := by
  have hset : {o | (⟨p, o⟩ : Coordinates) ∈ places} = {o | l.status ⟨p, o⟩ ≠ none} :=
    Set.ext fun o => (h ⟨p, o⟩).symm
  rw [hset]
  constructor
  · intro hends
    rw [Ledger.get?_ends] at hends
    obtain ⟨last, hlast, rfl⟩ := Option.map_eq_some_iff.1 hends
    rw [Int.add_sub_cancel]
    exact SortedMap.isGreatest_of_getLast? hlast
  · intro hgreatest
    obtain ⟨first, last, next, hspans⟩ := Ledger.exists_spans hgreatest.1
    have hlast := hspans.highest.unique hgreatest
    rw [hspans.get?_ends, hlast, Int.sub_add_cancel]

/-- What a pipeline that republishes nothing asks of the consumer group: to commit the ends of the batch, as far as
they advance, and after a refusal to go back to its beginning. -/
theorem group_of_unpublished {summary : Summary} {ledger : Ledger} (hd : d.checkpoint = false)
    (h : d.dispatch w registry batch s = (.done summary ledger, s')) :
    (∀ place, ledger.status place ≠ none ↔ place ∈ batch.places) ∧
      ∃ accepted sought, (s.written s').filter Event.isGroup =
        Dispatcher.call .sought (if accepted then .empty else ledger.redelivery .empty) sought ++
          Dispatcher.call .committed (s.tracker.advancing ledger.ends) accepted := by
  have hlevel : d.level = .force := by simp [Dispatcher.level, hd]
  obtain ⟨accepted, sought, hgroup⟩ := group_of_dispatch h
  have hresumed : Dispatcher.resumed d.level ledger accepted =
      if accepted then .empty else ledger.redelivery .empty := by
    cases accepted <;> simp [Dispatcher.resumed, hlevel, ServiceLevel.acknowledge, Acknowledgement.isRun]
  have hasked : Dispatcher.asked d.level s.tracker ledger = s.tracker.advancing ledger.ends := by
    rw [Dispatcher.asked, hlevel]
    rfl
  rw [hresumed, hasked] at hgroup
  exact ⟨(balanced_dispatch h).listed, accepted, sought, hgroup⟩

end Outcome

/-- Without a checkpoint the outcome of a batch is independent of everything behind filtering and mapping. Two such
dispatchers may have any service level and any publisher, their registries any clusters of tenants, and their
surroundings any producers: as long as the rest answers alike they end alike, write down the same, and so make the same
calls to the consumer group. Neither asks a producer for anything or keeps one; no record is tried again; a mistake in
the configuration never stops them. What they ask to commit of a partition is the offset after the last one of the
batch, exactly if this advances what was committed, whatever was given up. -/
theorem dispatch_without_checkpoint {σ τ : Type} {w : World σ} {w' : World τ} {R : σ → τ → Prop}
    (hw : w.Alike w' R) (d : Dispatcher) (hd : d.checkpoint = false) (configured : ServiceLevel)
    (publisher : Publisher) (registry registry' : Registry)
    (hsubscribers : registry'.subscribers publisher.pipeline = registry.subscribers d.pipeline) (batch : Batch)
    (s : Session σ) (s' : Session τ) (hworld : R s.world s'.world) (hnow : s.now = s'.now)
    (htracker : s.tracker = s'.tracker) :
    let d' : Dispatcher := { d with configured, publisher }
    let ended := d.dispatch w registry batch s
    let ended' := d'.dispatch w' registry' batch s'
    ended.1 = ended'.1 ∧ s.written ended.2 = s'.written ended'.2 ∧ ended.2.tracker = ended'.2.tracker ∧
      R ended.2.world ended'.2.world ∧
      (∀ e ∈ s.written ended.2, e.isShipping = false) ∧ ended.2.pools = s.pools ∧ ended'.2.pools = s'.pools ∧
      (∀ stage slot, (tries (s.signs ended.2 stage slot)).length ≤ 1 ∧
        ∀ a now next backoff, .judged stage slot a now (.retry next backoff) ∉ s.written ended.2) ∧
      (∀ err, ended.1 = .failed err → ∃ cause, err = .executor cause) ∧
      ∀ summary ledger, ended.1 = .done summary ledger → ∃ offsets accepted sought,
        (s.written ended.2).filter Event.isGroup =
          Dispatcher.call .sought (if accepted then .empty else ledger.redelivery .empty) sought ++
            Dispatcher.call .committed offsets accepted ∧
        ∀ p stop, offsets.get? p = some stop ↔
          IsGreatest {o | ⟨p, o⟩ ∈ batch.errors.filterMap (·.coordinates?) ++ batch.records.map (·.coordinates)}
              (stop - 1) ∧
            ∀ committed, s.tracker.get? p = some committed → committed < stop := by
  intro d' ended ended'
  have hd' : d'.checkpoint = false := hd
  obtain ⟨hresult, halike⟩ :=
    Dispatcher.alike_dispatch hw hd hd' rfl rfl hsubscribers.symm batch hworld hnow htracker
  obtain ⟨hwritten, hquiet⟩ := halike.written
  refine ⟨hresult, hwritten, halike.tracker, halike.world, hquiet, halike.pools.1, halike.pools.2,
    fun stage slot => attempted_once hd w registry batch s stage slot,
    fun err hfailed => ne_config_of_isShipping hquiet hfailed, fun summary ledger hdone => ?_⟩
  obtain ⟨hplaces, accepted, sought, hgroup⟩ := group_of_unpublished hd (Prod.ext hdone rfl)
  refine ⟨s.tracker.advancing ledger.ends, accepted, sought, hgroup, fun p stop => ?_⟩
  rw [Tracker.get?_advancing_eq_some, Ledger.get?_ends_iff hplaces]
  rfl

namespace Orders

/-- Surroundings without a working producer, which count what they are asked to do with one. -/
def brokenProducers : World Nat where
  clock n := (0, n)
  refresh _ n := n
  submit _ n := (true, n)
  finish job n := (script.process job.slot job.times, n)
  cancelAll n := n
  shutdown n := n
  next _ n := (some 0, n)
  create _ _ n := (.error (.creation ""), n + 1)
  spread n := (0, n + 1)
  send _ n := (.error .canceled, n + 1)
  deliver _ n := (.error .canceled, n + 1)
  flush _ n := (.panicked, n + 1)
  commit _ n := (.ok (), n)
  seek _ n := (.ok (), n)

theorem alike_brokenProducers : oldest.Alike brokenProducers fun _ n => n = 0 where
  clock h := .of _ h
  refresh _ h := h
  submit _ h := .of _ h
  finish _ h := .of _ h
  cancelAll h := h
  next _ h := .of _ h
  commit _ h := .of _ h
  seek _ h := .of _ h

/-- A pipeline that republishes nothing. -/
def unpublished : Dispatcher := { dispatcher with checkpoint := false }

/-- The same subscribers, none of whose tenants has a cluster. -/
def homeless : Registry := ⟨.ofList [("", ⟨registry.subscribers "", .empty⟩)]⟩

/-- The job of the first record is canceled, so the record is given up; the batch is committed to its end all the same,
also by a dispatcher whose tenants have no cluster and whose producers do not work, and which never asks for one. -/
theorem unpublished_alike :
    let d' : Dispatcher := { unpublished with configured := .atMostOnce, publisher := ⟨"", "", 0, default⟩ }
    let ended := unpublished.dispatch oldest registry batch (.start ())
    let ended' := d'.dispatch brokenProducers homeless batch (.start 0)
    ended.1 = .done ⟨2, 0, 0, 0, 0, 1, .ofList [(⟨"", 0⟩, 2)], .empty⟩
        ⟨.ofList [(⟨"", 0⟩, .ofList [(0, .abandoned), (1, .settled)])]⟩ ∧
      ended'.1 = ended.1 ∧ ended'.2.world = 0 ∧ ∀ e ∈ (Session.start ()).written ended.2, e.isShipping = false := by
  intro d' ended ended'
  have hdone : ended.1 = .done ⟨2, 0, 0, 0, 0, 1, .ofList [(⟨"", 0⟩, 2)], .empty⟩
      ⟨.ofList [(⟨"", 0⟩, .ofList [(0, .abandoned), (1, .settled)])]⟩ := by cbv
  obtain ⟨hsame, -, -, hunasked, hquiet, -⟩ := dispatch_without_checkpoint alike_brokenProducers unpublished rfl
    .atMostOnce ⟨"", "", 0, default⟩ registry homeless rfl batch (.start ()) (.start 0) rfl rfl rfl
  exact ⟨hdone, hsame.symm, hunasked, hquiet⟩

end Orders

end Relay
