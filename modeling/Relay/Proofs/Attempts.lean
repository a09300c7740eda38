import Relay.Proofs.Failing
import Relay.Proofs.Releasing

/-!
# How often a record is attempted

In surroundings where work completes a dispatch ends, and it attempts no record more often than its budget
allows. Each stage has a budget of its own for each record, which begins with the first attempt of the stage.
A result, a failure that no retry can mend and a failure after the window of the budget are the last that
happens to a record in a stage.
-/

namespace Relay

namespace Dispatcher

theorem retries_budget_le (d : Dispatcher) : d.budget.retries ≤ d.retry.times.toNat := by
  unfold Budget.retries
  split
  · exact Nat.le_refl _
  · exact Nat.zero_le _

/-- Without a checkpoint, or at the lowest service level, nothing is retried. -/
theorem retries_budget_eq_zero {d : Dispatcher} (h : d.checkpoint = false ∨ d.configured = .force) :
    d.budget.retries = 0 := by
  have hlevel : d.level = .force := by
    rw [level]
    rcases h with h | h
    · simp [h]
    · simp [h]
  simp [Budget.retries, budget, hlevel, ServiceLevel.retries]

/-- Filtering and mapping is stopped by a pool that refuses a job, and by nothing else. -/
theorem eq_submitted_of_stops? {d : Dispatcher} {e : Event} {err : DispatchError}
    (hs : d.stops? e = some err) (hstage : ∀ x ∈ e.sign, x.1 = .filterMap) :
    ∃ job, e = .submitted job false := by
  unfold stops? at hs
  split at hs
  · exact ⟨_, rfl⟩
  · simp [Event.sign] at hstage
  · simp [Event.sign] at hstage
  · simp [Event.sign] at hstage
  · simp at hs

end Dispatcher

namespace Staged

variable {σ : Type} {d : Dispatcher} {matched : List Routed} {s s₁ s₂ s' : Session σ}

/-- Verdicts of filtering and mapping are given before it ends. -/
theorem judged_filterMap (h : Staged d matched s s₁ s₂ s') {slot : Nat} {a : Attempt} {now : Nat}
    {decision : Decision} (he : .judged .filterMap slot a now decision ∈ s.written s') :
    s.now ≤ a.began ∧ now ≤ s₁.now := by
  rcases h.said he rfl with ⟨-, he⟩ | ⟨hstage, -⟩
  · obtain ⟨began, stand, hbegan, hh⟩ := h.filtering.history slot
    obtain ⟨-, hnow, -⟩ := h.filtering.said _ he rfl
    rw [hh.began_of_judged (Session.mem_signs_iff.2 ⟨_, he, rfl⟩)]
    exact ⟨hbegan, hnow now rfl⟩
  · simp at hstage

/-- Attempts to publish begin after filtering and mapping has ended. -/
theorem judged_publish (h : Staged d matched s s₁ s₂ s') {slot : Nat} {a : Attempt} {now : Nat}
    {decision : Decision} (he : .judged .publish slot a now decision ∈ s.written s') :
    s₁.now ≤ a.began := by
  rcases h.said he rfl with ⟨hstage, -⟩ | ⟨-, he⟩
  · simp at hstage
  · obtain ⟨began, stand, hbegan, hh⟩ := h.publishing.history slot
    rw [hh.began_of_judged (Session.mem_signs_iff.2 ⟨_, he, rfl⟩)]
    exact hbegan

end Staged

/-- If every job is accepted and the dispatch does not get stuck, every matched record is attempted. -/
theorem attempted_of_accepted {σ : Type} (w : World σ) (d : Dispatcher) (registry : Registry) (batch : Batch)
    (s : Session σ) (hstuck : (d.dispatch w registry batch s).1 ≠ .stuck)
    (hjobs : ∀ job, .submitted job false ∉ s.written (d.dispatch w registry batch s).2) {slot : Nat}
    (hlt : slot < (Matching.ofRecords (registry.subscribers d.pipeline) batch.records).matched.length) :
    s.signs (d.dispatch w registry batch s).2 .filterMap slot ≠ [] := by
  obtain ⟨s₁, s₂, hstaged, hattempted | ⟨hend, hdone⟩⟩ := staged_dispatch w d registry batch s
  · rw [hstaged.signs_filterMap]
    exact hattempted slot hlt
  · exfalso
    rcases Dispatcher.halted_or_heeded w d registry batch s with ⟨err, hfailed, e, news, hold, he, -⟩ | ⟨hne, -⟩
    · -- what stopped the dispatch was written down in its only stage
      have hnews := Dispatcher.isNews_of_stops? he
      have hwritten := (Session.mem_written_iff hold.adds hnews).2 List.mem_cons_self
      obtain ⟨_, h₁⟩ := hstaged.filtering.tells
      rw [Session.mem_written_iff (h₁.quiet hend).adds hnews,
        ← Session.mem_written_iff h₁.adds hnews] at hwritten
      obtain ⟨hstage, -⟩ := hstaged.filtering.said e hwritten hnews
      obtain ⟨job, rfl⟩ := Dispatcher.eq_submitted_of_stops? he hstage
      exact hjobs job ((Session.mem_written_iff hold.adds hnews).2 List.mem_cons_self)
    · rcases hd : (d.dispatch w registry batch s).1 with ⟨summary, ledger⟩ | err | _
      · exact hdone _ _ hd
      · exact hne _ hd
      · exact hstuck hd

/-- In surroundings where work completes a dispatch ends. In each stage the attempts at a record are counted from
nought, none is made twice, and there is at most one more than there may be retries; without retries there is
exactly one attempt to filter and map each matched record, unless a pool refuses a job, and at most one to
publish it. No attempt follows a result, a failure that no retry can mend, or a failure that is judged when the
window has passed. The budget of a record in a stage begins once, that of publishing after the last verdict of
filtering and mapping. -/
theorem dispatch_attempts {σ : Type} {w : World σ} (hw : w.Live) (d : Dispatcher) (registry : Registry)
    (batch : Batch) (s : Session σ) :
    let s' := (d.dispatch w registry batch s).2
    let single := d.checkpoint = false ∨ d.configured = .force
    (d.dispatch w registry batch s).1 ≠ .stuck ∧
      (∀ stage slot, ∃ n, tries (s.signs s' stage slot) = (List.range n).reverse ∧
        n ≤ 1 + d.retry.times.toNat ∧ (single → n ≤ 1)) ∧
      (single → (∀ job, .submitted job false ∉ s.written s') →
        ∀ slot < (Matching.ofRecords (registry.subscribers d.pipeline) batch.records).matched.length,
          tries (s.signs s' .filterMap slot) = [0]) ∧
      (∀ stage slot newer sign older, s.signs s' stage slot = newer ++ sign :: older →
        sign.IsLast d.budget → tries newer = []) ∧
      (∀ stage slot a now decision a' now' decision', .judged stage slot a now decision ∈ s.written s' →
        .judged stage slot a' now' decision' ∈ s.written s' → a.began = a'.began) ∧
      ∃ boundary,
        (∀ slot a now decision, .judged .filterMap slot a now decision ∈ s.written s' →
          s.now ≤ a.began ∧ now ≤ boundary) ∧
        ∀ slot a now decision, .judged .publish slot a now decision ∈ s.written s' → boundary ≤ a.began := by
  intro s' single
  obtain ⟨s₁, s₂, hstaged, -⟩ := staged_dispatch w d registry batch s
  have hstuck : (d.dispatch w registry batch s).1 ≠ .stuck := fun h =>
    Dispatcher.dispatch_ne_stuck hw d registry batch s s' (Prod.ext h rfl)
  have htries : ∀ stage slot, ∃ n, tries (s.signs s' stage slot) = (List.range n).reverse ∧
      n ≤ d.budget.retries + 1 := by
    intro stage slot
    obtain ⟨began, stand, hh⟩ := hstaged.history stage slot
    obtain ⟨n, hn, hle, -⟩ := hh.tries_eq
    exact ⟨n, hn, hle⟩
  refine ⟨hstuck, fun stage slot => ?_, fun hsingle hjobs slot hlt => ?_, ?_, ?_, s₁.now, ?_, ?_⟩
  · obtain ⟨n, hn, hle⟩ := htries stage slot
    have hbound := d.retries_budget_le
    refine ⟨n, hn, by omega, fun hsingle => ?_⟩
    rwa [Dispatcher.retries_budget_eq_zero hsingle] at hle
  · obtain ⟨n, hn, hle⟩ := htries .filterMap slot
    rw [Dispatcher.retries_budget_eq_zero hsingle] at hle
    obtain ⟨began, stand, hh⟩ := hstaged.history .filterMap slot
    have hne := hh.tries_ne_nil (attempted_of_accepted w d registry batch s hstuck hjobs hlt)
    have hn1 : n = 1 := by
      rcases Nat.le_one_iff_eq_zero_or_eq_one.1 hle with rfl | rfl
      · exact absurd hn hne
      · rfl
    rw [hn, hn1]
    rfl
  · intro stage slot newer sign older hsigns hlast
    obtain ⟨began, stand, hh⟩ := hstaged.history stage slot
    rw [hsigns] at hh
    exact hh.no_try_after hlast
  · intro stage slot a now decision a' now' decision' he he'
    obtain ⟨began, stand, hh⟩ := hstaged.history stage slot
    rw [hh.began_of_judged (Session.mem_signs_iff.2 ⟨_, he, rfl⟩),
      hh.began_of_judged (Session.mem_signs_iff.2 ⟨_, he', rfl⟩)]
  · exact fun slot a now decision he => hstaged.judged_filterMap he
  · exact fun slot a now decision he => hstaged.judged_publish he

/-- The job of the first record is canceled once, so the record is attempted twice in its chain; three retries
would be allowed. -/
theorem Orders.attempted_twice :
    let s' := (dispatcher.dispatch oldest registry batch (.start ())).2
    tries ((Session.start ()).signs s' .filterMap 0) = [1, 0] ∧
      (dispatcher.dispatch oldest registry batch (.start ())).1 ≠ .stuck ∧
      ∀ stage slot, ∃ n, tries ((Session.start ()).signs s' stage slot) = (List.range n).reverse ∧ n ≤ 4 := by
  have htwice : tries ((Session.start ()).signs (dispatcher.dispatch oldest registry batch (.start ())).2
      .filterMap 0) = [1, 0] := by cbv
  obtain ⟨hends, htries, -⟩ := dispatch_attempts live_oldest dispatcher registry batch (.start ())
  refine ⟨htwice, hends, fun stage slot => ?_⟩
  obtain ⟨n, hn, hle, -⟩ := htries stage slot
  exact ⟨n, hn, hle⟩

end Relay
