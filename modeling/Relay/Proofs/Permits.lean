import Mathlib.Data.List.Induction
import Relay.Proofs.Marks
import Relay.Proofs.Moves
import Relay.Proofs.Releasing

/-!
# Whose policies let a record pass

The policy filter looks up what it merged ahead of a batch by the id of the subscriber, and of several subscribers with
one id it knows the last one only. A record passes its chain only if this one permits it, whichever of them takes it.
So a record reaches no subscriber that does not permit it if, and only if, subscribers with one id permit the same
records; ids are not checked for that.
-/

namespace Relay

/-- The last subscriber with an id. -/
def registrant? (subscribers : List Subscriber) (id : String) : Option Subscriber :=
  subscribers.reverse.find? (·.id == id)

/-- Subscribers with one id permit the same records. -/
def Agreeing (subscribers : List Subscriber) : Prop :=
  ∀ s ∈ subscribers, ∀ t ∈ subscribers, s.id = t.id → ∀ r, s.permits r = t.permits r

section Registrant

variable {subscribers : List Subscriber} {s t : Subscriber} {id : String}

theorem registrant?_mem (h : registrant? subscribers id = some t) : t ∈ subscribers ∧ t.id = id :=
  ⟨List.mem_reverse.1 (List.mem_of_find?_eq_some h), by simpa using List.find?_some h⟩

theorem exists_registrant (hs : s ∈ subscribers) : ∃ t, registrant? subscribers s.id = some t := by
  rw [← Option.isSome_iff_exists, registrant?, List.find?_isSome]
  exact ⟨s, List.mem_reverse.2 hs, by simp⟩

/-- The policies of the last subscriber with an id are merged under it. -/
theorem Admissions.get?_ofSubscribers (subscribers : List Subscriber) (id : String) :
    (ofSubscribers subscribers).get? id =
      (registrant? subscribers id).map fun t => Policy.merge t.rule.policies := by
  unfold ofSubscribers SortedMap.ofList registrant?
  induction subscribers using List.reverseRecOn with
  | nil => rfl
  | append_singleton rest s ih =>
    rw [List.map_append, List.foldl_append, List.map_cons, List.map_nil, List.foldl_cons, List.foldl_nil,
      SortedMap.get?_insert, ih, List.reverse_append, List.reverse_singleton, List.singleton_append,
      List.find?_cons]
    by_cases h : s.id = id
    · simp [h]
    · have hne : compare id s.id ≠ .eq := fun heq => h (Std.LawfulEqCmp.eq_of_compare heq).symm
      have hother : (s.id == id) = false := by simpa using h
      simp [hne, hother]

/-- For a subscriber of the coming batch the filter decides as the last one with its id permits. -/
theorem Filter.passes_refresh (a : Admissions) (subscribers : List Subscriber) (r : Routed) (t : Subscriber)
    (h : registrant? subscribers r.subscriber.id = some t) :
    ((Filter.policy a).refresh subscribers).passes r = .ok (t.permits r.record) := by
  simp [refresh, passes, Admissions.lookup, Admissions.get?_ofSubscribers, h, Policy.admits_merge,
    Subscriber.permits]

/-- The filter decides as the policies of every subscriber do if, and only if, subscribers with one id agree. -/
theorem agreeing_iff (a : Admissions) (subscribers : List Subscriber) :
    (∀ s ∈ subscribers, ∀ r, ((Filter.policy a).refresh subscribers).passes ⟨s, r⟩ = .ok (s.permits r)) ↔
      Agreeing subscribers := by
  constructor
  · intro h s hs t ht hid r
    obtain ⟨u, hu⟩ := exists_registrant hs
    have hs' := Filter.passes_refresh a subscribers ⟨s, r⟩ u hu
    have ht' := Filter.passes_refresh a subscribers ⟨t, r⟩ u (hid ▸ hu)
    rw [h s hs r] at hs'
    rw [h t ht r] at ht'
    exact (Except.ok.inj hs').trans (Except.ok.inj ht').symm
  · intro h s hs r
    obtain ⟨u, hu⟩ := exists_registrant hs
    obtain ⟨hmem, hid⟩ := registrant?_mem hu
    rw [Filter.passes_refresh a subscribers ⟨s, r⟩ u hu, h s hs u hmem hid.symm r]

end Registrant

/-! ## Chains -/

theorem Chain.passes_eq_true {r : Routed} {filters : List Filter} (h : Chain.passes r filters = .ok true) :
    ∀ f ∈ filters, f.passes r = .ok true := by
  induction filters with
  | nil => simp
  | cons f fs ih =>
    simp only [passes] at h
    split at h
    · next hf => exact List.forall_mem_cons.2 ⟨hf, ih h⟩
    · simp at h
    · simp at h

/-- A record that passes its chain passed every filter of it. -/
theorem Chain.passes_of_process {σ : Type} {c : Chain σ} {r : Routed} {s : σ} {outcome : Outcome}
    (h : (c.process r s).1 = .ok outcome) (hp : outcome.passed = true) : ∀ f ∈ c.filters, f.passes r = .ok true := by
  unfold process at h
  split at h
  · simp at h
  · obtain rfl := Except.ok.inj h
    simp at hp
  · next hpasses => exact passes_eq_true hpasses

/-- Surroundings whose workers run a chain: the chain is shown the subscribers of a batch, nothing else changes
it, and a job that does not fail ends with what the chain makes of its record. -/
structure World.Runs {σ τ : Type} (w : World σ) (chain : σ → Chain τ) : Prop where
  refresh : ∀ subscribers s, chain (w.refresh subscribers s) = (chain s).refresh subscribers
  asks : ∀ {s s'}, w.Asks s s' → chain s' = chain s
  finish : ∀ job s, (∃ e, (w.finish job s).1 = .error e) ∨
    ∃ t, (w.finish job s).1 = ((chain s).process job.routed t).1

section Runs

variable {σ τ : Type} {w : World σ} {chain : σ → Chain τ} {p : Publisher} {fits : Nat → Routed → Prop}
  {s s' : Session σ}

theorem Session.Moves.chain_eq (h : s.Moves w p fits s') (hw : w.Runs chain) : chain s'.world = chain s.world := by
  induction h with
  | start => rfl
  | asks _ asked ih => exact (hw.asks asked).trans ih
  | ticks _ _ ih => exact (hw.asks .clock).trans ih
  | notes _ _ ih => exact ih
  | marks _ _ ih => exact ih
  | pools _ _ ih => exact ih
  | ends _ job _ ih => exact (hw.asks (.finish job)).trans ih
  | hands _ _ _ _ _ _ ih => exact ih

/-- A job that ended well ended with what the chain makes of its record. -/
theorem Session.Moves.processed (h : s.Moves w p fits s') (hw : w.Runs chain) :
    ∃ added, s'.journal = added ++ s.journal ∧ ∀ job outcome, .processed job (.ok outcome) ∈ added →
      fits job.slot job.routed ∧ ∃ t, ((chain s.world).process job.routed t).1 = .ok outcome := by
  have haside : ∀ e : Event, e.isOutcome = false → ∀ job outcome, e = .processed job (.ok outcome) →
      fits job.slot job.routed ∧ ∃ t, ((chain s.world).process job.routed t).1 = .ok outcome := by
    rintro e haside job outcome rfl
    simp [Event.isOutcome] at haside
  have hended : ∀ {s₁} job, s.Moves w p fits s₁ → fits job.slot job.routed →
      ∀ job' outcome, Event.processed job (w.finish job s₁.world).1 = .processed job' (.ok outcome) →
        fits job'.slot job'.routed ∧ ∃ t, ((chain s.world).process job'.routed t).1 = .ok outcome := by
    intro s₁ job hmoves fit job' outcome heq
    obtain ⟨rfl, hresult⟩ := Event.processed.inj heq
    refine ⟨fit, ?_⟩
    rcases hw.finish job s₁.world with ⟨e, herror⟩ | ⟨t, hok⟩
    · rw [herror] at hresult
      simp at hresult
    · rw [hok, hmoves.chain_eq hw] at hresult
      exact ⟨t, hresult⟩
  obtain ⟨added, hj, hadded⟩ := h.writes haside hended (by simp)
  exact ⟨added, hj, fun job outcome he => hadded _ he job outcome rfl⟩

end Runs

/-- Where the chain has the policy filter, a record passes only if the last subscriber with the id of its own one
permits it. It follows that no record passes which its own subscriber does not permit, provided that subscribers with
one id permit the same records; and just then does the filter decide for every subscriber as its own policies do. -/
theorem passes_only_permitted {σ τ : Type} {w : World σ} {chain : σ → Chain τ} (hw : w.Runs chain) (d : Dispatcher)
    (registry : Registry) (batch : Batch) (s : Session σ) (a : Admissions)
    (ha : .policy a ∈ (chain s.world).filters) :
    let subscribers := registry.subscribers d.pipeline
    let s' := (d.dispatch w registry batch s).2
    (∀ job outcome, .processed job (.ok outcome) ∈ s.written s' → outcome.passed = true →
      (Matching.ofRecords subscribers batch.records).matched[job.slot]? = some job.routed ∧
        ∃ t, registrant? subscribers job.routed.subscriber.id = some t ∧ t.permits job.routed.record = true) ∧
      (Agreeing subscribers → ∀ job outcome, .processed job (.ok outcome) ∈ s.written s' → outcome.passed = true →
        job.routed.subscriber.permits job.routed.record = true) ∧
      ((∀ s ∈ subscribers, ∀ r, ((Filter.policy a).refresh subscribers).passes ⟨s, r⟩ = .ok (s.permits r)) ↔
        Agreeing subscribers) := by
  intro subscribers s'
  obtain ⟨added, hj, hprocessed⟩ := (d.moves_dispatch w registry batch s).processed hw
  have hwritten : s.written s' = added := Session.written_eq hj
  have hrefreshed : (Filter.policy a).refresh subscribers ∈ (chain (w.refresh subscribers s.world)).filters := by
    rw [hw.refresh]
    exact List.mem_map_of_mem ha
  have hpermitted : ∀ job outcome, .processed job (.ok outcome) ∈ s.written s' → outcome.passed = true →
      (Matching.ofRecords subscribers batch.records).matched[job.slot]? = some job.routed ∧
        ∃ t, registrant? subscribers job.routed.subscriber.id = some t ∧
          t.permits job.routed.record = true := by
    intro job outcome he hpassed
    rw [hwritten] at he
    obtain ⟨hplaced, state, hprocess⟩ := hprocessed job outcome he
    refine ⟨hplaced, ?_⟩
    obtain ⟨-, hfind⟩ := routed_of_matched hplaced
    obtain ⟨t, ht⟩ := exists_registrant (List.mem_of_find?_eq_some hfind)
    have hfilter := Chain.passes_of_process hprocess hpassed _ hrefreshed
    rw [Filter.passes_refresh a subscribers job.routed t ht] at hfilter
    exact ⟨t, ht, Except.ok.inj hfilter⟩
  refine ⟨hpermitted, fun hagreeing job outcome he hpassed => ?_, agreeing_iff a subscribers⟩
  obtain ⟨hplaced, t, ht, hpermits⟩ := hpermitted job outcome he hpassed
  obtain ⟨-, hfind⟩ := routed_of_matched hplaced
  obtain ⟨hmem, hid⟩ := registrant?_mem ht
  rw [hagreeing _ (List.mem_of_find?_eq_some hfind) t hmem hid.symm]
  exact hpermits

namespace Namesakes

/-- A subscriber that sees records of one plan. -/
def narrow : Subscriber := ⟨"s", ⟨false, .all, [⟨"", some (.field "/plan" (.text "pro")), []⟩]⟩, .standard⟩

/-- A subscriber with the same id that sees every record. -/
def wide : Subscriber := ⟨"s", ⟨false, .all, [⟨"", none, []⟩]⟩, .standard⟩

/-- Both are registered, and the first one takes every record. -/
def registry : Registry := ⟨.ofList [("", ⟨[narrow, wide], .ofList [("", ⟨""⟩)]⟩)]⟩

/-- A record of another plan. -/
def record : Record := ⟨⟨⟨"", 0⟩, 0⟩, none, [], .object [("plan", .text "free")]⟩

/-- A chain with the policy filter. -/
def chain : Chain Unit := ⟨[.policy .empty], []⟩

/-- Workers that run a chain, among surroundings where everything succeeds. -/
def world : World (Chain Unit) where
  clock c := (0, c)
  refresh subscribers c := c.refresh subscribers
  submit _ c := (true, c)
  finish job c := ((c.process job.routed ()).1, c)
  cancelAll c := c
  shutdown c := c
  next _ c := (some 0, c)
  create _ _ c := (.ok (), c)
  spread c := (0, c)
  send _ c := (.ok (), c)
  deliver _ c := (.ok (), c)
  flush _ c := (.done, c)
  commit _ c := (.ok (), c)
  seek _ c := (.ok (), c)

theorem runs_world : world.Runs id where
  refresh _ _ := rfl
  asks h := by cases h <;> rfl
  finish job c := .inr ⟨(), rfl⟩

/-- The record passes its chain, although its subscriber does not permit it: the other one does. -/
theorem passes_unpermitted :
    let s' := (Orders.dispatcher.dispatch world registry ⟨[record], []⟩ (.start chain)).2
    narrow.permits record = false ∧
      .processed ⟨0, 0, ⟨narrow, record⟩⟩ (.ok ⟨true, record.carried⟩) ∈ (Session.start chain).written s' ∧
      ∃ t, registrant? [narrow, wide] narrow.id = some t ∧ t.permits record = true := by
  have hwritten : ((Session.start chain).written
      (Orders.dispatcher.dispatch world registry ⟨[record], []⟩ (.start chain)).2)[13]? =
        some (.processed ⟨0, 0, ⟨narrow, record⟩⟩ (.ok ⟨true, record.carried⟩)) := by
    cbv
  have hprocessed := List.mem_of_getElem? hwritten
  obtain ⟨hpermitted, -⟩ := passes_only_permitted runs_world Orders.dispatcher registry ⟨[record], []⟩
    (.start chain) .empty List.mem_cons_self
  obtain ⟨-, t, ht, hpermits⟩ := hpermitted _ _ hprocessed rfl
  exact ⟨by cbv, hprocessed, t, ht, hpermits⟩

end Namesakes

end Relay
