import Relay.Proofs.Fates
import Relay.Proofs.SettledRun

/-!
# Batches that come again

Where the commit of a batch is refused, the consumer is rewound to the lowest offset of the batch in every
partition, and no other trace of the commit stays. A batch that comes again then meets what it would have met
had it never been dispatched before: its ledger and its counts depend on the fates of its records alone, and what
is asked of the consumer group depends on the ledger and the tracker.
-/

namespace Relay

/-! ## Batches of which the records fare alike -/

/-- The records of a batch fare alike in two dispatches. -/
def Dispatcher.FareAlike {σ₁ σ₂ : Type} (d : Dispatcher) (s₁ s₁' : Session σ₁) (s₂ s₂' : Session σ₂) : Prop :=
  ∀ slot fate, (slot, fate) ∈ d.fates s₁ s₁' ↔ (slot, fate) ∈ d.fates s₂ s₂'

section Alike

variable {σ₁ σ₂ : Type} {w₁ : World σ₁} {w₂ : World σ₂} {d : Dispatcher} {registry : Registry} {batch : Batch}
  {s₁ s₁' : Session σ₁} {s₂ s₂' : Session σ₂} {summary₁ summary₂ : Summary} {ledger₁ ledger₂ : Ledger}

theorem Dispatcher.FareAlike.perm (h : d.FareAlike s₁ s₁' s₂ s₂') (h₁ : ((d.fates s₁ s₁').map (·.1)).Nodup)
    (h₂ : ((d.fates s₂ s₂').map (·.1)).Nodup) : (d.fates s₁ s₁').Perm (d.fates s₂ s₂') :=
  (List.perm_ext_iff_of_nodup h₁.of_map h₂.of_map).2 fun x => h x.1 x.2

/-- A place of a ledger is abandoned exactly if a record there was. -/
theorem abandoned_iff_fate (h : d.dispatch w₁ registry batch s₁ = (.done summary₁ ledger₁, s₁'))
    (place : Coordinates) :
    ledger₁.status place = some .abandoned ↔
      ∃ slot r, (slot, .abandoned) ∈ d.fates s₁ s₁' ∧
        (Matching.ofRecords (registry.subscribers d.pipeline) batch.records).matched[slot]? = some r ∧
        r.coordinates = place := by
  rw [(balanced_dispatch h).abandoned]
  constructor
  · rintro ⟨stage, slot, a, now, reason, r, he, hr⟩
    exact ⟨slot, r, Dispatcher.abandoned_mem_fates.2 ⟨stage, a, now, reason, he⟩, hr⟩
  · rintro ⟨slot, r, hfate, hr⟩
    obtain ⟨stage, a, now, reason, he⟩ := Dispatcher.abandoned_mem_fates.1 hfate
    exact ⟨stage, slot, a, now, reason, r, he, hr⟩

/-- A batch whose records fare alike has the same ledger. -/
theorem ledger_eq_of_alike (h₁ : d.dispatch w₁ registry batch s₁ = (.done summary₁ ledger₁, s₁'))
    (h₂ : d.dispatch w₂ registry batch s₂ = (.done summary₂ ledger₂, s₂')) (h : d.FareAlike s₁ s₁' s₂ s₂') :
    ledger₁ = ledger₂ := by
  obtain ⟨-, -, -, hdense₁⟩ := dispatch_fates h₁
  obtain ⟨-, -, -, hdense₂⟩ := dispatch_fates h₂
  refine hdense₁.ext hdense₂ fun place => ?_
  have hlisted := ((balanced_dispatch h₁).listed place).trans ((balanced_dispatch h₂).listed place).symm
  have habandoned : ledger₁.status place = some .abandoned ↔ ledger₂.status place = some .abandoned := by
    rw [abandoned_iff_fate h₁, abandoned_iff_fate h₂]
    exact exists_congr fun slot => exists_congr fun r => and_congr_left' (h slot .abandoned)
  cases hs₁ : ledger₁.status place with
  | none =>
    by_contra hne
    exact absurd hs₁ (hlisted.2 (Ne.symm hne))
  | some status₁ =>
    obtain ⟨status₂, hs₂⟩ := Option.ne_none_iff_exists'.1 (hlisted.1 (by simp [hs₁]))
    rw [hs₁, hs₂] at habandoned
    rw [hs₂]
    cases status₁ <;> cases status₂ <;> simp at habandoned ⊢

/-- A batch whose records fare alike comes to the same counts. -/
theorem counts_eq_of_alike (h₁ : d.dispatch w₁ registry batch s₁ = (.done summary₁ ledger₁, s₁'))
    (h₂ : d.dispatch w₂ registry batch s₂ = (.done summary₂ ledger₂, s₂')) (h : d.FareAlike s₁ s₁' s₂ s₂') :
    summary₁ = { summary₂ with committed := summary₁.committed, rewound := summary₁.rewound } := by
  obtain ⟨hdistinct₁, hrejected₁, habandoned₁, -⟩ := dispatch_fates h₁
  obtain ⟨hdistinct₂, hrejected₂, habandoned₂, -⟩ := dispatch_fates h₂
  have hbalanced₁ := balanced_dispatch h₁
  have hbalanced₂ := balanced_dispatch h₂
  have hcount : ∀ fate, ((d.fates s₁ s₁').map (·.2)).count fate = ((d.fates s₂ s₂').map (·.2)).count fate :=
    fun fate => ((h.perm hdistinct₁ hdistinct₂).map _).count_eq fate
  have hfiltered : summary₁.filtered = summary₂.filtered := by rw [hrejected₁, hrejected₂, hcount]
  have habandoned : summary₁.abandoned = summary₂.abandoned := by rw [habandoned₁, habandoned₂, hcount]
  have hmatched : summary₁.matched = summary₂.matched := hbalanced₁.matched.trans hbalanced₂.matched.symm
  have hunmatched : summary₁.unmatched = summary₂.unmatched := hbalanced₁.unmatched.trans hbalanced₂.unmatched.symm
  have hundecodable : summary₁.undecodable = summary₂.undecodable :=
    hbalanced₁.undecodable.trans hbalanced₂.undecodable.symm
  have hpublished : summary₁.published = summary₂.published := by
    cases hcheckpoint : d.checkpoint with
    | true =>
      have hsum₁ := hbalanced₁.balance hcheckpoint
      have hsum₂ := hbalanced₂.balance hcheckpoint
      omega
    | false => rw [hbalanced₁.unpublished hcheckpoint, hbalanced₂.unpublished hcheckpoint]
  rw [← hmatched, ← hunmatched, ← hundecodable, ← hfiltered, ← habandoned, ← hpublished]

end Alike

/-! ## The end of a dispatch -/

/-- How a dispatch ends that acknowledges its batch: with a commit that is accepted or not, and with a rewind that
succeeds or not. -/
structure Closed {σ : Type} (d : Dispatcher) (s s' : Session σ) (summary : Summary) (ledger : Ledger)
    (accepted sought : Bool) : Prop where
  /-- A commit that is not asked for is not refused. -/
  asked : (Dispatcher.asked d.level s.tracker ledger).isEmpty = true → accepted = true
  calls : (s.written s').filter Event.isGroup =
    Dispatcher.call .sought (Dispatcher.resumed d.level ledger accepted) sought ++
      Dispatcher.call .committed (Dispatcher.asked d.level s.tracker ledger) accepted
  tracker : s'.tracker =
    if accepted then s.tracker.mark (Dispatcher.asked d.level s.tracker ledger) else s.tracker
  committed : summary.committed =
    if accepted then Dispatcher.asked d.level s.tracker ledger else .empty
  rewound : summary.rewound = if sought then Dispatcher.resumed d.level ledger accepted else .empty

section Closed

variable {σ : Type} {w : World σ} {d : Dispatcher} {registry : Registry} {batch : Batch} {s s' : Session σ}
  {summary : Summary} {ledger : Ledger} {accepted sought : Bool}

theorem Session.mem_written_of_isGroup {calls : List Event} {e : Event}
    (h : (s.written s').filter Event.isGroup = calls) (he : e.isGroup = true) : e ∈ s.written s' ↔ e ∈ calls := by
  rw [← h, List.mem_filter]
  exact ⟨fun hm => ⟨hm, he⟩, And.left⟩

theorem closed_of_dispatch (h : d.dispatch w registry batch s = (.done summary ledger, s')) :
    ∃ accepted sought, Closed d s s' summary ledger accepted sought := by
  obtain ⟨c, left, hconclude, hquiet, hcounted⟩ := counted_dispatch h
  obtain ⟨accepted, sought, hack⟩ := Dispatcher.acknowledge_spec w d.level c
  simp only [Dispatcher.conclude, Prod.mk.injEq, Dispatched.done.injEq] at hconclude
  obtain ⟨⟨rfl, rfl⟩, rfl⟩ := hconclude
  obtain ⟨hcommitted, hrewound⟩ := hcounted.unacknowledged
  have hcalls := hack.group hquiet (Session.tells_observe "batch_dispatch_duration_ms" [] _)
  have htracker : c.session.tracker = s.tracker := by
    obtain ⟨old, hold, -⟩ := hquiet
    exact hold.tracker
  refine ⟨accepted, sought, ?_, hcalls, ?_, ?_, ?_⟩
  · rw [hack.ledger, ← htracker]
    exact hack.asked
  · rw [hack.ledger, ← htracker]
    exact hack.tracker
  · rw [hack.summary, hack.ledger, ← htracker]
    simp only [hcommitted]
    cases he : (Dispatcher.asked d.level c.session.tracker c.ledger).isEmpty with
    | true => rw [SortedMap.eq_empty_of_isEmpty he, Bool.true_or, if_pos rfl, ite_self]
    | false => cases accepted <;> rfl
  · rw [hack.summary, hack.ledger]
    simp only [hrewound]
    cases he : (Dispatcher.resumed d.level c.ledger accepted).isEmpty with
    | true => rw [SortedMap.eq_empty_of_isEmpty he, Bool.true_or, if_pos rfl, ite_self]
    | false => cases sought <;> rfl

namespace Closed

variable {offsets : Offsets} {ok : Bool}

/-- A commit is asked for exactly if there is something to commit. -/
theorem committed_mem (h : Closed d s s' summary ledger accepted sought) :
    .committed offsets ok ∈ s.written s' ↔
      offsets = Dispatcher.asked d.level s.tracker ledger ∧ ok = accepted ∧ offsets.isEmpty = false := by
  rw [Session.mem_written_of_isGroup h.calls rfl, List.mem_append, Dispatcher.mem_call, Dispatcher.mem_call]
  constructor
  · rintro (⟨-, he⟩ | ⟨hne, he⟩)
    · simp at he
    · obtain ⟨rfl, rfl⟩ := Event.committed.inj he
      exact ⟨rfl, rfl, hne⟩
  · rintro ⟨rfl, rfl, hne⟩
    exact .inr ⟨hne, rfl⟩

/-- A commit that is never refused is accepted, if it is asked for at all. -/
theorem accepted_of_not_refused (h : Closed d s s' summary ledger accepted sought)
    (haccepted : ∀ offsets, .committed offsets false ∉ s.written s') : accepted = true := by
  cases he : (Dispatcher.asked d.level s.tracker ledger).isEmpty with
  | true => exact h.asked he
  | false =>
    by_contra hrefused
    obtain rfl : accepted = false := by simpa using hrefused
    exact haccepted _ (h.committed_mem.2 ⟨rfl, rfl, he⟩)

/-- A rewind is asked for exactly if there is something to resume at. -/
theorem sought_mem (h : Closed d s s' summary ledger accepted sought) :
    .sought offsets ok ∈ s.written s' ↔
      offsets = Dispatcher.resumed d.level ledger accepted ∧ ok = sought ∧ offsets.isEmpty = false := by
  rw [Session.mem_written_of_isGroup h.calls rfl, List.mem_append, Dispatcher.mem_call, Dispatcher.mem_call]
  constructor
  · rintro (⟨hne, he⟩ | ⟨-, he⟩)
    · obtain ⟨rfl, rfl⟩ := Event.sought.inj he
      exact ⟨rfl, rfl, hne⟩
    · simp at he
  · rintro ⟨rfl, rfl, hne⟩
    exact .inl ⟨hne, rfl⟩

/-- Where the same was known to be committed, the same is asked for and remembered, if no commit is refused and
rewinds fare alike. -/
theorem agree {ρ : Type} {s₁ s₁' : Session ρ} {summary₁ : Summary} {accepted₁ sought₁ : Bool}
    (h : Closed d s s' summary ledger accepted sought) (h₁ : Closed d s₁ s₁' summary₁ ledger accepted₁ sought₁)
    (htracker : s.tracker = s₁.tracker) (haccepted : ∀ offsets, .committed offsets false ∉ s.written s')
    (haccepted₁ : ∀ offsets, .committed offsets false ∉ s₁.written s₁')
    (hsought : ∀ offsets offsets' ok ok', .sought offsets ok ∈ s.written s' →
      .sought offsets' ok' ∈ s₁.written s₁' → ok = ok') :
    summary.committed = summary₁.committed ∧ summary.rewound = summary₁.rewound ∧ s'.tracker = s₁'.tracker ∧
      (s.written s').filter Event.isGroup = (s₁.written s₁').filter Event.isGroup := by
  obtain rfl := h.accepted_of_not_refused haccepted
  obtain rfl := h₁.accepted_of_not_refused haccepted₁
  have hcommitted : summary.committed = summary₁.committed := by rw [h.committed, h₁.committed, htracker]
  have hkept : s'.tracker = s₁'.tracker := by rw [h.tracker, h₁.tracker, htracker]
  cases he : (Dispatcher.resumed d.level ledger true).isEmpty with
  | true =>
    have hsilent : ∀ ok, Dispatcher.call .sought (Dispatcher.resumed d.level ledger true) ok = [] :=
      fun ok => if_pos he
    refine ⟨hcommitted, ?_, hkept, ?_⟩
    · rw [h.rewound, h₁.rewound, SortedMap.eq_empty_of_isEmpty he, ite_self, ite_self]
    · rw [h.calls, h₁.calls, htracker, hsilent, hsilent]
  | false =>
    obtain rfl := hsought _ _ sought sought₁ (h.sought_mem.2 ⟨rfl, rfl, he⟩) (h₁.sought_mem.2 ⟨rfl, rfl, he⟩)
    refine ⟨hcommitted, ?_, hkept, ?_⟩
    · rw [h.rewound, h₁.rewound]
    · rw [h.calls, h₁.calls, htracker]

end Closed

end Closed

/-! ## Failed commits -/

/-- Without any commit, a partition is resumed at its lowest offset. -/
theorem Ledger.get?_redelivery_empty {l : Ledger} {p : Partition} {first : Int} :
    (l.redelivery .empty).get? p = some first ↔ IsLeast {o | l.status ⟨p, o⟩ ≠ none} first := by
  by_cases hp : ∀ o, l.status ⟨p, o⟩ = none
  · rw [(get?_of_status_eq_none hp .empty).2.1]
    refine iff_of_false (by simp) fun hleast => hleast.1 (hp first)
  · push Not at hp
    obtain ⟨o, ho⟩ := hp
    obtain ⟨lowest, last, next, hspans⟩ := exists_spans ho
    rw [hspans.get?_redelivery, SortedMap.get?_empty, Option.getD_none, if_pos hspans.first_le_last,
      Option.some_inj]
    constructor
    · rintro rfl
      exact hspans.lowest
    · exact hspans.lowest.unique

section Redelivery

variable {σ ρ τ : Type} {w : World σ} {d : Dispatcher} {registry : Registry} {batch : Batch} {s s' : Session σ}

/-- Only a dispatch that acknowledges its batch turns to the consumer group. -/
theorem done_of_isGroup {e : Event} (h : e ∈ s.written (d.dispatch w registry batch s).2)
    (hgroup : e.isGroup = true) :
    ∃ summary ledger, d.dispatch w registry batch s = (.done summary ledger, (d.dispatch w registry batch s).2) := by
  rcases Dispatcher.quiet_dispatch w d registry batch s with ⟨news, hold, hquiet⟩ | ⟨c, -, heq⟩
  · rw [Session.mem_written_iff hold.adds (Dispatcher.isNews_of_isGroup hgroup)] at h
    rw [hquiet e h] at hgroup
    exact absurd hgroup Bool.false_ne_true
  · rw [heq]
    exact ⟨_, _, rfl⟩

/-- A batch is dispatched, and its records fare as in a dispatch before; no commit is refused. -/
structure Repeats (d : Dispatcher) (registry : Registry) (batch : Batch) (s s' : Session σ) (w₁ : World ρ)
    (s₁ : Session ρ) : Prop where
  live : w₁.Live
  fates : d.FareAlike s s' s₁ (d.dispatch w₁ registry batch s₁).2
  accepted : ∀ offsets, .committed offsets false ∉ s₁.written (d.dispatch w₁ registry batch s₁).2

/-- Where a dispatch acknowledged its batch, one in which the records fare alike does. -/
theorem Repeats.done {w₁ : World ρ} {s₁ : Session ρ} {summary : Summary} {ledger : Ledger}
    (h : Repeats d registry batch s s' w₁ s₁) (hd : d.dispatch w registry batch s = (.done summary ledger, s')) :
    ∃ summary₁, d.dispatch w₁ registry batch s₁ =
      (.done summary₁ ledger, (d.dispatch w₁ registry batch s₁).2) := by
  rcases hd₁ : d.dispatch w₁ registry batch s₁ with ⟨⟨summary₁, ledger₁⟩ | err | _, s₁'⟩
  · have hfates := h.fates
    rw [hd₁] at hfates
    obtain rfl := ledger_eq_of_alike hd hd₁ hfates
    exact ⟨summary₁, rfl⟩
  · -- a record that stops the dispatch has stopped the other one, too
    have hfailed : (d.dispatch w₁ registry batch s₁).1 = .failed err := by rw [hd₁]
    obtain ⟨e, he, hstops⟩ := (Dispatcher.failed_iff_stops w₁ d registry batch s₁ err).1 hfailed
    obtain ⟨slot, hfate⟩ := Dispatcher.stops?_iff.1 hstops
    obtain ⟨e', he', hfate'⟩ := Dispatcher.mem_fates.1
      ((h.fates slot (.fatal err)).2 (Dispatcher.mem_fates.2 ⟨e, he, hfate⟩))
    have hstopped : (d.dispatch w registry batch s).1 = .failed err :=
      (Dispatcher.failed_iff_stops w d registry batch s err).2
        ⟨e', by rwa [hd], Dispatcher.stops?_iff.2 ⟨slot, hfate'⟩⟩
    rw [hd] at hstopped
    simp at hstopped
  · exact (Dispatcher.dispatch_ne_stuck h.live d registry batch s₁ s₁' hd₁).elim

/-- After a refused commit the consumer is rewound to the beginning of the batch. -/
theorem Closed.refused {summary : Summary} {ledger : Ledger} (h : Closed d s s' summary ledger false true)
    (hd : d.dispatch w registry batch s = (.done summary ledger, s')) :
    s'.tracker = s.tracker ∧ summary.committed = .empty ∧
      (∀ p, p ∈ summary.rewound.keys ↔ p ∈ ledger.partitions.keys) ∧
      (∀ p o, summary.rewound.get? p = some o → IsLeast {o | ⟨p, o⟩ ∈ batch.places} o) ∧
      ∀ place ∈ batch.places, ∃ o, summary.rewound.get? place.partition = some o ∧ o ≤ place.offset := by
  have hlisted := (balanced_dispatch hd).listed
  obtain ⟨-, -, -, hdense⟩ := dispatch_fates hd
  have hrewound : summary.rewound = ledger.redelivery .empty := h.rewound
  have hplaces : ∀ p, {o | ledger.status ⟨p, o⟩ ≠ none} = {o | ⟨p, o⟩ ∈ batch.places} :=
    fun p => Set.ext fun o => hlisted ⟨p, o⟩
  have hget : ∀ p o, ledger.status ⟨p, o⟩ ≠ none →
      ∃ first, summary.rewound.get? p = some first ∧ first ≤ o := by
    intro p o ho
    obtain ⟨first, last, next, hspans⟩ := Ledger.exists_spans ho
    exact ⟨first, by rw [hrewound, Ledger.get?_redelivery_empty]; exact hspans.lowest, hspans.lowest.2 ho⟩
  refine ⟨h.tracker, h.committed, fun p => ?_, fun p o ho => ?_, fun place hplace => ?_⟩
  · rw [SortedMap.mem_keys_iff, SortedMap.mem_keys_iff]
    constructor
    · intro hp
      obtain ⟨first, hfirst⟩ := Option.ne_none_iff_exists'.1 hp
      rw [hrewound, Ledger.get?_redelivery_empty] at hfirst
      exact Ledger.get?_ne_none_of_status hfirst.1
    · intro hp
      obtain ⟨o, ho⟩ := hdense.exists_status hp
      obtain ⟨first, hfirst, -⟩ := hget p o ho
      simp [hfirst]
  · rw [hrewound, Ledger.get?_redelivery_empty, hplaces] at ho
    exact ho
  · exact hget place.partition place.offset ((hlisted place).2 hplace)

end Redelivery

/-- A refused commit leaves no trace. Where the commit of a batch is refused and the rewind succeeds, the tracker is
as before, nothing is reported as committed, and the consumer is rewound in the partitions of the ledger, and in no
other, to the lowest offset of the batch. If the batch then comes again, its records fare alike and the commit is
accepted, it is dispatched as if it had not been dispatched before: with the same calls to the consumer group, of
which the commit is the one that was refused, the same summary, and the same tracker in the end. -/
theorem refused_commit_leaves_no_trace {σ : Type} {w : World σ} {d : Dispatcher} {registry : Registry}
    {batch : Batch} {s s' : Session σ} {refused resumed : Offsets} (hs' : s' = (d.dispatch w registry batch s).2)
    (hrefused : .committed refused false ∈ s.written s') (hresumed : .sought resumed true ∈ s.written s') :
    (∃ summary ledger, d.dispatch w registry batch s = (.done summary ledger, s') ∧ s'.tracker = s.tracker ∧
      summary.committed = .empty ∧ (∀ p, p ∈ summary.rewound.keys ↔ p ∈ ledger.partitions.keys) ∧
      (∀ p o, summary.rewound.get? p = some o → IsLeast {o | ⟨p, o⟩ ∈ batch.places} o) ∧
      ∀ place ∈ batch.places, ∃ o, summary.rewound.get? place.partition = some o ∧ o ≤ place.offset) ∧
    ∀ {ρ τ : Type} {w₁ : World ρ} {w₂ : World τ} {s₁ s₁' : Session ρ} {s₂ s₂' : Session τ},
      s₁' = (d.dispatch w₁ registry batch s₁).2 → s₂' = (d.dispatch w₂ registry batch s₂).2 →
      Repeats d registry batch s s' w₁ s₁ → Repeats d registry batch s s' w₂ s₂ →
      s₁.tracker = s'.tracker → s₂.tracker = s.tracker →
      (∀ offsets offsets' ok ok', .sought offsets ok ∈ s₁.written s₁' →
        .sought offsets' ok' ∈ s₂.written s₂' → ok = ok') →
      ∃ summary ledger,
        d.dispatch w₁ registry batch s₁ = (.done summary ledger, s₁') ∧
        d.dispatch w₂ registry batch s₂ = (.done summary ledger, s₂') ∧
        .committed refused true ∈ s₁.written s₁' ∧
        (s₁.written s₁').filter Event.isGroup = (s₂.written s₂').filter Event.isGroup ∧
        s₁'.tracker = s₂'.tracker := by
  subst hs'
  obtain ⟨summary, ledger, hd⟩ := done_of_isGroup hrefused rfl
  generalize (d.dispatch w registry batch s).2 = s' at hrefused hresumed hd
  obtain ⟨accepted, sought, hclosed⟩ := closed_of_dispatch hd
  obtain ⟨rfl, rfl, hne⟩ := hclosed.committed_mem.1 hrefused
  obtain ⟨rfl, rfl, -⟩ := hclosed.sought_mem.1 hresumed
  constructor
  · obtain ⟨htracker, hcommitted, hrewound⟩ := hclosed.refused hd
    exact ⟨summary, ledger, hd, htracker, hcommitted, hrewound⟩
  · rintro ρ τ w₁ w₂ s₁ s₁' s₂ s₂' rfl rfl h₁ h₂ htracker₁ htracker₂ hsought
    obtain ⟨summary₁, hd₁⟩ := h₁.done hd
    obtain ⟨summary₂, hd₂⟩ := h₂.done hd
    obtain ⟨accepted₁, sought₁, hclosed₁⟩ := closed_of_dispatch hd₁
    obtain ⟨accepted₂, sought₂, hclosed₂⟩ := closed_of_dispatch hd₂
    have hsame : s₁.tracker = s.tracker := htracker₁.trans hclosed.tracker
    obtain ⟨hcommitted, hrewound, htracker, hcalls⟩ :=
      hclosed₁.agree hclosed₂ (hsame.trans htracker₂.symm) h₁.accepted h₂.accepted hsought
    have hcounts := counts_eq_of_alike hd₁ hd₂ fun slot fate =>
      (h₁.fates slot fate).symm.trans (h₂.fates slot fate)
    obtain rfl : summary₁ = summary₂ := by rw [hcounts, hcommitted, hrewound]
    obtain rfl := hclosed₁.accepted_of_not_refused h₁.accepted
    refine ⟨summary₁, ledger, hd₁, hd₂, ?_, hcalls, htracker⟩
    exact hclosed₁.committed_mem.2 ⟨by rw [hsame], rfl, hne⟩

namespace Refused

/-- Surroundings where the chain gives the second record up, and the consumer group accepts commits or not. -/
def world (accepts : Bool) : World Unit :=
  { Orders.oldest with
    finish := fun job s => (if job.slot = 1 then .error (.giveUp "") else .ok ⟨true, ⟨.null, false⟩⟩, s)
    commit := fun _ s => (if accepts then .ok () else .error (.commit ""), s) }

theorem live_world (accepts : Bool) : (world accepts).Live := Orders.live_oldest

/-- The commit of the batch is refused. -/
def first : Dispatched × Session Unit :=
  Orders.dispatcher.dispatch (world false) Orders.registry Orders.batch (.start ())

/-- The batch comes again. -/
def again : Dispatched × Session Unit :=
  Orders.dispatcher.dispatch (world true) Orders.registry Orders.batch first.2

/-- The batch comes for the first time, and its commit is accepted. -/
def fresh : Dispatched × Session Unit :=
  Orders.dispatcher.dispatch (world true) Orders.registry Orders.batch (.start ())

theorem calls_first :
    ((Session.start ()).written first.2).filter Event.isGroup =
      [.sought (.ofList [(⟨"", 0⟩, 0)]) true, .committed (.ofList [(⟨"", 0⟩, 1)]) false] := by cbv

theorem calls_again :
    (first.2.written again.2).filter Event.isGroup =
      [.sought (.ofList [(⟨"", 0⟩, 1)]) true, .committed (.ofList [(⟨"", 0⟩, 1)]) true] := by cbv

theorem calls_fresh :
    ((Session.start ()).written fresh.2).filter Event.isGroup =
      [.sought (.ofList [(⟨"", 0⟩, 1)]) true, .committed (.ofList [(⟨"", 0⟩, 1)]) true] := by cbv

/-- The second record is given up each time. -/
theorem fates :
    Orders.dispatcher.fates (.start ()) first.2 = [(1, .abandoned)] ∧
      Orders.dispatcher.fates first.2 again.2 = [(1, .abandoned)] ∧
      Orders.dispatcher.fates (.start ()) fresh.2 = [(1, .abandoned)] := by cbv

theorem repeats_again :
    Repeats Orders.dispatcher Orders.registry Orders.batch (.start ()) first.2 (world true) first.2 := by
  obtain ⟨hfirst, hagain, -⟩ := fates
  refine ⟨live_world true, fun slot fate => ?_, fun offsets hm => ?_⟩
  · rw [hfirst]
    exact iff_of_eq (congrArg _ hagain.symm)
  · have hm := (Session.mem_written_of_isGroup calls_again rfl).1 hm
    simp at hm

theorem repeats_fresh :
    Repeats Orders.dispatcher Orders.registry Orders.batch (.start ()) first.2 (world true) (.start ()) := by
  obtain ⟨hfirst, -, hfresh⟩ := fates
  refine ⟨live_world true, fun slot fate => ?_, fun offsets hm => ?_⟩
  · rw [hfirst]
    exact iff_of_eq (congrArg _ hfresh.symm)
  · have hm := (Session.mem_written_of_isGroup calls_fresh rfl).1 hm
    simp at hm

/-- At first the commit of the first record is refused and the consumer rewound to it. When the batch comes again, it
is committed as by a group that has always accepted commits. -/
theorem redelivered :
    first.2.tracker = .empty ∧ .committed (.ofList [(⟨"", 0⟩, 1)]) true ∈ first.2.written again.2 ∧
      ∃ summary ledger, again.1 = .done summary ledger ∧ fresh.1 = .done summary ledger ∧
        again.2.tracker = fresh.2.tracker := by
  have hrefused : .committed (.ofList [(⟨"", 0⟩, 1)]) false ∈ (Session.start ()).written first.2 :=
    (Session.mem_written_of_isGroup calls_first rfl).2 (by simp)
  have hresumed : .sought (.ofList [(⟨"", 0⟩, 0)]) true ∈ (Session.start ()).written first.2 :=
    (Session.mem_written_of_isGroup calls_first rfl).2 (by simp)
  obtain ⟨⟨-, -, -, htracker, -⟩, hredelivered⟩ := refused_commit_leaves_no_trace rfl hrefused hresumed
  obtain ⟨summary, ledger, hagain, hfresh, hcommitted, -, hsame⟩ :=
    hredelivered (rfl : again.2 = _) (rfl : fresh.2 = _) repeats_again repeats_fresh rfl rfl
      fun offsets offsets' ok ok' hm hm' => by
        rw [Session.mem_written_of_isGroup calls_again rfl] at hm
        rw [Session.mem_written_of_isGroup calls_fresh rfl] at hm'
        simp only [List.mem_cons, Event.sought.injEq, reduceCtorEq, List.not_mem_nil, or_false] at hm hm'
        rw [hm.2, hm'.2]
  exact ⟨htracker, hcommitted, summary, ledger, congrArg Prod.fst hagain, congrArg Prod.fst hfresh, hsame⟩

end Refused

end Relay
