import Relay.Proofs.Accounts
import Relay.Proofs.Commits
import Relay.Proofs.Releasing

/-!
# Every record is accounted for once

At each moment of a dispatch a matched record is in one place: it is left (an attempt at it is in flight, or its
payload waits to be published), or it was counted as filtered out, published or abandoned. What is left has no
part in the ledger yet; the ledger lists the places of the batch, and a place is abandoned in it exactly if the
verdict on some record there gave it up.
-/

namespace Relay

/-- The verdict on some matched record at a place gave it up. -/
def GivenUp {σ : Type} (matched : List Routed) (s s' : Session σ) (place : Coordinates) : Prop :=
  ∃ stage slot a now reason r, .judged stage slot a now (.abandon reason) ∈ s.written s' ∧
    matched[slot]? = some r ∧ r.coordinates = place

/-- What concerns the consumer group is news. -/
theorem Session.filter_isGroup {σ : Type} {s s' : Session σ} {news : List Event} (h : s.Adds news s') :
    (s.written s').filter Event.isGroup = news.filter Event.isGroup := by
  obtain ⟨added, hj, rfl⟩ := h
  rw [Session.written_eq hj, List.filter_filter]
  refine List.filter_congr fun e _ => ?_
  cases e <;> rfl

/-- Where the consumer group was left alone before, it is only called to acknowledge. -/
theorem Dispatcher.Acknowledged.group {σ : Type} {level : ServiceLevel} {accepted sought : Bool}
    {s s' : Session σ} {c c' : Course σ} (h : Acknowledged level accepted sought c c') (hquiet : s.Quiet c.session)
    (hend : c'.session.Tells [] s') :
    (s.written s').filter Event.isGroup =
      call .sought (resumed level c'.ledger accepted) sought ++
        call .committed (Dispatcher.asked level s.tracker c'.ledger) accepted := by
  obtain ⟨old, hold, hgroup⟩ := hquiet
  have hsilent : old.filter Event.isGroup = [] :=
    List.filter_eq_nil_iff.2 fun e he => by simp [hgroup e he]
  rw [Session.filter_isGroup (hold.adds.trans (h.adds.trans hend.adds)), List.filter_append, hsilent,
    List.append_nil, List.nil_append, h.ledger, ← hold.tracker]
  refine List.filter_eq_self.2 fun e he => ?_
  rcases eq_of_mem_calls he with rfl | rfl <;> rfl

theorem isGroup_of_sign {e : Event} {x : Stage × Nat × Sign} (h : e.sign = some x) : e.isGroup = false := by
  cases e <;> first | rfl | simp [Event.sign] at h

/-- The books of a batch of which the records at some places are left. -/
structure Reckoned {σ : Type} (subscribers : List Subscriber) (batch : Batch) (s : Session σ)
    (left : List Coordinates) (c : Course σ) : Prop where
  history : s.Quiet c.session
  matched : c.summary.matched = (Matching.ofRecords subscribers batch.records).matched.length
  unmatched : c.summary.unmatched = (Matching.ofRecords subscribers batch.records).unmatched.length
  undecodable : c.summary.undecodable = batch.errors.length
  /-- A matched record is left, or it is counted once. -/
  balance : c.summary.matched =
    left.length + (c.summary.filtered + c.summary.published + c.summary.abandoned)
  listed : ∀ place, c.ledger.status place ≠ none → place ∈ batch.places
  covered : ∀ place ∈ batch.places, c.ledger.status place ≠ none ∨ place ∈ left
  abandoned : ∀ place, c.ledger.status place = some .abandoned ↔
    GivenUp (Matching.ofRecords subscribers batch.records).matched s c.session place

namespace Reckoned

variable {σ : Type} {subscribers : List Subscriber} {batch : Batch} {s s₁ s' : Session σ}
  {left left' : List Coordinates} {c c' : Course σ} {place : Coordinates} {news : List Event}

theorem perm (h : Reckoned subscribers batch s left c) (hp : left.Perm left') :
    Reckoned subscribers batch s left' c :=
  { h with
    balance := hp.length_eq ▸ h.balance
    covered := fun place hm => (h.covered place hm).imp_right hp.mem_iff.1 }

/-- Who was given up before some news is given up after them; the news add the verdicts that they hold. -/
theorem givenUp_adds {matched : List Routed} {old : List Event} (hold : s.Adds old s₁) (ht : s₁.Adds news s') :
    GivenUp matched s s' place ↔ GivenUp matched s s₁ place ∨
      ∃ stage slot a now reason r, .judged stage slot a now (.abandon reason) ∈ news ∧
        matched[slot]? = some r ∧ r.coordinates = place := by
  have hmem : ∀ e, e.isNews = true → (e ∈ s.written s' ↔ e ∈ s.written s₁ ∨ e ∈ news) := by
    intro e he
    rw [Session.mem_written_iff (hold.trans ht) he, Session.mem_written_iff hold he, List.mem_append, or_comm]
  constructor
  · rintro ⟨stage, slot, a, now, reason, r, he, hr⟩
    rcases (hmem _ rfl).1 he with he | he
    · exact .inl ⟨stage, slot, a, now, reason, r, he, hr⟩
    · exact .inr ⟨stage, slot, a, now, reason, r, he, hr⟩
  · rintro (⟨stage, slot, a, now, reason, r, he, hr⟩ | ⟨stage, slot, a, now, reason, r, he, hr⟩)
    · exact ⟨stage, slot, a, now, reason, r, (hmem _ rfl).2 (.inl he), hr⟩
    · exact ⟨stage, slot, a, now, reason, r, (hmem _ rfl).2 (.inr he), hr⟩

/-- News that give no record up change nothing. -/
theorem tells (h : Reckoned subscribers batch s left c) (ht : c.Tells news c')
    (hgroup : ∀ e ∈ news, e.isGroup = false)
    (hn : ∀ stage slot a now reason, .judged stage slot a now (.abandon reason) ∉ news) :
    Reckoned subscribers batch s left c' := by
  have hhistory := h.history
  obtain ⟨old, hold, -⟩ := h.history
  refine ⟨hhistory.tells ht.session hgroup, ?_, ?_, ?_, ?_, ?_, ?_, fun place => ?_⟩
  · rw [ht.summary]
    exact h.matched
  · rw [ht.summary]
    exact h.unmatched
  · rw [ht.summary]
    exact h.undecodable
  · rw [ht.summary]
    exact h.balance
  · rw [ht.ledger]
    exact h.listed
  · rw [ht.ledger]
    exact h.covered
  · rw [ht.ledger, h.abandoned, givenUp_adds hold.adds ht.session.adds]
    refine ⟨.inl, fun hg => hg.resolve_right ?_⟩
    rintro ⟨stage, slot, a, now, reason, -, he, -⟩
    exact hn stage slot a now reason he

theorem quiet (h : Reckoned subscribers batch s left c) (ht : c.Tells [] c') :
    Reckoned subscribers batch s left c' := h.tells ht (by simp) (by simp)

theorem shows {e : Event} {stage : Stage} {slot : Nat} {sign : Sign}
    (h : Reckoned subscribers batch s left c) (ht : c.Tells [e] c') (he : e.sign = some (stage, slot, sign))
    (hg : sign.gaveUp = false) : Reckoned subscribers batch s left c' := by
  refine h.tells ht (by simpa using isGroup_of_sign he) ?_
  intro stage slot a now reason hm
  obtain rfl := List.mem_singleton.1 hm
  obtain ⟨-, -, rfl⟩ := Prod.mk.inj (Option.some.inj he)
  simp [Sign.gaveUp] at hg

theorem collect (h : Reckoned subscribers batch s left c) (m : Mapped) :
    Reckoned subscribers batch s left (c.collect m) :=
  ⟨h.history, h.matched, h.unmatched, h.undecodable, h.balance, h.listed, h.covered, h.abandoned⟩

/-- A record whose status is reported is counted once more, and is no longer left. -/
theorem report {status : Status} (h : Reckoned subscribers batch s (place :: left) c)
    (hplace : place ∈ batch.places) (hhistory : s.Quiet c'.session)
    (hledger : c'.ledger = c.ledger.report place status)
    (hcounts : c'.summary.matched = c.summary.matched ∧ c'.summary.unmatched = c.summary.unmatched ∧
      c'.summary.undecodable = c.summary.undecodable ∧
      c'.summary.filtered + c'.summary.published + c'.summary.abandoned =
        c.summary.filtered + c.summary.published + c.summary.abandoned + 1)
    (hgiven : ∀ q, GivenUp (Matching.ofRecords subscribers batch.records).matched s c'.session q ↔
      status = .abandoned ∧ q = place ∨
        GivenUp (Matching.ofRecords subscribers batch.records).matched s c.session q) :
    Reckoned subscribers batch s left c' := by
  obtain ⟨hmatched, hunmatched, hundecodable, hcount⟩ := hcounts
  have hbalance := h.balance
  rw [List.length_cons] at hbalance
  have hstatus : ∀ q, c'.ledger.status q =
      if q = place then some ((c.ledger.status place).elim status (·.revise status))
      else c.ledger.status q := by
    intro q
    rw [hledger, Ledger.status_report]
  refine ⟨hhistory, hmatched.trans h.matched, hunmatched.trans h.unmatched,
    hundecodable.trans h.undecodable, by omega, fun q hq => ?_, fun q hq => ?_, fun q => ?_⟩
  · rw [hstatus] at hq
    split at hq
    · next heq => exact heq ▸ hplace
    · exact h.listed q hq
  · rw [hstatus]
    split
    · exact .inl (by simp)
    · next hne => exact (h.covered q hq).imp_right fun hm => (List.mem_cons.1 hm).resolve_left hne
  · rw [hstatus, hgiven, ← h.abandoned]
    split
    · next heq =>
      -- abandonment stays, and nothing but the report abandons
      subst heq
      cases c.ledger.status q with
      | none => simp
      | some old => cases old <;> cases status <;> simp [Status.revise]
    · next hne => simp [hne]

theorem settle {summary : Summary} (h : Reckoned subscribers batch s (place :: left) c)
    (hplace : place ∈ batch.places)
    (hsummary : summary = { c.summary with filtered := c.summary.filtered + 1 } ∨
      summary = { c.summary with published := c.summary.published + 1 }) :
    Reckoned subscribers batch s left { c.settle place with summary } := by
  refine h.report hplace h.history rfl ?_ (by simp [Course.settle])
  rcases hsummary with rfl | rfl <;> exact ⟨rfl, rfl, rfl, by simp only []; omega⟩

/-- A record whose verdict gives it up is abandoned. -/
theorem abandon {stage : Stage} {slot now : Nat} {a : Attempt} {reason : AbandonReason} {r : Routed}
    (h : Reckoned subscribers batch s (r.coordinates :: left) c)
    (ht : c.Tells [.judged stage slot a now (.abandon reason)] c')
    (hr : (Matching.ofRecords subscribers batch.records).matched[slot]? = some r) :
    Reckoned subscribers batch s left (c'.abandon r.coordinates) := by
  have hhistory := h.history
  obtain ⟨old, hold, -⟩ := h.history
  have hplace : r.coordinates ∈ batch.places := coordinates_mem_places (List.mem_of_getElem? hr)
  have hledger : (c'.abandon r.coordinates).ledger = c.ledger.report r.coordinates .abandoned := by
    rw [← ht.ledger]
    rfl
  refine h.report hplace (hhistory.tells ht.session (by simp [Event.isGroup])) hledger ?_ fun q => ?_
  · simp only [Course.abandon, ht.summary, true_and]
    omega
  · refine (givenUp_adds hold.adds ht.session.adds).trans ?_
    rw [or_comm]
    refine or_congr_left ⟨?_, ?_⟩
    · rintro ⟨_, slot', _, _, _, r', he, hr', rfl⟩
      obtain ⟨-, rfl, -⟩ := Event.judged.inj (List.mem_singleton.1 he)
      rw [Option.some.inj (hr'.symm.trans hr)]
      exact ⟨rfl, rfl⟩
    · rintro ⟨-, rfl⟩
      exact ⟨stage, slot, a, now, reason, r, List.mem_singleton.2 rfl, hr, rfl⟩

/-- Places of the batch may be settled once more. -/
theorem settleAll (h : Reckoned subscribers batch s left c) {places : List Coordinates}
    (hplaces : ∀ place ∈ places, place ∈ batch.places) :
    Reckoned subscribers batch s left (c.settleAll places) ∧
      ∀ place ∈ places, (c.settleAll places).ledger.status place ≠ none := by
  have hstatus : ∀ q, (c.settleAll places).ledger.status q =
      if q ∈ places then some ((c.ledger.status q).getD .settled) else c.ledger.status q := by
    intro q
    rw [Course.settleAll_eq]
    exact Ledger.status_foldl_settle ..
  have hsession : (c.settleAll places).session = c.session := by rw [Course.settleAll_eq]
  have hsummary : (c.settleAll places).summary = c.summary := by rw [Course.settleAll_eq]
  refine ⟨⟨hsession ▸ h.history, ?_, ?_, ?_, ?_, fun q hq => ?_, fun q hq => ?_, fun q => ?_⟩, fun q hq => ?_⟩
  · rw [hsummary]
    exact h.matched
  · rw [hsummary]
    exact h.unmatched
  · rw [hsummary]
    exact h.undecodable
  · rw [hsummary]
    exact h.balance
  · rw [hstatus] at hq
    split at hq
    · next hm => exact hplaces q hm
    · exact h.listed q hq
  · rw [hstatus]
    split
    · exact .inl (by simp)
    · exact h.covered q hq
  · rw [hstatus, hsession, ← h.abandoned]
    split
    · cases c.ledger.status q <;> simp
    · exact Iff.rfl
  · rw [hstatus, if_pos hq]
    simp

end Reckoned

/-! ## The two stages -/

section Stages

variable {σ : Type} {w : World σ} {d : Dispatcher} {registry : Registry} {subscribers : List Subscriber}
  {batch : Batch} {s : Session σ} {c c' : Course σ}

/-- While records are filtered and mapped, those with an attempt and those with a payload are left. -/
def FilterReckoned (subscribers : List Subscriber) (batch : Batch) (s : Session σ)
    (ts : List (Task Routed Job)) (c : Course σ) : Prop :=
  Reckoned subscribers batch s (ts.map (·.item.coordinates) ++ c.mapped.map (·.routed.coordinates)) c ∧
    c.summary.published = 0

/-- While payloads are published, those with an attempt are left. -/
def PublishReckoned (subscribers : List Subscriber) (batch : Batch) (s : Session σ)
    (ts : List (Task Mapped Shipment)) (c : Course σ) : Prop :=
  Reckoned subscribers batch s (ts.map (·.item.routed.coordinates)) c

/-- A record that ends its chain is filtered out, or its payload waits to be published. -/
theorem FilterReckoned.landed {t : Task Routed Job} {ts : List (Task Routed Job)} {job : Job}
    (h : FilterReckoned subscribers batch s (t :: ts) c)
    (hplaced : (Matching.ofRecords subscribers batch.records).matched[t.slot]? = some t.item)
    (hl : Dispatcher.harvest w t.item job c = (.done, c')) : FilterReckoned subscribers batch s ts c' := by
  obtain ⟨outcome, c₁, htell, rfl⟩ := Dispatcher.harvest_done hl
  obtain ⟨h, hpublished⟩ := h
  have h := h.shows htell rfl rfl
  rw [← htell.mapped] at h
  rw [← htell.summary] at hpublished
  split
  · refine ⟨(h.collect _).perm ?_, hpublished⟩
    exact List.perm_middle.symm
  · have hplace := coordinates_mem_places (List.mem_of_getElem? hplaced)
    exact ⟨h.settle hplace (.inl rfl), hpublished⟩

theorem FilterReckoned.frames (w : World σ) (d : Dispatcher) (subscribers : List Subscriber) (batch : Batch)
    (s : Session σ) :
    Chronicle.Frames (Dispatcher.filterMap w d)
      (FilterChronicle w d (Matching.ofRecords subscribers batch.records).matched s)
      (FilterReckoned subscribers batch s) where
  perm hp h := ⟨h.1.perm ((hp.map _).append_right _), h.2⟩
  quiet _ h htell := by
    refine ⟨?_, by rw [htell.summary]; exact h.2⟩
    rw [htell.mapped]
    exact h.1.quiet htell
  moves _ h htell he hg _ _ := by
    refine ⟨?_, by rw [htell.summary]; exact h.2⟩
    rw [htell.mapped]
    exact h.1.shows htell he hg
  begins h _ := h
  landed _ hc h hl := h.landed (hc.placed _ List.mem_cons_self) hl
  abandoned _ hc h htell := by
    refine ⟨?_, (congrArg Summary.published htell.summary).trans h.2⟩
    have habandon := h.1.abandon htell (hc.placed _ List.mem_cons_self)
    rw [← htell.mapped] at habandon
    exact habandon

theorem PublishReckoned.frames (w : World σ) (d : Dispatcher) (registry : Registry)
    (subscribers : List Subscriber) (batch : Batch) (s s₁ : Session σ) (slots : List Nat) :
    Chronicle.Frames (Dispatcher.publish w d registry)
      (PublishChronicle w d registry
        (d.Hands (Matching.ofRecords subscribers batch.records).matched s s₁) slots s₁)
      (PublishReckoned subscribers batch s) where
  perm hp h := Reckoned.perm h (hp.map _)
  quiet _ h htell := Reckoned.quiet h htell
  moves _ h htell he hg _ _ := Reckoned.shows h htell he hg
  begins h _ := h
  landed _ hc h hl := by
    obtain ⟨c₁, htell, rfl⟩ := Dispatcher.confirm_done hl
    obtain ⟨-, -, hreleased⟩ := hc.placed _ List.mem_cons_self
    have hplace := coordinates_mem_places (List.mem_of_getElem? hreleased.placed)
    exact (Reckoned.shows h htell rfl rfl).settle hplace (.inr rfl)
  abandoned _ hc h htell := by
    obtain ⟨-, hslot, hreleased⟩ := hc.placed _ List.mem_cons_self
    have hplaced := hreleased.placed
    rw [hslot] at hplaced
    exact Reckoned.abandon h htell hplaced

/-- When a batch is matched, its matched records are left. -/
theorem FilterReckoned.begins (h : Dispatcher.Begins subscribers batch s c) :
    FilterReckoned subscribers batch s
      ((Matching.ofRecords subscribers batch.records).matched.zipIdx.map
        (fun x => ⟨x.2, x.1, .first s.now, .resting 0⟩) ++ []) c := by
  have hleft : ∀ matched : List Routed,
      (matched.zipIdx.map (fun x => ⟨x.2, x.1, .first s.now, .resting 0⟩) ++ [] :
            List (Task Routed Job)).map (·.item.coordinates) ++
          c.mapped.map (·.routed.coordinates) =
        matched.map (·.coordinates) := by
    intro matched
    rw [h.mapped, List.map_nil, List.append_nil, List.append_nil, List.map_map]
    conv_rhs => rw [← List.zipIdx_map_fst 0 matched]
    rw [List.map_map]
    rfl
  have hstatus := h.status_eq
  refine ⟨?_, by rw [h.summary]; rfl⟩
  rw [hleft]
  refine ⟨⟨[], h.session, by simp⟩, by rw [h.summary], by rw [h.summary], by rw [h.summary], ?_,
    fun place hp => ?_, fun place hp => ?_, fun place => ?_⟩
  · rw [h.summary, List.length_map]
    rfl
  · rw [hstatus] at hp
    split at hp
    · next hi => exact mem_places_of_mem_idle hi
    · exact absurd rfl hp
  · rw [hstatus]
    rcases mem_idle_or_matched subscribers hp with hi | hm
    · exact .inl (by simp [hi])
    · exact .inr hm
  · rw [hstatus]
    refine iff_of_false (by split <;> simp) ?_
    rintro ⟨stage, slot, a, now, reason, r, he, -⟩
    simpa using (Session.mem_written_iff h.session.adds rfl).1 he

/-- When the chains are done, the records with a payload are left. -/
theorem FilterReckoned.published (h : FilterReckoned subscribers batch s [] c) (floor : Nat) :
    PublishReckoned subscribers batch s
      (((Dispatcher.sorted c.mapped.reverse).map fun m => (m, m.slot)).map
        (fun x => ⟨x.2, x.1, .first floor, .resting 0⟩) ++ []) c := by
  have hperm := Dispatcher.sorted_perm c.mapped
  refine Reckoned.perm h.1 ?_
  rw [List.append_nil, List.map_map, List.map_map]
  exact (hperm.map _).symm

theorem reckoned_dispatch {summary : Summary} {ledger : Ledger} {s' : Session σ}
    (h : d.dispatch w registry batch s = (.done summary ledger, s')) :
    ∃ c left, Dispatcher.conclude w d c = (.done summary ledger, s') ∧
      Reckoned (registry.subscribers d.pipeline) batch s left c ∧
      (∀ place ∈ left, c.ledger.status place ≠ none) ∧
      (d.checkpoint = true → left = []) ∧ (d.checkpoint = false → c.summary.published = 0) := by
  obtain ⟨c, c₁, hconclude, hreleasing, hfiltered, hc⟩ := (dispatch_framed batch s rfl
    (FilterReckoned.frames w d (registry.subscribers d.pipeline) batch s)
    (fun slots s₁ => PublishReckoned.frames w d registry (registry.subscribers d.pipeline) batch s s₁ slots)
    (fun hplaced hR htell =>
      (Reckoned.quiet hR htell).settle (coordinates_mem_places (List.mem_of_getElem? hplaced)) (.inr rfl))
    (fun _ hbegins => FilterReckoned.begins hbegins) (fun c hR => hR.published c.session.now)).2 _ _ _ h
  cases hcheckpoint : d.checkpoint with
  | true =>
    simp only [hcheckpoint, if_true] at hc
    exact ⟨c, [], hconclude, hc, by simp, by simp, by simp⟩
  | false =>
    simp only [hcheckpoint] at hc
    have hperm := Dispatcher.sorted_perm c₁.mapped
    -- what is left is settled at the end, though nothing counts it
    have hplaces : ∀ place ∈ (Dispatcher.sorted c₁.mapped.reverse).map (·.routed.coordinates),
        place ∈ batch.places := by
      intro place hm
      obtain ⟨m, hitem, rfl⟩ := List.mem_map.1 hm
      have hreleased := hreleasing.released m (hperm.mem_iff.1 hitem)
      exact coordinates_mem_places (List.mem_of_getElem? hreleased.placed)
    obtain ⟨hreckoned, hsettled⟩ := hfiltered.1.settleAll hplaces
    obtain rfl : c = _ := by simpa using hc
    refine ⟨_, _, hconclude, hreckoned, fun place hm => hsettled place ?_, by simp, fun _ => ?_⟩
    · exact (hperm.map _).mem_iff.2 (by simpa using hm)
    · rw [Course.settleAll_eq]
      exact hfiltered.2

/-- The books of a batch that was acknowledged are balanced. -/
structure Balanced {σ : Type} (d : Dispatcher) (registry : Registry) (batch : Batch) (s s' : Session σ)
    (summary : Summary) (ledger : Ledger) : Prop where
  matched : summary.matched = (Matching.ofRecords (registry.subscribers d.pipeline) batch.records).matched.length
  unmatched : summary.unmatched =
    (Matching.ofRecords (registry.subscribers d.pipeline) batch.records).unmatched.length
  undecodable : summary.undecodable = batch.errors.length
  /-- A matched record is counted once, if records are republished. -/
  balance : d.checkpoint = true → summary.matched = summary.filtered + summary.published + summary.abandoned
  unpublished : d.checkpoint = false → summary.published = 0
  listed : ∀ place, ledger.status place ≠ none ↔ place ∈ batch.places
  abandoned : ∀ place, ledger.status place = some .abandoned ↔
    GivenUp (Matching.ofRecords (registry.subscribers d.pipeline) batch.records).matched s s' place

theorem balanced_dispatch {summary : Summary} {ledger : Ledger} {s' : Session σ}
    (h : d.dispatch w registry batch s = (.done summary ledger, s')) :
    Balanced d registry batch s s' summary ledger := by
  obtain ⟨c, left, hconclude, hreckoned, hleft, hnone, hpublished⟩ := reckoned_dispatch h
  obtain ⟨accepted, sought, hack⟩ := Dispatcher.acknowledge_spec w d.level c
  simp only [Dispatcher.conclude, Prod.mk.injEq, Dispatched.done.injEq] at hconclude
  obtain ⟨⟨rfl, rfl⟩, rfl⟩ := hconclude
  obtain ⟨old, hold, -⟩ := hreckoned.history
  have hend := hack.adds.trans (Session.tells_observe "batch_dispatch_duration_ms" [] _).adds
  rw [hack.summary, hack.ledger]
  refine ⟨hreckoned.matched, hreckoned.unmatched, hreckoned.undecodable, fun hcheckpoint => ?_, hpublished,
    fun place => ⟨hreckoned.listed place, fun hm => ?_⟩, fun place => ?_⟩
  · have hbalance := hreckoned.balance
    rw [hnone hcheckpoint, List.length_nil, Nat.zero_add] at hbalance
    exact hbalance
  · rcases hreckoned.covered place hm with hne | hm
    · exact hne
    · exact hleft place hm
  · -- the calls to the consumer group are no verdicts
    rw [hreckoned.abandoned]
    refine Iff.symm ((Reckoned.givenUp_adds hold.adds hend).trans ⟨fun hg => hg.resolve_right ?_, .inl⟩)
    rintro ⟨stage, slot, a, now, reason, r, he, -⟩
    rcases Dispatcher.eq_of_mem_calls he with he | he
    · simp at he
    · simp at he

theorem group_of_dispatch {summary : Summary} {ledger : Ledger} {s' : Session σ}
    (h : d.dispatch w registry batch s = (.done summary ledger, s')) :
    ∃ accepted sought, (s.written s').filter Event.isGroup =
      Dispatcher.call .sought (Dispatcher.resumed d.level ledger accepted) sought ++
        Dispatcher.call .committed (Dispatcher.asked d.level s.tracker ledger) accepted := by
  obtain ⟨c, left, hconclude, hreckoned, -⟩ := reckoned_dispatch h
  obtain ⟨accepted, sought, hack⟩ := Dispatcher.acknowledge_spec w d.level c
  simp only [Dispatcher.conclude, Prod.mk.injEq, Dispatched.done.injEq] at hconclude
  obtain ⟨⟨-, rfl⟩, rfl⟩ := hconclude
  exact ⟨accepted, sought, hack.group hreckoned.history (Session.tells_observe ..)⟩

end Stages

/-- A batch that a dispatch acknowledges is accounted for. Each record is counted once: as matched or unmatched,
and if it is matched and records are republished, as filtered out, published or abandoned; without republishing
none counts as published. The ledger lists the known places of the batch and no other; a place is abandoned in it
exactly if the verdict on some record there gave it up, and settled otherwise. What is asked of the consumer group
is what the service level makes of this ledger. -/
theorem dispatch_accounts {σ : Type} {w : World σ} {d : Dispatcher} {registry : Registry} {batch : Batch}
    {s s' : Session σ} {summary : Summary} {ledger : Ledger}
    (h : d.dispatch w registry batch s = (.done summary ledger, s')) :
    let matched := (Matching.ofRecords (registry.subscribers d.pipeline) batch.records).matched
    summary.matched = matched.length ∧
      summary.matched + summary.unmatched = batch.records.length ∧
      summary.undecodable = batch.errors.length ∧
      (d.checkpoint = true → summary.matched = summary.filtered + summary.published + summary.abandoned) ∧
      (d.checkpoint = false → summary.published = 0) ∧
      (∀ place, ledger.status place ≠ none ↔
        place ∈ batch.errors.filterMap (·.coordinates?) ++ batch.records.map (·.coordinates)) ∧
      (∀ place, ledger.status place = some .abandoned ↔
        ∃ stage slot a now reason r, .judged stage slot a now (.abandon reason) ∈ s.written s' ∧
          matched[slot]? = some r ∧ r.coordinates = place) ∧
      ∃ accepted sought, (s.written s').filter Event.isGroup =
        Dispatcher.call .sought (Dispatcher.resumed d.level ledger accepted) sought ++
          Dispatcher.call .committed (Dispatcher.asked d.level s.tracker ledger) accepted := by
  intro matched
  have hbalanced := balanced_dispatch h
  have hmatched := hbalanced.matched
  have hunmatched := hbalanced.unmatched
  have hlength := Matching.length_ofRecords (registry.subscribers d.pipeline) batch.records
  exact ⟨hmatched, by omega, hbalanced.undecodable, hbalanced.balance, hbalanced.unpublished, hbalanced.listed,
    hbalanced.abandoned, group_of_dispatch h⟩

namespace Mishap

/-- Surroundings where the chain gives the first record up. -/
def world : World Unit :=
  { Orders.oldest with
    finish := fun job s => (if job.slot = 0 then .error (.giveUp "") else .ok ⟨true, ⟨.null, false⟩⟩, s) }

/-- Two records, and a message that cannot be decoded. -/
def batch : Batch := { Orders.batch with errors := [⟨some ⟨"", 0⟩, some 2⟩] }

/-- The first record is given up and the second one published; the ledger lists both and the third message. -/
theorem accounted :
    let s' := (Orders.dispatcher.dispatch world Orders.registry batch (.start ())).2
    ∃ ledger,
      Orders.dispatcher.dispatch world Orders.registry batch (.start ()) =
        (.done ⟨2, 0, 1, 0, 1, 1, .empty, .ofList [(⟨"", 0⟩, 0)]⟩ ledger, s') ∧
      (∀ place, ledger.status place ≠ none ↔
        place ∈ [⟨⟨"", 0⟩, 2⟩, ⟨⟨"", 0⟩, 0⟩, (⟨⟨"", 0⟩, 1⟩ : Coordinates)]) ∧
      ∃ stage slot a now reason,
        .judged stage slot a now (.abandon reason) ∈ (Session.start ()).written s' := by
  intro s'
  have hdone : Orders.dispatcher.dispatch world Orders.registry batch (.start ()) =
      (.done ⟨2, 0, 1, 0, 1, 1, .empty, .ofList [(⟨"", 0⟩, 0)]⟩
        ⟨.ofList [(⟨"", 0⟩, .ofList [(0, .abandoned), (1, .settled), (2, .settled)])]⟩, s') :=
    Prod.ext (by cbv) rfl
  obtain ⟨-, -, -, -, -, hlisted, habandoned, -⟩ := dispatch_accounts hdone
  obtain ⟨stage, slot, a, now, reason, r, he, -⟩ := (habandoned ⟨⟨"", 0⟩, 0⟩).1 (by cbv)
  exact ⟨_, hdone, hlisted, stage, slot, a, now, reason, he⟩

end Mishap

end Relay
