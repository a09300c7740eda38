import Relay.Proofs.Releasing

/-!
# First attempts come in source order

Chains end in any order, and retries mix the records of a batch further. Publishing restores the order of the source:
the first attempts to hand the messages of a batch over are made in the order of partitions and offsets, over all
records whose chains let them pass.
-/

namespace Relay

/-- The place of the record whose message an event first tries to hand over. -/
def Event.opening? : Event → Option Nat
  | .unsent slot times _ => if times = 0 then some slot else none
  | .sent x _ => if x.times = 0 then some x.slot else none
  | _ => none

/-- The place of the record that an event lets pass its chain. -/
def Event.passed? : Event → Option Nat
  | .processed job (.ok outcome) => if outcome.passed then some job.slot else none
  | _ => none

/-- The places of the records whose messages were first handed over between two sessions, the earliest first. -/
def Session.openings {σ : Type} (s s' : Session σ) : List Nat :=
  ((s.written s').filterMap Event.opening?).reverse

/-- The places of the records that passed their chains between two sessions, the earliest first. -/
def Session.passed {σ : Type} (s s' : Session σ) : List Nat :=
  ((s.written s').filterMap Event.passed?).reverse

section Events

variable {σ : Type} {s s' s'' : Session σ} {old news : List Event} {e : Event}

theorem Event.opening?_of_not_isNews (h : e.isNews = false) : e.opening? = none := by
  cases e <;> first | rfl | simp [Event.isNews] at h

theorem Event.passed?_of_not_isNews (h : e.isNews = false) : e.passed? = none := by
  cases e <;> first | rfl | simp [Event.isNews] at h

theorem Session.openings_adds (h : s.Adds old s') (h' : s'.Adds news s'') :
    s.openings s'' = s.openings s' ++ (news.filterMap Event.opening?).reverse := by
  rw [openings, filterMap_written (fun _ => Event.opening?_of_not_isNews) h h', List.reverse_append]
  rfl

theorem Session.passed_adds (h : s.Adds old s') (h' : s'.Adds news s'') :
    s.passed s'' = s.passed s' ++ (news.filterMap Event.passed?).reverse := by
  rw [passed, filterMap_written (fun _ => Event.passed?_of_not_isNews) h h', List.reverse_append]
  rfl

/-- What says nothing of a record neither opens nor passes one. -/
theorem Event.opening?_of_sign (h : e.sign = none) : e.opening? = none := by
  cases e with
  | sent x result => cases result <;> simp [Event.sign] at h
  | unsent => simp [Event.sign] at h
  | _ => rfl

theorem Event.passed?_of_sign (h : e.sign = none) : e.passed? = none := by
  cases e with
  | processed job result => cases result <;> simp [Event.sign] at h
  | _ => rfl

/-- A record that cannot be handed over was attempted all the same. -/
theorem Dispatcher.Unsent.opening? {d : Dispatcher} {slot : Nat} {m : Mapped} {a : Attempt} {e : PublishError}
    {news : Event} (h : d.Unsent slot m a e news) :
    news.opening? = (if a.times = 0 then some slot else none) ∧ news.passed? = none := by
  rcases h with rfl | ⟨x, ⟨rfl, htimes, -⟩, rfl⟩
  · exact ⟨rfl, rfl⟩
  · rw [← htimes]
    exact ⟨rfl, rfl⟩

end Events

/-! ## Filtering and mapping -/

/-- The collected payloads are those of the records that passed their chains, and none is handed over yet. -/
structure Gathered {σ : Type} (s : Session σ) (c : Course σ) : Prop where
  told : ∃ old, s.Tells old c.session
  opened : s.openings c.session = []
  passed : s.passed c.session = c.mapped.reverse.map (·.slot)

namespace Gathered

variable {σ : Type} {s : Session σ} {c c' : Course σ} {e : Event}

theorem start (h : s.Tells [] c.session) (hmapped : c.mapped = []) : Gathered s c := by
  obtain ⟨added, hj, hnews⟩ := h.adds
  have hnone : ∀ {f : Event → Option Nat}, (∀ e, e.isNews = false → f e = none) →
      (s.written c.session).filterMap f = [] := by
    intro f hf
    rw [Session.written_eq hj, filterMap_of_isNews hf, hnews]
    rfl
  refine ⟨⟨[], h⟩, ?_, ?_⟩
  · rw [Session.openings, hnone fun _ => Event.opening?_of_not_isNews]
    rfl
  · rw [Session.passed, hnone fun _ => Event.passed?_of_not_isNews, hmapped]
    rfl

theorem quiet (h : Gathered s c) (ht : c.Tells [] c') : Gathered s c' := by
  obtain ⟨old, hold⟩ := h.told
  refine ⟨⟨_, hold.trans ht.session⟩, ?_, ?_⟩
  · rw [Session.openings_adds hold.adds ht.session.adds, h.opened]
    rfl
  · rw [Session.passed_adds hold.adds ht.session.adds, h.passed, ht.mapped]
    simp

/-- An event that neither opens nor passes a record. -/
theorem tells (h : Gathered s c) (ht : c.Tells [e] c') (hopening : e.opening? = none)
    (hpassed : e.passed? = none) : Gathered s c' := by
  obtain ⟨old, hold⟩ := h.told
  refine ⟨⟨_, hold.trans ht.session⟩, ?_, ?_⟩
  · rw [Session.openings_adds hold.adds ht.session.adds, h.opened, List.filterMap_cons_none hopening]
    rfl
  · rw [Session.passed_adds hold.adds ht.session.adds, h.passed, ht.mapped, List.filterMap_cons_none hpassed]
    simp

theorem landed {w : World σ} {r : Routed} {job : Job} (h : Gathered s c)
    (hl : Dispatcher.harvest w r job c = (.done, c')) : Gathered s c' := by
  obtain ⟨outcome, c₁, htell, rfl⟩ := Dispatcher.harvest_done hl
  obtain ⟨old, hold⟩ := h.told
  have hopened := Session.openings_adds hold.adds htell.session.adds
  have hpassed := Session.passed_adds hold.adds htell.session.adds
  rw [h.opened] at hopened
  rw [h.passed] at hpassed
  split
  · next hpass =>
    refine ⟨⟨_, hold.trans htell.session⟩, hopened, ?_⟩
    simp [hpassed, Event.passed?, hpass, Course.collect, htell.mapped]
  · next hpass =>
    refine ⟨⟨_, hold.trans htell.session⟩, hopened, ?_⟩
    simp [hpassed, Event.passed?, hpass, Course.filterOut, Course.settle, htell.mapped]

theorem keeps (w : World σ) (d : Dispatcher) (s : Session σ) :
    (Dispatcher.filterMap w d).Keeps d.budget (fun _ c => Gathered s c) (fun _ c => Gathered s c) where
  perm _ h := h
  quiet ht h := h.quiet ht
  launched _ h hl := by
    obtain ⟨-, htell⟩ := Dispatcher.submit_flying hl
    exact h.tells htell rfl rfl
  unlaunched _ _ hl := absurd hl Dispatcher.submit_ne_failed
  barred _ h hl := by
    obtain ⟨-, htell⟩ := Dispatcher.submit_stopped hl
    exact h.tells htell rfl rfl
  landed _ h hl := h.landed hl
  crashed _ h hl := by
    obtain ⟨e, -, htell⟩ := Dispatcher.harvest_failed hl
    exact h.tells htell rfl rfl
  broken _ _ hl := absurd hl Dispatcher.harvest_ne_stopped
  retried _ _ h _ ht := h.tells ht rfl rfl
  abandoned _ h _ ht := by
    have h := h.tells ht rfl rfl
    exact ⟨h.told, h.opened, h.passed⟩

end Gathered

/-! ## Publishing -/

/-- Of the records that passed their chains, all but the last ones of an order were handed over, in this order. -/
structure Handing {σ : Type} (s : Session σ) (order rest : List Nat) (c : Course σ) : Prop where
  told : ∃ old, s.Tells old c.session
  opened : s.openings c.session ++ rest = order
  passed : order.Perm (s.passed c.session)

namespace Handing

variable {σ : Type} {s : Session σ} {order rest : List Nat} {slot : Nat} {c c' : Course σ} {e : Event}

theorem quiet (h : Handing s order rest c) (ht : c.session.Tells [] c'.session) : Handing s order rest c' := by
  obtain ⟨old, hold⟩ := h.told
  refine ⟨⟨_, hold.trans ht⟩, ?_, ?_⟩
  · rw [Session.openings_adds hold.adds ht.adds]
    simpa using h.opened
  · rw [Session.passed_adds hold.adds ht.adds]
    simpa using h.passed

theorem tells (h : Handing s order rest c) (ht : c.session.Tells [e] c'.session) (hopening : e.opening? = none)
    (hpassed : e.passed? = none) : Handing s order rest c' := by
  obtain ⟨old, hold⟩ := h.told
  refine ⟨⟨_, hold.trans ht⟩, ?_, ?_⟩
  · rw [Session.openings_adds hold.adds ht.adds, List.filterMap_cons_none hopening]
    simpa using h.opened
  · rw [Session.passed_adds hold.adds ht.adds, List.filterMap_cons_none hpassed]
    simpa using h.passed

/-- The first record that is left is handed over. -/
theorem opens (h : Handing s order (slot :: rest) c) (ht : c.session.Tells [e] c'.session)
    (hopening : e.opening? = some slot) (hpassed : e.passed? = none) : Handing s order rest c' := by
  obtain ⟨old, hold⟩ := h.told
  refine ⟨⟨_, hold.trans ht⟩, ?_, ?_⟩
  · rw [Session.openings_adds hold.adds ht.adds, List.filterMap_cons_some hopening]
    simpa using h.opened
  · rw [Session.passed_adds hold.adds ht.adds, List.filterMap_cons_none hpassed]
    simpa using h.passed

end Handing

/-- Whatever comes of an attempt to hand a message over, it is the first one of its record or a later one. -/
theorem Dispatcher.send_opening {σ : Type} {w : World σ} {d : Dispatcher} {registry : Registry} {slot : Nat}
    {m : Mapped} {a : Attempt} {c c' : Course σ} {launch : Launch Shipment}
    (h : d.send w registry slot m a c = (launch, c')) :
    ∃ e, c.Tells [e] c' ∧ e.opening? = (if a.times = 0 then some slot else none) ∧ e.passed? = none := by
  cases launch with
  | flying x =>
    obtain ⟨⟨rfl, htimes, -⟩, htell⟩ := send_flying h
    exact ⟨_, htell, by rw [← htimes]; rfl, rfl⟩
  | failed giveUp =>
    obtain ⟨e, news, -, -, hunsent, htell⟩ := send_failed h
    exact ⟨news, htell, hunsent.opening?⟩
  | stopped e =>
    obtain ⟨cause, news, -, hunsent, htell⟩ := send_stopped h
    exact ⟨news, htell, hunsent.opening?⟩

/-- Attempts at rest are retries. -/
def Retrying {α τ : Type} (ts : List (Task α τ)) : Prop :=
  ∀ t ∈ ts, ∀ wake, t.phase = .resting wake → t.attempt.times ≠ 0

namespace Handing

variable {σ : Type} {w : World σ} {d : Dispatcher} {registry : Registry} {s : Session σ} {order rest : List Nat}
  {slot : Nat} {c c' : Course σ} {launch : Launch Shipment} {t : Task Mapped Shipment}
  {ts : List (Task Mapped Shipment)}

/-- The first attempt at a record is the opening of the first record that is left. -/
theorem first (h : Handing s order (slot :: rest) c) {m : Mapped} {now : Nat}
    (hl : d.send w registry slot m (.first now) c = (launch, c')) : Handing s order rest c' := by
  obtain ⟨e, htell, hopening, hpassed⟩ := Dispatcher.send_opening hl
  exact h.opens htell.session hopening hpassed

/-- A retry is no opening. -/
theorem again (h : Handing s order rest c) {m : Mapped} {a : Attempt} (hretry : a.times ≠ 0)
    (hl : d.send w registry slot m a c = (launch, c')) : Handing s order rest c' := by
  obtain ⟨e, htell, hopening, hpassed⟩ := Dispatcher.send_opening hl
  rw [if_neg hretry] at hopening
  exact h.tells htell.session hopening hpassed

theorem keeps (w : World σ) (d : Dispatcher) (registry : Registry) (s : Session σ) (order : List Nat) :
    (Dispatcher.publish w d registry).Keeps d.budget (fun ts c => Handing s order [] c ∧ Retrying ts)
      (fun _ c => ∃ rest, Handing s order rest c) where
  perm hp h := ⟨h.1, fun t ht => h.2 t (hp.mem_iff.2 ht)⟩
  quiet ht h := ⟨h.1.quiet ht.session, h.2⟩
  launched hp h hl := by
    obtain ⟨hretry, hretries⟩ := List.forall_mem_cons.1 h.2
    exact ⟨h.1.again (hretry _ hp) hl, List.forall_mem_cons.2 ⟨by simp, hretries⟩⟩
  unlaunched hp h hl := by
    obtain ⟨hretry, hretries⟩ := List.forall_mem_cons.1 h.2
    exact ⟨h.1.again (hretry _ hp) hl, List.forall_mem_cons.2 ⟨by simp, hretries⟩⟩
  barred hp h hl := by
    obtain ⟨hretry, -⟩ := List.forall_mem_cons.1 h.2
    exact ⟨[], h.1.again (hretry _ hp) hl⟩
  landed _ h hl := by
    obtain ⟨-, hretries⟩ := List.forall_mem_cons.1 h.2
    obtain ⟨c₁, htell, rfl⟩ := Dispatcher.confirm_done hl
    exact ⟨h.1.tells htell.session rfl rfl, hretries⟩
  crashed _ h hl := by
    obtain ⟨-, hretries⟩ := List.forall_mem_cons.1 h.2
    obtain ⟨e, -, -, htell⟩ := Dispatcher.confirm_failed hl
    exact ⟨h.1.tells htell.session rfl rfl, List.forall_mem_cons.2 ⟨by simp, hretries⟩⟩
  broken _ h hl := by
    obtain ⟨cause, -, htell⟩ := Dispatcher.confirm_stopped hl
    exact ⟨[], h.1.tells htell.session rfl rfl⟩
  retried wake _ h hd ht := by
    obtain ⟨-, hretries⟩ := List.forall_mem_cons.1 h.2
    obtain ⟨-, htimes, -⟩ := RetryPolicy.times_of_decide hd
    refine ⟨h.1.tells ht.session rfl rfl, List.forall_mem_cons.2 ⟨fun _ _ hzero => ?_, hretries⟩⟩
    rw [hzero] at htimes
    simp at htimes
  abandoned _ h _ ht := by
    obtain ⟨-, hretries⟩ := List.forall_mem_cons.1 h.2
    exact ⟨h.1.tells ht.session rfl rfl, hretries⟩

/-- While messages are first handed over, the items that are left are those of the order. -/
theorem starts (w : World σ) (d : Dispatcher) (registry : Registry) (s : Session σ) (order : List Nat) :
    (Dispatcher.publish w d registry).Starts d.awaitDelivery
      (fun items ts c => Handing s order (items.map (·.2)) c ∧ Retrying ts)
      (fun _ c => ∃ rest, Handing s order rest c) where
  quiet ht h := ⟨h.1.quiet ht.session, h.2⟩
  kept h hl hk := by
    obtain rfl := Dispatcher.awaitDelivery_kept hk
    exact ⟨h.1.first hl, List.forall_mem_append.2 ⟨h.2, by simp⟩⟩
  dropped h hl hk := by
    obtain ⟨c₂, htell, rfl⟩ := Dispatcher.awaitDelivery_dropped hk
    exact ⟨(h.1.first hl).quiet htell.session, h.2⟩
  failed h hl := ⟨h.1.first hl, List.forall_mem_append.2 ⟨h.2, by simp⟩⟩
  stopped h hl := ⟨_, h.1.first hl⟩

end Handing

/-! ## The whole dispatch -/

theorem Coordinates.le_trans {a b c : Coordinates} (h : a.le b = true) (h' : b.le c = true) : a.le c = true :=
  Std.TransCmp.isLE_trans h h'

theorem Coordinates.le_total (a b : Coordinates) : (a.le b || b.le a) = true := by
  have hswap : compare b a = (compare a b).swap := Std.OrientedOrd.eq_swap
  simp only [Coordinates.le, hswap]
  cases compare a b <;> rfl

/-- Whether places are in the order of their records in the source. -/
def InSourceOrder (matched : List Routed) (places : List Nat) : Prop :=
  places.Pairwise fun i j => ∀ a b, matched[i]? = some a → matched[j]? = some b →
    a.coordinates.le b.coordinates = true

section Order

variable {σ : Type} {matched : List Routed} {s s' : Session σ} {c : Course σ}

/-- Places can be brought into source order. -/
theorem exists_inSourceOrder (matched : List Routed) (places : List Nat) :
    ∃ order, order.Perm places ∧ InSourceOrder matched order := by
  let place (i : Nat) : Coordinates := (matched.getD i default).coordinates
  have hplace : ∀ {i r}, matched[i]? = some r → place i = r.coordinates := by
    intro i r hr
    simp [place, hr]
  refine ⟨places.mergeSort fun i j => (place i).le (place j), List.mergeSort_perm .., ?_⟩
  have hsorted : (places.mergeSort fun i j => (place i).le (place j)).Pairwise
      fun i j => (place i).le (place j) = true := by
    apply List.pairwise_mergeSort
    · exact fun _ _ _ h h' => Coordinates.le_trans h h'
    · exact fun _ _ => Coordinates.le_total _ _
  refine hsorted.imp fun hle a b ha hb => ?_
  rwa [hplace ha, hplace hb] at hle

/-- Payloads are published in source order. -/
theorem Releasing.inSourceOrder (h : Releasing matched s c) :
    InSourceOrder matched ((Dispatcher.sorted c.mapped.reverse).map (·.slot)) := by
  have hsorted : (Dispatcher.sorted c.mapped.reverse).Pairwise
      fun m n => m.routed.coordinates.le n.routed.coordinates = true := by
    apply List.pairwise_mergeSort
    · exact fun _ _ _ h h' => Coordinates.le_trans h h'
    · exact fun _ _ => Coordinates.le_total _ _
  refine List.pairwise_map.2 (List.Pairwise.imp_of_mem (fun hm hn hle a b ha hb => ?_) hsorted)
  have hplaced := (h.released _ ((Dispatcher.sorted_perm c.mapped).mem_iff.1 hm)).placed
  have hplaced' := (h.released _ ((Dispatcher.sorted_perm c.mapped).mem_iff.1 hn)).placed
  rw [ha] at hplaced
  rw [hb] at hplaced'
  rwa [Option.some.inj hplaced, Option.some.inj hplaced']

/-- Between two sessions the records that passed their chains were first handed over in source order, as far as they
were handed over. -/
structure HandedOver (matched : List Routed) (s s' : Session σ) (order : List Nat) : Prop where
  passed : order.Perm (s.passed s')
  sorted : InSourceOrder matched order
  opened : s.openings s' <+: order
  /-- A record is first handed over once. -/
  distinct : (s.openings s').Nodup

/-- What says nothing of records hands nothing over. -/
theorem HandedOver.ends {s'' : Session σ} {order : List Nat} {old news : List Event}
    (h : HandedOver matched s s' order) (hold : s.Adds old s') (hnews : s'.Adds news s'')
    (hsilent : ∀ e ∈ news, e.sign = none) :
    HandedOver matched s s'' order ∧ s.openings s'' = s.openings s' := by
  have hopenings : s.openings s'' = s.openings s' := by
    rw [Session.openings_adds hold hnews,
      List.filterMap_eq_nil_iff.2 fun e he => Event.opening?_of_sign (hsilent e he)]
    simp
  have hpassed : s.passed s'' = s.passed s' := by
    rw [Session.passed_adds hold hnews,
      List.filterMap_eq_nil_iff.2 fun e he => Event.passed?_of_sign (hsilent e he)]
    simp
  refine ⟨⟨?_, h.sorted, ?_, ?_⟩, hopenings⟩
  · rw [hpassed]
    exact h.passed
  · rw [hopenings]
    exact h.opened
  · rw [hopenings]
    exact h.distinct

/-- Before publishing begins nothing was handed over. -/
theorem Gathered.handedOver (h : Gathered s c) (matched : List Routed) :
    ∃ order, HandedOver matched s c.session order := by
  obtain ⟨order, hperm, hsorted⟩ := exists_inSourceOrder matched (s.passed c.session)
  refine ⟨order, hperm, hsorted, ?_, ?_⟩
  · rw [h.opened]
    exact List.nil_prefix
  · rw [h.opened]
    exact List.nodup_nil

theorem Handing.handedOver {order rest : List Nat} (h : Handing s order rest c) (hsorted : InSourceOrder matched order)
    (hdistinct : order.Nodup) : HandedOver matched s c.session order := by
  have hopened : s.openings c.session <+: order := ⟨rest, h.opened⟩
  exact ⟨h.passed, hsorted, hopened, hdistinct.sublist hopened.sublist⟩

end Order

/-- Every dispatch hands the records that passed their chains over in source order, and all of them if the batch is
acknowledged and republished. -/
theorem dispatch_handedOver {σ : Type} (w : World σ) (d : Dispatcher) (registry : Registry) (batch : Batch)
    (s : Session σ) :
    let matched := (Matching.ofRecords (registry.subscribers d.pipeline) batch.records).matched
    ∃ order, HandedOver matched s (d.dispatch w registry batch s).2 order ∧
      ∀ summary ledger, (d.dispatch w registry batch s).1 = .done summary ledger → d.checkpoint = true →
        s.openings (d.dispatch w registry batch s).2 = order := by
  intro matched
  have hframes := Releasing.frames w d matched s
  have hfilter := Dispatcher.reports_filterMap w d fun slot r => matched[slot]? = some r
  have hkeeps₁ := (hframes.keeps hfilter).and (Gathered.keeps w d s)
  have hstarts₁ := hkeeps₁.starts_from s.now (fun _ _ c => (true, c))
    (fun ha hp h => ⟨⟨h.1.1.begins ha hp, h.1.2⟩, h.2⟩) (fun h hk => (Prod.mk.inj hk).2 ▸ h) (by simp)
  let order (c₁ : Course σ) : List Nat := (Dispatcher.sorted c₁.mapped.reverse).map (·.slot)
  obtain ⟨hfailed, hstuck, hdone⟩ := Dispatcher.dispatch_stages batch s hstarts₁ hkeeps₁ (fun _ _ h => h)
    (fun c₁ => Handing.starts w d registry s (order c₁)) (fun c₁ => Handing.keeps w d registry s (order c₁))
    (fun _ _ _ h => h)
    (fun c h => ⟨⟨FilterChronicle.begins h.session, Releasing.begins h.mapped⟩, .start h.session h.mapped⟩)
    (fun c₁ _ h => by
      obtain ⟨-, hgathered⟩ := h
      have hperm : (order c₁).Perm (c₁.mapped.reverse.map (·.slot)) := (List.mergeSort_perm _ _).map _
      refine ⟨⟨hgathered.told, ?_, ?_⟩, by simp [Retrying]⟩
      · rw [hgathered.opened, List.map_map]
        rfl
      · rwa [hgathered.passed])
  have hhanding : ∀ {c₁ c : Course σ} {rest : List Nat}, Releasing matched s c₁ → Handing s (order c₁) rest c →
      HandedOver matched s c.session (order c₁) := by
    intro c₁ c rest hreleasing h
    refine h.handedOver hreleasing.inSourceOrder ?_
    exact (((Dispatcher.sorted_perm c₁.mapped).map _).nodup_iff).2 hreleasing.distinct
  rcases hd : d.dispatch w registry batch s with ⟨⟨summary, ledger⟩ | e | _, s'⟩
  · obtain ⟨c, c₁, hconclude, ⟨⟨-, hreleasing⟩, hgathered⟩, hc⟩ := hdone _ _ _ hd
    obtain ⟨news, hadds, hsilent⟩ := d.adds_conclude w c
    rw [hconclude] at hadds
    cases hcheckpoint : d.checkpoint with
    | true =>
      rw [if_pos hcheckpoint] at hc
      obtain ⟨old, hold⟩ := hc.1.told
      obtain ⟨hhanded, hopenings⟩ := (hhanding hreleasing hc.1).ends hold.adds hadds hsilent
      refine ⟨order c₁, hhanded, fun _ _ _ _ => ?_⟩
      rw [hopenings, ← hc.1.opened, List.append_nil]
    | false =>
      have hsession : c.session = c₁.session := by
        rw [if_neg (by simp [hcheckpoint])] at hc
        rw [hc, Course.settleAll_eq]
      obtain ⟨old, hold⟩ := hgathered.told
      obtain ⟨places, hhanded⟩ := hgathered.handedOver matched
      rw [hsession] at hadds
      exact ⟨places, (hhanded.ends hold.adds hadds hsilent).1, by simp⟩
  · obtain ⟨c, ⟨-, hgathered⟩ | ⟨-, c₁, ⟨⟨-, hreleasing⟩, -⟩, rest, hc⟩, htell⟩ := hfailed _ _ hd
    · obtain ⟨old, hold⟩ := hgathered.told
      obtain ⟨places, hhanded⟩ := hgathered.handedOver matched
      exact ⟨places, (hhanded.ends hold.adds htell.adds (by simp)).1, by simp⟩
    · obtain ⟨old, hold⟩ := hc.told
      exact ⟨_, ((hhanding hreleasing hc).ends hold.adds htell.adds (by simp)).1, by simp⟩
  · obtain ⟨c, ⟨ts, -, hgathered⟩ | ⟨-, c₁, ⟨⟨-, hreleasing⟩, -⟩, ts, hc, -⟩, rfl⟩ := hstuck _ hd
    · obtain ⟨places, hhanded⟩ := hgathered.handedOver matched
      exact ⟨places, hhanded, by simp⟩
    · exact ⟨_, hhanding hreleasing hc, by simp⟩

/-- The records that passed their chains are matched records of the batch. -/
theorem matched_of_passed {σ : Type} (w : World σ) (d : Dispatcher) (registry : Registry) (batch : Batch)
    (s : Session σ) {i : Nat} (hi : i ∈ s.passed (d.dispatch w registry batch s).2) :
    i < (Matching.ofRecords (registry.subscribers d.pipeline) batch.records).matched.length := by
  obtain ⟨s₁, s₂, hstaged, -⟩ := staged_dispatch w d registry batch s
  obtain ⟨e, he, hpassed⟩ := List.mem_filterMap.1 (List.mem_reverse.1 hi)
  unfold Event.passed? at hpassed
  split at hpassed
  · next job outcome =>
    split at hpassed
    · obtain rfl := Option.some.inj hpassed
      rcases hstaged.said he rfl with ⟨-, he⟩ | ⟨hstage, -⟩
      · obtain ⟨-, -, hplaced⟩ := hstaged.filtering.said _ he rfl
        exact (List.getElem?_eq_some_iff.1 hplaced).1
      · simp at hstage
    · simp at hpassed
  · simp at hpassed

end Relay
