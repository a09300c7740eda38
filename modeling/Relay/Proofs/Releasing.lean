import Relay.Proofs.Chronicle
import Relay.Proofs.OrderFree

/-!
# What is released is what is published

Filtering and mapping releases a payload when the chain of a record lets it pass, and that is the last word of
the stage on the record. Publishing hands over released payloads only, each at the place of its own record. So
every message is that of one record of the batch with the payload its chain made last, a repeated message equals
the first one, and nothing is handed over for a record that was rejected, given up or never matched.
-/

namespace Relay

/-- A payload is released: it was made of the record at its place, and the last that filtering and mapping says
of the record is that its chain let it pass with this payload. -/
structure Released {σ : Type} (matched : List Routed) (s s' : Session σ) (m : Mapped) : Prop where
  placed : matched[m.slot]? = some m.routed
  passed : (s.signs s' .filterMap m.slot).head? = some (.done (some m.value))

section Released

variable {σ : Type} {matched : List Routed} {s s' : Session σ} {m m' : Mapped}

/-- A record has one released payload. -/
theorem Released.message_eq (h : Released matched s s' m) (h' : Released matched s s' m')
    (hslot : m'.slot = m.slot) (lead pipeline : String) :
    m'.routed.message lead pipeline m'.value = m.routed.message lead pipeline m.value := by
  have hrouted : m'.routed = m.routed := by
    have := h'.placed
    rw [hslot, h.placed] at this
    exact (Option.some.inj this).symm
  have hvalue : m'.value = m.value := by
    have := h'.passed
    rw [hslot, h.passed] at this
    simpa using this.symm
  rw [hrouted, hvalue]

/-- A record that a subscriber takes is in the batch, and no earlier subscriber takes it. -/
theorem routed_of_matched {subscribers : List Subscriber} {records : List Record} {r : Routed} {slot : Nat}
    (h : (Matching.ofRecords subscribers records).matched[slot]? = some r) :
    r.record ∈ records ∧ subscribers.find? (·.accepts r.record) = some r.subscriber := by
  obtain ⟨record, hr, hroute⟩ := List.mem_filterMap.1 (List.mem_of_getElem? h)
  obtain ⟨subscriber, hfind, rfl⟩ := Option.map_eq_some_iff.1 hroute
  exact ⟨hr, hfind⟩

end Released

/-! ## Filtering and mapping -/

/-- The chronicle of filtering and mapping the matched records of a batch. -/
abbrev FilterChronicle {σ : Type} (w : World σ) (d : Dispatcher) (matched : List Routed) (s : Session σ) :
    List (Task Routed Job) → Session σ → Prop :=
  Chronicle (Dispatcher.filterMap w d) d.budget (fun slot r => matched[slot]? = some r)
    (fun slot r times job => job = ⟨slot, times, r⟩) (Event.IsJobOf fun slot r => matched[slot]? = some r)
    (matched.zipIdx.map (·.2)) s

/-- What was collected so far is released, and no record twice. -/
structure Releasing {σ : Type} (matched : List Routed) (s : Session σ) (c : Course σ) : Prop where
  distinct : (c.mapped.map (·.slot)).Nodup
  released : ∀ m ∈ c.mapped, Released matched s c.session m

section Filtering

variable {σ : Type} {w : World σ} {d : Dispatcher} {matched : List Routed} {s : Session σ} {c c' : Course σ}
  {t : Task Routed Job} {ts : List (Task Routed Job)} {m : Mapped}

/-- A record whose payload is released has no attempt any more. -/
theorem FilterChronicle.slot_ne_released (h : FilterChronicle w d matched s (t :: ts) c.session)
    (hm : Released matched s c.session m) : m.slot ≠ t.slot := by
  intro heq
  have hpassed := hm.passed
  rw [heq] at hpassed
  have hstand : History d.budget t.attempt.began (s.signs c.session .filterMap t.slot) t.stand := h.stand
  cases hsigns : s.signs c.session .filterMap t.slot with
  | nil => simp [hsigns] at hpassed
  | cons sign older =>
    rw [hsigns] at hpassed hstand
    obtain rfl := Option.some.inj hpassed
    -- after a result the record is over, but its attempt is not
    generalize hclosed : t.stand = stand at hstand
    cases hstand
    exact t.stand_ne_closed hclosed

/-- A sign of a record with an attempt leaves what was released. -/
theorem Released.tells {e : Event} {sign : Sign} (h : Released matched s c.session m)
    (hc : FilterChronicle w d matched s (t :: ts) c.session) (htell : c.session.Tells [e] c'.session)
    (he : e.sign = some (.filterMap, t.slot, sign)) : Released matched s c'.session m := by
  obtain ⟨news, hold⟩ := hc.told.tells
  obtain ⟨-, hother⟩ := Session.signs_tell hold.adds htell.adds he
  refine ⟨h.placed, ?_⟩
  rw [hother _ _ fun heq => hc.slot_ne_released h heq.2.symm]
  exact h.passed

theorem Releasing.tells {e : Event} {sign : Sign} (h : Releasing matched s c)
    (hc : FilterChronicle w d matched s (t :: ts) c.session) (htell : c.Tells [e] c')
    (he : e.sign = some (.filterMap, t.slot, sign)) : Releasing matched s c' := by
  refine ⟨by rw [htell.mapped]; exact h.distinct, fun m hm => ?_⟩
  rw [htell.mapped] at hm
  exact (h.released m hm).tells hc htell.session he

/-- A record that passes its chain releases its payload; one that does not releases nothing. -/
theorem Releasing.landed {job : Job} (h : Releasing matched s c)
    (hc : FilterChronicle w d matched s (t :: ts) c.session) (hp : t.phase = .flying job)
    (hl : Dispatcher.harvest w t.item job c = (.done, c')) : Releasing matched s c' := by
  obtain rfl := hc.holds t List.mem_cons_self job hp
  have hplaced := hc.placed t List.mem_cons_self
  obtain ⟨outcome, c₁, htell, rfl⟩ := Dispatcher.harvest_done hl
  have h₁ : Releasing matched s c₁ := h.tells hc htell rfl
  split
  · next hpassed =>
    obtain ⟨news, hold⟩ := hc.told.tells
    have hsigns : (Event.processed ⟨t.slot, t.attempt.times, t.item⟩ (.ok outcome)).sign =
        some (.filterMap, t.slot, .done (if outcome.passed then some outcome.carried.value else none)) := rfl
    obtain ⟨hsign, -⟩ := Session.signs_tell hold.adds htell.session.adds hsigns
    have hnew : Released matched s c₁.session ⟨t.slot, t.item, outcome.carried.value⟩ := by
      refine ⟨hplaced, ?_⟩
      rw [hsign, hpassed]
      rfl
    refine ⟨?_, List.forall_mem_cons.2 ⟨hnew, h₁.released⟩⟩
    have hne : t.slot ∉ c₁.mapped.map (·.slot) := by
      intro hm
      obtain ⟨m, hm, heq⟩ := List.mem_map.1 hm
      rw [htell.mapped] at hm
      exact hc.slot_ne_released (h.released m hm) heq
    exact List.nodup_cons.2 ⟨hne, h₁.distinct⟩
  · exact ⟨h₁.distinct, h₁.released⟩

theorem Releasing.frames (w : World σ) (d : Dispatcher) (matched : List Routed) (s : Session σ) :
    Chronicle.Frames (Dispatcher.filterMap w d) (FilterChronicle w d matched s)
      (fun _ c => Releasing matched s c) where
  perm _ h := h
  quiet hc h htell := by
    obtain ⟨news, hold⟩ := hc.told.tells
    refine ⟨by rw [htell.mapped]; exact h.distinct, fun m hm => ?_⟩
    rw [htell.mapped] at hm
    obtain ⟨hplaced, hpassed⟩ := h.released m hm
    exact ⟨hplaced, by rw [Session.signs_quiet hold.adds htell.session.adds]; exact hpassed⟩
  moves hc h htell he _ _ _ := h.tells hc htell he
  begins h _ := h
  landed hp hc h hl := h.landed hc hp hl
  abandoned _ hc h htell := by
    have h := h.tells hc htell rfl
    exact ⟨h.distinct, h.released⟩

/-- When a batch is matched, its records are to be filtered and mapped. -/
theorem FilterChronicle.begins (h : s.Tells [] c.session) :
    FilterChronicle w d matched s
      (matched.zipIdx.map (fun x => ⟨x.2, x.1, .first s.now, .resting 0⟩) ++ []) c.session := by
  refine Chronicle.start _ ?_ ?_ h
  · rw [List.zipIdx_map_snd]
    exact List.nodup_range'
  · rintro ⟨r, slot⟩ hx
    exact List.mem_zipIdx_iff_getElem?.1 hx

theorem Releasing.begins (h : c.mapped = []) : Releasing matched s c := ⟨by simp [h], by simp [h]⟩

end Filtering

/-! ## Publishing -/

/-- The chronicle of publishing the payloads of a list that were released before a session. -/
abbrev PublishChronicle {σ : Type} (w : World σ) (d : Dispatcher) (registry : Registry)
    (placed : Nat → Mapped → Prop) (slots : List Nat) (s : Session σ) :
    List (Task Mapped Shipment) → Session σ → Prop :=
  Chronicle (Dispatcher.publish w d registry) d.budget placed
    (fun slot m times x => d.publisher.Carries slot times m.routed m.value x)
    (Event.IsMessageOf d.publisher placed) slots s

/-- The payload at a place is one that filtering and mapping released, and records are republished. -/
def Dispatcher.Hands {σ : Type} (d : Dispatcher) (matched : List Routed) (s s₁ : Session σ) (slot : Nat)
    (m : Mapped) : Prop :=
  d.checkpoint = true ∧ m.slot = slot ∧ Released matched s s₁ m

/-- When the chains are done, the released payloads are to be published. -/
theorem PublishChronicle.begins {σ : Type} {w : World σ} {d : Dispatcher} {registry : Registry}
    {matched : List Routed} {s : Session σ} {c : Course σ} (hcheckpoint : d.checkpoint = true)
    (h : Releasing matched s c) :
    let items := (Dispatcher.sorted c.mapped.reverse).map fun m => (m, m.slot)
    PublishChronicle w d registry (d.Hands matched s c.session) (items.map (·.2)) c.session
      (items.map (fun x => ⟨x.2, x.1, .first c.session.now, .resting 0⟩) ++ []) c.session := by
  intro items
  have hperm := Dispatcher.sorted_perm c.mapped
  refine Chronicle.start _ ?_ ?_ (.refl _)
  · rw [List.map_map]
    exact ((hperm.map _).nodup_iff).2 h.distinct
  · rintro x hx
    obtain ⟨m, hm, rfl⟩ := List.mem_map.1 hx
    exact ⟨hcheckpoint, rfl, h.released m (hperm.mem_iff.1 hm)⟩

/-! ## The whole dispatch -/

/-- A dispatch in three parts: filtering and mapping up to `s₁`, publishing what was released up to `s₂`, and an
end that says nothing of records. -/
structure Staged {σ : Type} (d : Dispatcher) (matched : List Routed) (s s₁ s₂ s' : Session σ) : Prop where
  filtering : Told d.budget .filterMap (Event.IsJobOf fun slot r => matched[slot]? = some r) s s₁
  publishing : Told d.budget .publish (Event.IsMessageOf d.publisher (d.Hands matched s s₁)) s₁ s₂
  ending : ∃ news, s₂.Adds news s' ∧ ∀ e ∈ news, e.sign = none

namespace Staged

variable {σ : Type} {d : Dispatcher} {matched : List Routed} {s s₁ s₂ s' : Session σ}

theorem written_eq (h : Staged d matched s s₁ s₂ s') :
    s.written s' = s₂.written s' ++ (s₁.written s₂ ++ s.written s₁) := by
  obtain ⟨_, h₁⟩ := h.filtering.tells
  obtain ⟨_, h₂⟩ := h.publishing.tells
  obtain ⟨_, h₃, -⟩ := h.ending
  rw [Session.written_append (h₁.adds.trans h₂.adds) h₃, Session.written_append h₁.adds h₂.adds]

theorem signs_eq (h : Staged d matched s s₁ s₂ s') (stage : Stage) (slot : Nat) :
    s.signs s' stage slot = s₁.signs s₂ stage slot ++ s.signs s₁ stage slot := by
  obtain ⟨_, h₁⟩ := h.filtering.tells
  obtain ⟨_, h₂⟩ := h.publishing.tells
  obtain ⟨news, h₃, hnews⟩ := h.ending
  have hsilent : news.filterMap (Event.signAt stage slot) = [] := by
    rw [List.filterMap_eq_nil_iff]
    intro e he
    rw [Event.signAt, hnews e he]
    rfl
  rw [Session.signs_adds (h₁.adds.trans h₂.adds) h₃, hsilent, List.nil_append, Session.signs,
    Session.written_append h₁.adds h₂.adds, List.filterMap_append]
  rfl

theorem signs_filterMap (h : Staged d matched s s₁ s₂ s') (slot : Nat) :
    s.signs s' .filterMap slot = s.signs s₁ .filterMap slot := by
  rw [h.signs_eq, h.publishing.signs_of_ne (by simp), List.nil_append]

theorem signs_publish (h : Staged d matched s s₁ s₂ s') (slot : Nat) :
    s.signs s' .publish slot = s₁.signs s₂ .publish slot := by
  rw [h.signs_eq, h.filtering.signs_of_ne (by simp), List.append_nil]

theorem history (h : Staged d matched s s₁ s₂ s') (stage : Stage) (slot : Nat) :
    ∃ began stand, History d.budget began (s.signs s' stage slot) stand := by
  cases stage with
  | filterMap =>
    obtain ⟨began, stand, -, hh⟩ := h.filtering.history slot
    exact ⟨began, stand, by rwa [h.signs_filterMap]⟩
  | publish =>
    obtain ⟨began, stand, -, hh⟩ := h.publishing.history slot
    exact ⟨began, stand, by rwa [h.signs_publish]⟩

/-- What is said of a record is a fact of the stage that says it. -/
theorem said (h : Staged d matched s s₁ s₂ s') {e : Event} {x : Stage × Nat × Sign}
    (he : e ∈ s.written s') (hs : e.sign = some x) :
    x.1 = .filterMap ∧ e ∈ s.written s₁ ∨ x.1 = .publish ∧ e ∈ s₁.written s₂ := by
  have hnews : e.isNews = true := by
    cases hn : e.isNews with
    | true => rfl
    | false => simp [Event.sign_of_not_isNews hn] at hs
  rw [h.written_eq, List.mem_append, List.mem_append] at he
  rcases he with he | he | he
  · obtain ⟨news, h₃, hsilent⟩ := h.ending
    rw [Session.mem_written_iff h₃ hnews] at he
    simp [hsilent e he] at hs
  · obtain ⟨hstage, -⟩ := h.publishing.said e he hnews
    exact .inr ⟨hstage x hs, he⟩
  · obtain ⟨hstage, -⟩ := h.filtering.said e he hnews
    exact .inl ⟨hstage x hs, he⟩

end Staged

/-- When filtering and mapping is over, every matched record was attempted. -/
theorem FilterChronicle.attempted {σ : Type} {w : World σ} {d : Dispatcher} {matched : List Routed}
    {s s₁ : Session σ} (h : FilterChronicle w d matched s [] s₁) :
    ∀ slot < matched.length, s.signs s₁ .filterMap slot ≠ [] := by
  intro slot hlt
  have hm : slot ∈ matched.zipIdx.map (·.2) := by
    rw [List.zipIdx_map_snd]
    exact List.mem_range'_1.2 ⟨Nat.zero_le _, by omega⟩
  rcases h.covered slot hm with hnil | hne
  · simp at hnil
  · exact hne

/-- The end of a dispatch says nothing of records. -/
theorem Dispatcher.adds_conclude {σ : Type} (w : World σ) (d : Dispatcher) (c : Course σ) :
    ∃ news, c.session.Adds news (conclude w d c).2 ∧ ∀ e ∈ news, e.sign = none := by
  obtain ⟨accepted, sought, hack⟩ := acknowledge_spec w d.level c
  refine ⟨_, hack.adds.trans (Session.tells_observe ..).adds, fun e he => ?_⟩
  rcases eq_of_mem_calls he with rfl | rfl <;> rfl

section Dispatch

variable {σ : Type} {w : World σ} {d : Dispatcher} {registry : Registry}

/-- Every dispatch has the three parts, however it ends. Either every matched record was attempted, or the
dispatch ended while it was filtering and mapping. Assertions on the records are carried along up to the end of a
batch that is acknowledged. -/
theorem dispatch_framed (batch : Batch) (s : Session σ) {matched : List Routed}
    (hmatched : matched = (Matching.ofRecords (registry.subscribers d.pipeline) batch.records).matched)
    {R₁ : List (Task Routed Job) → Course σ → Prop} {R₂ : List (Task Mapped Shipment) → Course σ → Prop}
    (hR₁ : Chronicle.Frames (Dispatcher.filterMap w d) (FilterChronicle w d matched s) R₁)
    (hR₂ : ∀ slots s₁, Chronicle.Frames (Dispatcher.publish w d registry)
      (PublishChronicle w d registry (d.Hands matched s s₁) slots s₁) R₂)
    (hdropped : ∀ {t ts c c'}, matched[t.slot]? = some t.item.routed → R₂ (t :: ts) c → c.Tells [] c' →
      R₂ ts (c'.publish t.item.routed.coordinates))
    (hbegin : ∀ c, Dispatcher.Begins (registry.subscribers d.pipeline) batch s c →
      R₁ (matched.zipIdx.map (fun x => ⟨x.2, x.1, .first s.now, .resting 0⟩) ++ []) c)
    (hbetween : ∀ c, R₁ [] c →
      R₂ (((Dispatcher.sorted c.mapped.reverse).map fun m => (m, m.slot)).map
        (fun x => ⟨x.2, x.1, .first c.session.now, .resting 0⟩) ++ []) c) :
    (∃ s₁ s₂, Staged d matched s s₁ s₂ (d.dispatch w registry batch s).2 ∧
        ((∀ slot < matched.length, s.signs s₁ .filterMap slot ≠ []) ∨
          s₁.Tells [] (d.dispatch w registry batch s).2 ∧
            ∀ summary ledger, (d.dispatch w registry batch s).1 ≠ .done summary ledger)) ∧
      ∀ summary ledger s', d.dispatch w registry batch s = (.done summary ledger, s') →
        ∃ c c₁ : Course σ, Dispatcher.conclude w d c = (.done summary ledger, s') ∧
          Releasing matched s c₁ ∧ R₁ [] c₁ ∧
          if d.checkpoint then R₂ [] c
          else c = c₁.settleAll ((Dispatcher.sorted c₁.mapped.reverse).map (·.routed.coordinates)) := by
  subst hmatched
  have hframes := (Releasing.frames w d _ s).and hR₁
  have hfilter := Dispatcher.reports_filterMap w d fun slot r =>
    (Matching.ofRecords (registry.subscribers d.pipeline) batch.records).matched[slot]? = some r
  have hpublish := fun c₁ : Course σ => Dispatcher.reports_publish w d registry
    (d.Hands (Matching.ofRecords (registry.subscribers d.pipeline) batch.records).matched s c₁.session)
  obtain ⟨hfailed, hstuck, hdone⟩ := Dispatcher.dispatch_stages batch s
    (hframes.starts hfilter _ (fun _ _ hk => (Prod.mk.inj hk).2 ▸ .refl _) (by simp)) (hframes.keeps hfilter)
    (fun _ _ h => h)
    (fun c₁ => (hR₂ _ c₁.session).starts (hpublish c₁) _
      (fun _ _ hk => Dispatcher.awaitDelivery_kept hk ▸ .refl _)
      (fun {t _ _ _ _} _ hc h hk => by
        obtain ⟨c₂, htell, rfl⟩ := Dispatcher.awaitDelivery_dropped hk
        obtain ⟨-, hslot, hreleased⟩ := hc.placed t List.mem_cons_self
        exact ⟨htell.session, hdropped (hslot ▸ hreleased.placed) h htell⟩))
    (fun c₁ => (hR₂ _ c₁.session).keeps (hpublish c₁)) (fun _ _ _ h => h)
    (fun c h => ⟨FilterChronicle.begins h.session, Releasing.begins h.mapped, hbegin c h⟩)
    (fun c₁ hcheckpoint h => ⟨PublishChronicle.begins hcheckpoint h.2.1, hbetween c₁ h.2.2⟩)
  rcases hd : d.dispatch w registry batch s with ⟨⟨summary, ledger⟩ | e | _, s'⟩
  · obtain ⟨c, c₁, hconclude, ⟨hc₁, hreleasing, h₁⟩, hc⟩ := hdone _ _ _ hd
    refine ⟨⟨c₁.session, c.session, ⟨hc₁.told, ?_, ?_⟩, .inl (FilterChronicle.attempted hc₁)⟩, ?_⟩
    · split at hc
      · exact hc.1.told
      · rw [hc, Course.settleAll_eq]
        exact .start (.refl _)
    · have hend := d.adds_conclude w c
      rwa [hconclude] at hend
    · rintro _ _ _ ⟨⟩
      refine ⟨c, c₁, hconclude, hreleasing, h₁, ?_⟩
      split at hc
      · next hcheckpoint =>
        rw [if_pos hcheckpoint]
        exact hc.2
      · next hcheckpoint => rwa [if_neg hcheckpoint]
  · refine ⟨?_, by simp⟩
    obtain ⟨c, htold | ⟨-, c₁, ⟨hc₁, -⟩, htold⟩, htell⟩ := hfailed _ _ hd
    · exact ⟨_, _, ⟨htold, .start (.refl _), [], htell.adds, by simp⟩, .inr ⟨htell, by simp⟩⟩
    · exact ⟨_, _, ⟨hc₁.told, htold, [], htell.adds, by simp⟩, .inl (FilterChronicle.attempted hc₁)⟩
  · refine ⟨?_, by simp⟩
    obtain ⟨c, ⟨ts, hc, -⟩ | ⟨-, c₁, ⟨hc₁, -⟩, ts, hc, -⟩, rfl⟩ := hstuck _ hd
    · exact ⟨_, _, ⟨hc.told, .start (.refl _), [], .refl _, by simp⟩, .inr ⟨.refl _, by simp⟩⟩
    · exact ⟨_, _, ⟨hc₁.told, hc.told, [], .refl _, by simp⟩, .inl (FilterChronicle.attempted hc₁)⟩

theorem staged_dispatch (w : World σ) (d : Dispatcher) (registry : Registry) (batch : Batch) (s : Session σ) :
    let matched := (Matching.ofRecords (registry.subscribers d.pipeline) batch.records).matched
    ∃ s₁ s₂, Staged d matched s s₁ s₂ (d.dispatch w registry batch s).2 ∧
      ((∀ slot < matched.length, s.signs s₁ .filterMap slot ≠ []) ∨
        s₁.Tells [] (d.dispatch w registry batch s).2 ∧
          ∀ summary ledger, (d.dispatch w registry batch s).1 ≠ .done summary ledger) :=
  (dispatch_framed batch s rfl (Chronicle.frames_true _) (fun _ _ => Chronicle.frames_true _)
    (fun _ _ _ => trivial) (fun _ _ => trivial) (fun _ _ => trivial)).1

end Dispatch

/-! ## Messages -/

/-- A chain that let a record pass is a job that ended. -/
theorem Event.eq_processed_of_sign {e : Event} {slot : Nat} {value : Json.Value}
    (h : e.sign = some (.filterMap, slot, .done (some value))) :
    ∃ job outcome, e = .processed job (.ok outcome) ∧ job.slot = slot ∧ outcome.passed = true ∧
      outcome.carried.value = value := by
  unfold Event.sign at h
  split at h <;> simp at h
  next job outcome =>
    obtain ⟨hslot, hpassed, hvalue⟩ := h
    exact ⟨job, outcome, rfl, hslot, hpassed, hvalue⟩

theorem Event.sign_sent (x : Shipment) (result : Except PublishError Unit) :
    ∃ sign, (Event.sent x result).sign = some (.publish, x.slot, sign) := by
  cases result with
  | ok => exact ⟨_, rfl⟩
  | error => exact ⟨_, rfl⟩

namespace Staged

variable {σ : Type} {d : Dispatcher} {matched : List Routed} {s s₁ s₂ s' : Session σ} {x : Shipment}
  {result : Except PublishError Unit} {newer older : List Event} {m : Mapped}

/-- A message carries a payload that was released. -/
theorem hands (h : Staged d matched s s₁ s₂ s') (he : .sent x result ∈ s.written s') :
    ∃ m, d.Hands matched s s₁ x.slot m ∧
      x.message = m.routed.message d.publisher.lead d.publisher.pipeline m.value := by
  obtain ⟨sign, hs⟩ := Event.sign_sent x result
  rcases h.said he hs with ⟨hstage, -⟩ | ⟨-, he⟩
  · simp at hstage
  · obtain ⟨-, -, hfact⟩ := h.publishing.said _ he rfl
    exact hfact

/-- When a message is handed over, filtering and mapping has said its last word on every record. -/
theorem older_sent (h : Staged d matched s s₁ s₂ s')
    (hw : s.written s' = newer ++ .sent x result :: older) :
    ∃ between, older = between ++ s.written s₁ ∧
      ∀ e ∈ newer ++ between, ∀ slot, e.signAt .filterMap slot = none := by
  obtain ⟨sign, hs⟩ := Event.sign_sent x result
  have hlate : Event.sent x result ∉ s.written s₁ := by
    intro he
    obtain ⟨hstage, -⟩ := h.filtering.said _ he rfl
    have := hstage _ hs
    simp at this
  have hsilent : ∀ e ∈ s₂.written s' ++ s₁.written s₂, ∀ slot, e.signAt .filterMap slot = none := by
    intro e he slot
    have hsigns := h.signs_filterMap slot
    rw [Session.signs, Session.signs, h.written_eq, ← List.append_assoc, List.filterMap_append,
      List.append_left_eq_self, List.filterMap_eq_nil_iff] at hsigns
    exact hsigns e he
  rw [h.written_eq, ← List.append_assoc] at hw
  rcases List.append_eq_append_iff.1 hw with ⟨late, rfl, hfirst⟩ | ⟨late, hlater, hfirst⟩
  · exact absurd (hfirst ▸ List.mem_append_right _ List.mem_cons_self) hlate
  · cases late with
    | nil =>
      rw [List.nil_append] at hfirst
      exact absurd (hfirst ▸ List.mem_cons_self) hlate
    | cons e between =>
      obtain ⟨rfl, rfl⟩ := List.cons.inj hfirst
      refine ⟨between, rfl, fun e he slot => hsilent e ?_ slot⟩
      rw [hlater, List.mem_append]
      exact (List.mem_append.1 he).imp_right (List.mem_cons_of_mem _)

/-- Nothing is handed over after a delivery of the same record. -/
theorem not_delivered (h : Staged d matched s s₁ s₂ s')
    (hw : s.written s' = newer ++ .sent x result :: older) {y : Shipment}
    (hy : .delivered y (.ok ()) ∈ older) : y.slot ≠ x.slot := by
  intro heq
  obtain ⟨later, earlier, rfl⟩ := List.append_of_mem hy
  obtain ⟨sign, hs⟩ := Event.sign_sent x result
  obtain ⟨began, stand, hh⟩ := h.history .publish x.slot
  have hdone : (Event.delivered y (.ok ())).signAt .publish x.slot = some (.done none) :=
    Event.signAt_eq_some.2 (by rw [← heq]; rfl)
  rw [Session.signs, hw, List.filterMap_append, List.filterMap_cons_some (Event.signAt_eq_some.2 hs),
    List.filterMap_append, List.filterMap_cons_some hdone, ← List.cons_append, ← List.append_assoc] at hh
  have hnil := hh.eq_nil_of_done
  simp at hnil

/-- A released payload was made by the last attempt to filter and map its record. -/
theorem processed_of_released (h : Staged d matched s s₁ s₂ s') (hm : Released matched s s₁ m) :
    ∃ job outcome after earlier, s.written s₁ = after ++ .processed job (.ok outcome) :: earlier ∧
      (∀ e ∈ after, e.signAt .filterMap m.slot = none) ∧ job.slot = m.slot ∧ job.routed = m.routed ∧
      outcome.passed = true ∧ outcome.carried.value = m.value := by
  obtain ⟨rest, hsigns⟩ := List.head?_eq_some_iff.1 hm.passed
  obtain ⟨after, e, earlier, hwritten, hafter, hsign, -⟩ := List.filterMap_eq_cons_iff.1 hsigns
  obtain ⟨job, outcome, rfl, hslot, hpassed, hvalue⟩ :=
    Event.eq_processed_of_sign (Event.signAt_eq_some.1 hsign)
  have he : Event.processed job (.ok outcome) ∈ s.written s₁ := by
    rw [hwritten]
    exact List.mem_append_right _ List.mem_cons_self
  obtain ⟨-, -, hplaced⟩ := h.filtering.said _ he rfl
  have hplaced : matched[job.slot]? = some job.routed := hplaced
  rw [hslot, hm.placed] at hplaced
  exact ⟨job, outcome, after, earlier, hwritten, hafter, hslot, (Option.some.inj hplaced).symm, hpassed, hvalue⟩

theorem head_of_released (h : Staged d matched s s₁ s₂ s') (hm : Released matched s s₁ m) :
    (s.signs s' .filterMap m.slot).head? = some (.done (some m.value)) := by
  rw [h.signs_filterMap]
  exact hm.passed

theorem passed_of_released (h : Staged d matched s s₁ s₂ s') (hm : Released matched s s₁ m) {job : Job}
    {outcome : Outcome} (he : .processed job (.ok outcome) ∈ s.written s') (hslot : job.slot = m.slot) :
    outcome.passed = true := by
  obtain ⟨began, stand, hh⟩ := h.history .filterMap m.slot
  have hsign : .done (if outcome.passed then some outcome.carried.value else none) ∈
      s.signs s' .filterMap m.slot := Session.mem_signs_iff.2 ⟨_, he, by rw [← hslot]; rfl⟩
  have hlast := hh.head_of_done hsign
  rw [h.head_of_released hm] at hlast
  by_contra hrejected
  simp [hrejected] at hlast

theorem not_abandoned_of_released (h : Staged d matched s s₁ s₂ s') (hm : Released matched s s₁ m)
    (a : Attempt) (now : Nat) (reason : AbandonReason) :
    .judged .filterMap m.slot a now (.abandon reason) ∉ s.written s' := by
  intro he
  obtain ⟨began, stand, hh⟩ := h.history .filterMap m.slot
  have hsign : .judged a now (.abandon reason) ∈ s.signs s' .filterMap m.slot :=
    Session.mem_signs_iff.2 ⟨_, he, rfl⟩
  have hlast := hh.head_of_gaveUp hsign rfl
  rw [h.head_of_released hm] at hlast
  simp at hlast

end Staged

/-- A message that is handed to a producer belongs to a record of the batch with the first subscriber that takes
it. The last attempt to filter and map the record came before and let it pass, and the message is that of the
record with the payload of this attempt. Every message for the record is the same, none is handed over once a
delivery of the record was reported, and none at all for a record that was rejected or given up in its chain, or
where records are not republished. -/
theorem dispatch_releases {σ : Type} (w : World σ) (d : Dispatcher) (registry : Registry) (batch : Batch)
    (s : Session σ) {x : Shipment} {result : Except PublishError Unit} {newer older : List Event}
    (h : s.written (d.dispatch w registry batch s).2 = newer ++ .sent x result :: older) :
    let subscribers := registry.subscribers d.pipeline
    let written := s.written (d.dispatch w registry batch s).2
    d.checkpoint = true ∧
      (∃ job outcome later earlier, older = later ++ .processed job (.ok outcome) :: earlier ∧
        (∀ e ∈ newer ++ later, e.signAt .filterMap x.slot = none) ∧
        job.slot = x.slot ∧ outcome.passed = true ∧
        (Matching.ofRecords subscribers batch.records).matched[x.slot]? = some job.routed ∧
        job.routed.record ∈ batch.records ∧
        subscribers.find? (·.accepts job.routed.record) = some job.routed.subscriber ∧
        x.message =
          { topic := d.publisher.lead ++ d.publisher.pipeline ++ job.routed.subscriber.id
            key := job.routed.record.key
            payload := Bytes.ofText outcome.carried.value.write
            headers := job.routed.record.headers ++ [
              ⟨tenantHeader, some (Bytes.ofText job.routed.subscriber.id)⟩,
              ⟨sequenceHeader, some (Bytes.ofText
                (if job.routed.subscriber.isSequential then "true" else "false"))⟩] }) ∧
      (∀ job outcome, .processed job (.ok outcome) ∈ written → job.slot = x.slot → outcome.passed = true) ∧
      (∀ a now reason, .judged .filterMap x.slot a now (.abandon reason) ∉ written) ∧
      (∀ y result, .sent y result ∈ written → y.slot = x.slot → y.message = x.message) ∧
      ∀ y, .delivered y (.ok ()) ∈ older → y.slot ≠ x.slot := by
  intro subscribers written
  obtain ⟨s₁, s₂, hstaged, -⟩ := staged_dispatch w d registry batch s
  have hmem : .sent x result ∈ s.written (d.dispatch w registry batch s).2 := by
    rw [h]
    exact List.mem_append_right _ List.mem_cons_self
  obtain ⟨m, ⟨hcheckpoint, hslot, hreleased⟩, hmessage⟩ := hstaged.hands hmem
  refine ⟨hcheckpoint, ?_, ?_, ?_, ?_, fun y hy => hstaged.not_delivered h hy⟩
  · obtain ⟨between, rfl, hsilent⟩ := hstaged.older_sent h
    obtain ⟨job, outcome, after, earlier, hwritten, hafter, hjob, hrouted, hpassed, hvalue⟩ :=
      hstaged.processed_of_released hreleased
    have hplaced := hreleased.placed
    rw [hslot, ← hrouted] at hplaced
    obtain ⟨hrecord, hfind⟩ := routed_of_matched hplaced
    refine ⟨job, outcome, between ++ after, earlier, ?_, fun e he => ?_, hjob.trans hslot, hpassed, hplaced,
      hrecord, hfind, ?_⟩
    · rw [hwritten, List.append_assoc]
    · rw [← List.append_assoc, List.mem_append] at he
      rcases he with he | he
      · exact hsilent e he x.slot
      · exact hslot ▸ hafter e he
    · rw [hmessage, hvalue, hrouted]
      rfl
  · exact fun job outcome he hjob => hstaged.passed_of_released hreleased he (hjob.trans hslot.symm)
  · exact fun a now reason => hslot ▸ hstaged.not_abandoned_of_released hreleased a now reason
  · intro y result' hy heq
    obtain ⟨m', ⟨-, hslot', hreleased'⟩, hmessage'⟩ := hstaged.hands hy
    rw [hmessage, hmessage']
    exact hreleased.message_eq hreleased' (hslot'.trans (heq.trans hslot.symm)) _ _

namespace Orders

def shipment : Shipment :=
  ⟨0, 0, "checkpoint---0", ⟨"", some [0], Bytes.ofText "null",
    [⟨"tenant", some []⟩, ⟨"sequence", some (Bytes.ofText "false")⟩]⟩⟩

/-- The message of the first record is handed over after its chain let it pass, and before any delivery of it. -/
theorem released :
    ∃ newer older,
      (Session.start ()).written (dispatcher.dispatch oldest registry batch (.start ())).2 =
        newer ++ .sent shipment (.ok ()) :: older ∧
      (∃ job outcome, .processed job (.ok outcome) ∈ older ∧ job.slot = 0 ∧ outcome.passed = true) ∧
      ∀ y, .delivered y (.ok ()) ∈ older → y.slot ≠ 0 := by
  have hsplit : (Session.start ()).written (dispatcher.dispatch oldest registry batch (.start ())).2 =
      ((Session.start ()).written (dispatcher.dispatch oldest registry batch (.start ())).2).take 12 ++
        .sent shipment (.ok ()) ::
          ((Session.start ()).written (dispatcher.dispatch oldest registry batch (.start ())).2).drop 13 := by
    cbv
  obtain ⟨-, ⟨job, outcome, later, earlier, holder, -, hjob, hpassed, -⟩, -, -, -, hdelivered⟩ :=
    dispatch_releases oldest dispatcher registry batch (.start ()) hsplit
  refine ⟨_, _, hsplit, ⟨job, outcome, ?_, hjob, hpassed⟩, hdelivered⟩
  rw [holder]
  exact List.mem_append_right _ List.mem_cons_self

end Orders

end Relay
