import Relay.Proofs.Acknowledging
import Relay.Proofs.WorkRules

/-!
# Commits never move backwards

Over any sequence of dispatches and notices of the group coordinator, what is committed for a partition
grows strictly until the partition is taken away, and the tracker knows the last commit that was accepted.
The journal is the witness: the stages of a dispatch do not touch the consumer group, and its end asks for
at most one commit, of what lies beyond the tracker.
-/

namespace Relay

/-- Whether an event concerns the position of the consumer in its group. -/
def Event.isGroup : Event → Bool
  | .committed _ _ => true
  | .sought _ _ => true
  | .revoked _ => true
  | _ => false

/-! ## What leaves the consumer group alone -/

namespace Session

variable {σ : Type} {s s' s'' : Session σ} {news : List Event}

/-- From one session to the next nothing concerns the consumer group. -/
def Quiet (s s' : Session σ) : Prop := ∃ news, s.Tells news s' ∧ ∀ e ∈ news, e.isGroup = false

theorem Quiet.refl (s : Session σ) : s.Quiet s := ⟨[], .refl s, by simp⟩

theorem Quiet.tells (h : s.Quiet s') (htell : s'.Tells news s'') (hnews : ∀ e ∈ news, e.isGroup = false) :
    s.Quiet s'' := by
  obtain ⟨old, hold, hg⟩ := h
  refine ⟨news ++ old, hold.trans htell, fun e he => ?_⟩
  rcases List.mem_append.1 he with he | he
  · exact hnews e he
  · exact hg e he

theorem Quiet.aside (h : s.Quiet s') (htell : s'.Tells [] s'') : s.Quiet s'' := h.tells htell (by simp)

end Session

section Stages

variable {σ : Type} {w : World σ} {d : Dispatcher} {registry : Registry} {s : Session σ}

namespace Dispatcher

theorem isGroup_of_unsent {slot : Nat} {m : Mapped} {a : Attempt} {e : PublishError} {news : Event}
    (h : d.Unsent slot m a e news) : news.isGroup = false := by
  rcases h with rfl | ⟨x, -, rfl⟩
  · rfl
  · rfl

theorem quiet_harvest {r : Routed} {job : Job} {c c' : Course σ} (h : s.Quiet c.session)
    (hl : harvest w r job c = (.done, c')) : s.Quiet c'.session := by
  obtain ⟨outcome, c₁, htell, rfl⟩ := harvest_done hl
  have h := h.tells htell.session (by simp [Event.isGroup])
  split
  · exact h
  · exact h

theorem quiet_filterMap (w : World σ) (d : Dispatcher) (s : Session σ) (b : Budget) :
    (filterMap w d).Keeps b (fun _ c => s.Quiet c.session) (fun _ c => s.Quiet c.session) where
  perm _ h := h
  quiet htell h := h.aside htell.session
  launched _ h hl := h.tells (submit_flying hl).2.session (by simp [Event.isGroup])
  unlaunched _ _ hl := absurd hl submit_ne_failed
  barred _ h hl := h.tells (submit_stopped hl).2.session (by simp [Event.isGroup])
  landed _ h hl := quiet_harvest h hl
  crashed _ h hl := by
    obtain ⟨e, -, htell⟩ := harvest_failed hl
    exact h.tells htell.session (by simp [Event.isGroup])
  broken _ _ hl := absurd hl harvest_ne_stopped
  retried _ _ h _ htell := h.tells htell.session (by simp [Event.isGroup])
  abandoned _ h _ htell := h.tells htell.session (by simp [Event.isGroup])

theorem quiet_send {slot : Nat} {m : Mapped} {a : Attempt} {launch : Launch Shipment} {c c' : Course σ}
    (h : s.Quiet c.session) (hl : d.send w registry slot m a c = (launch, c')) : s.Quiet c'.session := by
  cases launch with
  | flying x => exact h.tells (send_flying hl).2.session (by simp [Event.isGroup])
  | failed giveUp =>
    obtain ⟨e, news, -, -, hunsent, htell⟩ := send_failed hl
    exact h.tells htell.session (by simpa using isGroup_of_unsent hunsent)
  | stopped e =>
    obtain ⟨cause, news, -, hunsent, htell⟩ := send_stopped hl
    exact h.tells htell.session (by simpa using isGroup_of_unsent hunsent)

theorem quiet_confirm {m : Mapped} {x : Shipment} {landing : Landing} {c c' : Course σ}
    (h : s.Quiet c.session) (hl : confirm w m x c = (landing, c')) : s.Quiet c'.session := by
  cases landing with
  | done =>
    obtain ⟨c₁, htell, rfl⟩ := confirm_done hl
    exact h.tells htell.session (by simp [Event.isGroup])
  | failed giveUp =>
    obtain ⟨e, -, -, htell⟩ := confirm_failed hl
    exact h.tells htell.session (by simp [Event.isGroup])
  | stopped e =>
    obtain ⟨cause, -, htell⟩ := confirm_stopped hl
    exact h.tells htell.session (by simp [Event.isGroup])

theorem quiet_publish (w : World σ) (d : Dispatcher) (registry : Registry) (s : Session σ) (b : Budget) :
    (publish w d registry).Keeps b (fun _ c => s.Quiet c.session) (fun _ c => s.Quiet c.session) where
  perm _ h := h
  quiet htell h := h.aside htell.session
  launched _ h hl := quiet_send h hl
  unlaunched _ h hl := quiet_send h hl
  barred _ h hl := quiet_send h hl
  landed _ h hl := quiet_confirm h hl
  crashed _ h hl := quiet_confirm h hl
  broken _ h hl := quiet_confirm h hl
  retried _ _ h _ htell := h.tells htell.session (by simp [Event.isGroup])
  abandoned _ h _ htell := h.tells htell.session (by simp [Event.isGroup])

theorem quiet_awaitDelivery {m : Mapped} {x : Shipment} {kept : Bool} {c c' : Course σ}
    (h : s.Quiet c.session) (hk : d.awaitDelivery m x c = (kept, c')) : s.Quiet c'.session := by
  rw [awaitDelivery_eq] at hk
  split at hk
  · obtain ⟨-, rfl⟩ := Prod.mk.inj hk
    exact h
  · obtain ⟨-, rfl⟩ := Prod.mk.inj hk
    exact h.aside (Session.tells_count ..)

/-- A dispatch leaves the consumer group alone until it acknowledges its batch, if it ever does. -/
theorem quiet_dispatch (w : World σ) (d : Dispatcher) (registry : Registry) (batch : Batch)
    (s : Session σ) :
    s.Quiet (d.dispatch w registry batch s).2 ∨
      ∃ c, s.Quiet c.session ∧ d.dispatch w registry batch s = conclude w d c := by
  have h₁ := quiet_filterMap w d s d.budget
  have h₂ := quiet_publish w d registry s d.budget
  obtain ⟨hfailed, hstuck, hdone⟩ := dispatch_spec batch s
    (h₁.starts _ (fun _ h => h) (fun h hk => (Prod.mk.inj hk).2 ▸ h) (by simp)) h₁ (fun _ _ h => h)
    (h₂.starts _ (fun _ h => h) quiet_awaitDelivery (fun _ => quiet_awaitDelivery)) h₂ (fun _ _ h => h)
    (fun c hc => (Session.Quiet.refl s).aside hc.session) (fun _ h => h)
  rcases hd : d.dispatch w registry batch s with ⟨⟨summary, ledger⟩ | e | _, s'⟩
  · right
    obtain ⟨c, hconclude, hc⟩ := hdone _ _ _ hd
    refine ⟨c, ?_, hconclude.symm⟩
    split at hc
    · exact hc
    · obtain ⟨c₁, h₁, rfl⟩ := hc
      rw [Course.settleAll_eq]
      exact h₁
  · left
    obtain ⟨c, h, htell⟩ := hfailed _ _ hd
    exact h.aside htell
  · left
    obtain ⟨c, ⟨_, h⟩ | ⟨_, h⟩, rfl⟩ := hstuck _ hd
    · exact h
    · exact h

end Dispatcher

end Stages

/-! ## Runs -/

/-- Take a notice of the group coordinator into account. -/
def Session.heed {σ : Type} (n : Tracker.Notice) (s : Session σ) : Session σ :=
  match n with
  | .revoked list => list.foldl (fun s c => s.revoke c.partition) s
  | _ => s

/-- The tracker takes the notice into account. -/
theorem Session.tracker_heed {σ : Type} (n : Tracker.Notice) (s : Session σ) :
    (s.heed n).tracker = s.tracker.notice n := by
  cases n with
  | revoked list =>
    simp only [heed, Tracker.notice]
    induction list generalizing s with
    | nil => rfl
    | cons c rest ih => exact ih (s.revoke c.partition)
  | assigned list => rfl
  | failed => rfl
  | committed list => rfl

/-- What happens to a pipeline. -/
inductive Occasion where
  /-- A batch is dispatched, with the settings and the subscribers in force. -/
  | batch (d : Dispatcher) (registry : Registry) (batch : Batch)
  /-- The group coordinator tells something. -/
  | notice (n : Tracker.Notice)

/-- A pipeline meets an occasion. -/
def Session.meet {σ : Type} (w : World σ) (s : Session σ) : Occasion → Session σ
  | .batch d registry batch => (d.dispatch w registry batch s).2
  | .notice n => s.heed n

/-- A pipeline meets one occasion after the other. -/
def Session.live {σ : Type} (w : World σ) (s : Session σ) (run : List Occasion) : Session σ :=
  run.foldl (Session.meet w) s

/-- The offsets that were committed for a partition since it was last taken away, the latest first. -/
def accepted (p : Partition) : List Event → List Int
  | [] => []
  | e :: journal =>
    match e with
    | .committed offsets true => (offsets.get? p).toList ++ accepted p journal
    | .revoked q => if q = p then [] else accepted p journal
    | _ => accepted p journal

/-- A journal in which no commit moves backwards. -/
def Forward (journal : List Event) : Prop :=
  ∀ newer offsets ok older, journal = newer ++ .committed offsets ok :: older →
    offsets.isEmpty = false ∧
      ∀ p offset, offsets.get? p = some offset → ∀ last ∈ (accepted p older).head?, last < offset

/-- The tracker knows the last commit of each partition, and no commit moved backwards. -/
structure Session.Coherent {σ : Type} (s : Session σ) : Prop where
  /-- The last commit is known. -/
  tracker : ∀ p, s.tracker.get? p = (accepted p s.journal).head?
  /-- Commits grow. -/
  increasing : ∀ p, (accepted p s.journal).Pairwise (· > ·)
  /-- No commit that was asked for moved backwards. -/
  forward : Forward s.journal

/-- Whether an event says what is committed: a commit, or the loss of a partition. -/
def Event.isCommit : Event → Bool
  | .committed _ _ => true
  | .revoked _ => true
  | _ => false

theorem Event.isNews_of_isCommit {e : Event} (h : e.isCommit = true) : e.isNews = true := by
  cases e <;> first | rfl | simp [isCommit] at h

theorem accepted_append {added : List Event} (p : Partition) (journal : List Event)
    (h : ∀ e ∈ added, e.isCommit = false) : accepted p (added ++ journal) = accepted p journal := by
  induction added with
  | nil => rfl
  | cons e rest ih =>
    have ih := ih fun e he => h e (List.mem_cons_of_mem _ he)
    have he := h e List.mem_cons_self
    cases e <;> first | exact ih | simp [Event.isCommit] at he

theorem Forward.append {added journal : List Event} (hj : Forward journal)
    (h : ∀ e ∈ added, e.isCommit = false) : Forward (added ++ journal) := by
  intro newer offsets ok older heq
  rcases List.append_eq_append_iff.1 heq with ⟨l, rfl, hl⟩ | ⟨l, hl, hjournal⟩
  · exact hj l offsets ok older hl
  · cases l with
    | nil => exact hj [] offsets ok older (by simpa using hjournal.symm)
    | cons e l =>
      obtain ⟨rfl, -⟩ := List.cons.inj hjournal
      have := h (.committed offsets ok) (by simp [hl])
      simp [Event.isCommit] at this

namespace Session.Coherent

variable {σ : Type} {s s' : Session σ}

theorem start (world : σ) : (Session.start world).Coherent where
  tracker _ := rfl
  increasing _ := .nil
  forward newer offsets ok older h := by simp [Session.start] at h

theorem append {added : List Event} (h : s.Coherent) (hj : s'.journal = added ++ s.journal)
    (ht : s'.tracker = s.tracker) (hadded : ∀ e ∈ added, e.isCommit = false) : s'.Coherent := by
  refine ⟨fun p => ?_, fun p => ?_, ?_⟩
  · rw [ht, hj, accepted_append p _ hadded, h.tracker]
  · rw [hj, accepted_append p _ hadded]
    exact h.increasing p
  · rw [hj]
    exact h.forward.append hadded

theorem quiet (h : s.Coherent) (hq : s.Quiet s') : s'.Coherent := by
  obtain ⟨news, ⟨⟨added, hj, rfl⟩, ht, -⟩, hg⟩ := hq
  refine h.append hj ht fun e he => ?_
  cases hn : e.isNews with
  | false => cases e <;> first | rfl | simp [Event.isNews] at hn
  | true =>
    have := hg e (List.mem_filter.2 ⟨he, hn⟩)
    cases e <;> first | rfl | simp [Event.isGroup] at this

theorem lt_of_mem (h : s.Coherent) {p : Partition} {offset committed : Int}
    (hlt : ∀ committed, s.tracker.get? p = some committed → committed < offset)
    (hm : committed ∈ accepted p s.journal) : committed < offset := by
  have hi := h.increasing p
  have ht := h.tracker p
  cases ha : accepted p s.journal with
  | nil => simp [ha] at hm
  | cons last rest =>
    rw [ha] at hi hm ht
    have hlast := hlt last (by simpa using ht)
    rcases List.mem_cons.1 hm with rfl | hm
    · exact hlast
    · have := (List.pairwise_cons.1 hi).1 _ hm
      omega

/-- A commit of what lies beyond the tracker keeps coherence, whether it is accepted or not. -/
theorem commit (h : s.Coherent) {offsets : Offsets} {ok : Bool}
    (hj : s'.journal = .committed offsets ok :: s.journal)
    (ht : s'.tracker = if ok then s.tracker.mark offsets else s.tracker)
    (hne : offsets.isEmpty = false)
    (hlt : ∀ p offset, offsets.get? p = some offset →
      ∀ committed, s.tracker.get? p = some committed → committed < offset) : s'.Coherent := by
  have hforward : Forward s'.journal := by
    rw [hj]
    rintro (_ | ⟨e, newer⟩) offsets' ok' older heq
    · obtain ⟨he, rfl⟩ := List.cons.inj heq
      obtain ⟨rfl, rfl⟩ := Event.committed.inj he
      refine ⟨hne, fun p offset ho last hl => hlt p offset ho last ?_⟩
      rw [h.tracker]
      exact hl
    · exact h.forward newer offsets' ok' older (List.cons.inj heq).2
  cases ok with
  | false =>
    have ha : ∀ p, accepted p s'.journal = accepted p s.journal := fun p => by rw [hj]; rfl
    refine ⟨fun p => ?_, fun p => ?_, hforward⟩
    · rw [ht, ha, ← h.tracker]
      rfl
    · rw [ha]
      exact h.increasing p
  | true =>
    have ha : ∀ p, accepted p s'.journal = (offsets.get? p).toList ++ accepted p s.journal :=
      fun p => by rw [hj]; rfl
    refine ⟨fun p => ?_, fun p => ?_, hforward⟩
    · rw [ht, ha, if_pos rfl, Tracker.get?_mark]
      cases ho : offsets.get? p with
      | none => simpa using h.tracker p
      | some offset =>
        have := hlt p offset ho
        cases hc : s.tracker.get? p with
        | none => simp
        | some committed =>
          have := this committed hc
          simp
          omega
    · rw [ha]
      cases ho : offsets.get? p with
      | none => simpa using h.increasing p
      | some offset =>
        refine List.pairwise_cons.2 ⟨fun committed hm => ?_, h.increasing p⟩
        exact h.lt_of_mem (hlt p offset ho) hm

/-- A partition that is taken away is forgotten. -/
theorem revoke (h : s.Coherent) (p : Partition) : (s.revoke p).Coherent := by
  have ha : ∀ q, accepted q (s.revoke p).journal = if p = q then [] else accepted q s.journal :=
    fun q => rfl
  refine ⟨fun q => ?_, fun q => ?_, ?_⟩
  · rw [ha]
    show (s.tracker.clear p).get? q = _
    rw [Tracker.get?_clear]
    split
    · rfl
    · exact h.tracker q
  · rw [ha]
    split
    · exact .nil
    · exact h.increasing q
  · rintro (_ | ⟨e, newer⟩) offsets ok older heq
    · simp [Session.revoke, Session.note] at heq
    · exact h.forward newer offsets ok older (List.cons.inj heq).2

theorem heed (h : s.Coherent) (n : Tracker.Notice) : (s.heed n).Coherent := by
  cases n with
  | revoked list =>
    simp only [Session.heed]
    induction list generalizing s with
    | nil => exact h
    | cons c rest ih => exact ih (h.revoke c.partition)
  | assigned list => exact h
  | failed => exact h
  | committed list => exact h

theorem acknowledged (h : s.Coherent) {level : ServiceLevel} {accepted sought : Bool} {c c' : Course σ}
    (hs : c.session = s) (ha : Dispatcher.Acknowledged level accepted sought c c') :
    c'.session.Coherent := by
  subst hs
  obtain ⟨added, hj, hnews⟩ := ha.adds
  obtain ⟨behind, before, rfl, hsought, hcommitted⟩ := List.filter_eq_append_iff.1 hnews
  have hquiet : ∀ {l : List Event}, (∀ e ∈ l.filter Event.isNews, e.isCommit = false) →
      ∀ e ∈ l, e.isCommit = false := fun hl e he => by
    by_contra hc
    exact hc (hl e (List.mem_filter.2 ⟨he, Event.isNews_of_isCommit (by simpa using hc)⟩))
  have hbehind : ∀ e ∈ behind, e.isCommit = false := hquiet fun e he => by
    rw [hsought, Dispatcher.call] at he
    split at he
    · simp at he
    · rw [List.mem_singleton.1 he]
      rfl
  cases hask : (Dispatcher.asked level c.session.tracker c.ledger).isEmpty with
  | true =>
    have hbefore : ∀ e ∈ before, e.isCommit = false := hquiet fun e he => by
      simp [hcommitted, Dispatcher.call, hask] at he
    have ht : c'.session.tracker = c.session.tracker := by
      rw [ha.tracker, ha.asked hask, if_pos rfl, Tracker.mark_of_isEmpty _ hask]
    refine h.append hj ht fun e he => ?_
    rcases List.mem_append.1 he with he | he
    · exact hbehind e he
    · exact hbefore e he
  | false =>
    simp only [Dispatcher.call, hask] at hcommitted
    obtain ⟨after, first, rfl, hafter, -, hfirst⟩ := List.filter_eq_cons_iff.1 hcommitted
    -- the commit stands between measurements, so the journal grows in three steps
    have h₁ : ({ c.session with journal := first ++ c.session.journal } : Session σ).Coherent :=
      h.append rfl rfl (hquiet (by simp [hfirst]))
    have h₂ : ({ c'.session with
        journal := .committed (Dispatcher.asked level c.session.tracker c.ledger) accepted ::
          (first ++ c.session.journal) } : Session σ).Coherent :=
      h₁.commit rfl ha.tracker hask fun p offset ho => (Tracker.get?_advancing_eq_some.1 ho).2
    have hlast : c'.session.journal = (behind ++ after) ++
        .committed (Dispatcher.asked level c.session.tracker c.ledger) accepted ::
          (first ++ c.session.journal) := by simp [hj]
    refine h₂.append hlast rfl fun e he => ?_
    rcases List.mem_append.1 he with he | he
    · exact hbehind e he
    · exact hquiet (by simp [List.filter_eq_nil_iff.2 hafter]) e he

/-- A dispatch keeps coherence, however it ends. -/
theorem dispatch (h : s.Coherent) (w : World σ) (d : Dispatcher) (registry : Registry) (batch : Batch) :
    (d.dispatch w registry batch s).2.Coherent := by
  rcases Dispatcher.quiet_dispatch w d registry batch s with hq | ⟨c, hq, heq⟩
  · exact h.quiet hq
  · rw [heq]
    obtain ⟨accepted, sought, ha⟩ := Dispatcher.acknowledge_spec w d.level c
    exact ((h.quiet hq).acknowledged rfl ha).quiet ((Quiet.refl _).aside (tells_observe ..))

end Session.Coherent

/-- Over any run, what is committed for a partition grows strictly until the partition is taken away, no
commit that is asked for is empty or moves backwards, and the tracker knows the last commit. -/
theorem Session.coherent_live {σ : Type} (w : World σ) (world : σ) (run : List Occasion) :
    ((Session.start world).live w run).Coherent := by
  suffices h : ∀ s : Session σ, s.Coherent → (s.live w run).Coherent from h _ (.start world)
  induction run with
  | nil => exact fun s h => h
  | cons occasion run ih =>
    intro s h
    refine ih _ ?_
    cases occasion with
    | batch d registry batch => exact h.dispatch w d registry batch
    | notice n => exact h.heed n

end Relay
