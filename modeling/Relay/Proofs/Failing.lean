import Relay.Proofs.Commits
import Relay.Proofs.OrderFree

/-!
# Dispatches that fail

A dispatch fails for two reasons only: a worker pool refuses a job, or a record cannot be published because of
the configuration. The event that shows it is the last news of the dispatch, whether it comes with the first
attempt at a record, with a later one, or with a delivery. Nothing is committed or rewound before it, so the
consumer group and the tracker are as they were.
-/

namespace Relay

namespace Dispatcher

/-- The error that an event stops a dispatch with, if it does. -/
def stops? (d : Dispatcher) : Event → Option DispatchError
  | .submitted job false => some (.executor (.poolClosed (d.executor.lane job.routed).name))
  | .unsent _ _ (.config cause) => some (.config cause)
  | .sent _ (.error (.config cause)) => some (.config cause)
  | .delivered _ (.error (.config cause)) => some (.config cause)
  | _ => none

/-- Whether a dispatch may go on after an event, which has nothing to do with the consumer group. -/
def Harmless (d : Dispatcher) (e : Event) : Prop := d.stops? e = none ∧ e.isGroup = false

/-- Nothing has stopped a dispatch so far, and the consumer group was left alone. -/
def Undisturbed {σ : Type} (d : Dispatcher) (s s' : Session σ) : Prop :=
  ∃ news, s.Tells news s' ∧ ∀ e ∈ news, d.Harmless e

/-- The latest news stopped a dispatch, and nothing before it did. -/
def Halted {σ : Type} (d : Dispatcher) (s : Session σ) (err : DispatchError) (s' : Session σ) : Prop :=
  ∃ e news, s.Tells (e :: news) s' ∧ d.stops? e = some err ∧ ∀ e' ∈ news, d.Harmless e'

section Events

variable {d : Dispatcher} {e : Event} {err : DispatchError}

theorem isNews_of_stops? (h : d.stops? e = some err) : e.isNews = true := by
  cases e <;> first | rfl | simp [stops?] at h

theorem isGroup_of_stops? (h : d.stops? e = some err) : e.isGroup = false := by
  cases e <;> first | rfl | simp [stops?] at h

theorem isFatal_of_stops? (h : d.stops? e = some err) : err.isFatal = true := by
  unfold stops? at h
  split at h <;> simp at h <;> subst h <;> rfl

theorem isNews_of_isGroup (h : e.isGroup = true) : e.isNews = true := by
  cases e <;> first | rfl | simp [Event.isGroup] at h

theorem harmless_judged (d : Dispatcher) (stage : Stage) (slot : Nat) (a : Attempt) (now : Nat)
    (decision : Decision) : d.Harmless (.judged stage slot a now decision) := ⟨rfl, rfl⟩

/-- A record that is not handed over stops the dispatch exactly if the configuration is at fault. -/
theorem stops?_of_unsent {slot : Nat} {m : Mapped} {a : Attempt} {cause : PublishError}
    (h : d.Unsent slot m a cause e) :
    d.stops? e = match cause with
      | .config c => some (.config c)
      | _ => none := by
  rcases h with rfl | ⟨x, -, rfl⟩ <;> cases cause <;> rfl

theorem harmless_of_unsent {slot : Nat} {m : Mapped} {a : Attempt} {cause : PublishError}
    (h : d.Unsent slot m a cause e) (hc : cause.isConfig = false) : d.Harmless e := by
  refine ⟨?_, isGroup_of_unsent h⟩
  rw [stops?_of_unsent h]
  cases cause <;> first | rfl | simp [PublishError.isConfig] at hc

end Events

/-! ## What the steps of a dispatch tell -/

section Stages

variable {σ : Type} {d : Dispatcher} {s s' s'' : Session σ} {e : Event} {err : DispatchError}

namespace Undisturbed

theorem refl (d : Dispatcher) (s : Session σ) : d.Undisturbed s s := ⟨[], .refl s, by simp⟩

theorem quiet (h : d.Undisturbed s s') (ht : s'.Tells [] s'') : d.Undisturbed s s'' := by
  obtain ⟨news, hold, hn⟩ := h
  exact ⟨news, hold.quiet ht, hn⟩

theorem tells (h : d.Undisturbed s s') (ht : s'.Tells [e] s'') (he : d.Harmless e) :
    d.Undisturbed s s'' := by
  obtain ⟨news, hold, hn⟩ := h
  exact ⟨e :: news, hold.trans ht, List.forall_mem_cons.2 ⟨he, hn⟩⟩

theorem halted (h : d.Undisturbed s s') (ht : s'.Tells [e] s'') (he : d.stops? e = some err) :
    d.Halted s err s'' := by
  obtain ⟨news, hold, hn⟩ := h
  exact ⟨e, news, hold.trans ht, he, hn⟩

end Undisturbed

variable {w : World σ} {registry : Registry}

/-- Filtering and mapping stop only at a pool that refuses a job. -/
theorem undisturbed_filterMap (w : World σ) (d : Dispatcher) (s : Session σ) (b : Budget) :
    (filterMap w d).Keeps b (fun _ c => d.Undisturbed s c.session)
      (fun err c => d.Halted s err c.session) where
  perm _ h := h
  quiet htell h := h.quiet htell.session
  launched _ h hl := h.tells (submit_flying hl).2.session ⟨rfl, rfl⟩
  unlaunched _ _ hl := absurd hl submit_ne_failed
  barred _ h hl := by
    obtain ⟨rfl, htell⟩ := submit_stopped hl
    exact h.halted htell.session rfl
  landed _ h hl := by
    obtain ⟨outcome, c₁, htell, rfl⟩ := harvest_done hl
    have h := h.tells htell.session ⟨rfl, rfl⟩
    split
    · exact h
    · exact h
  crashed _ h hl := by
    obtain ⟨e, -, htell⟩ := harvest_failed hl
    exact h.tells htell.session ⟨rfl, rfl⟩
  broken _ _ hl := absurd hl harvest_ne_stopped
  retried _ _ h _ htell := h.tells htell.session (d.harmless_judged ..)
  abandoned _ h _ htell := h.tells htell.session (d.harmless_judged ..)

/-- Publishing stops only at a mistake in the configuration, before or after a message is on its way. -/
theorem undisturbed_publish (w : World σ) (d : Dispatcher) (registry : Registry) (s : Session σ)
    (b : Budget) :
    (publish w d registry).Keeps b (fun _ c => d.Undisturbed s c.session)
      (fun err c => d.Halted s err c.session) where
  perm _ h := h
  quiet htell h := h.quiet htell.session
  launched _ h hl := h.tells (send_flying hl).2.session ⟨rfl, rfl⟩
  unlaunched _ h hl := by
    obtain ⟨e, news, hconfig, -, hunsent, htell⟩ := send_failed hl
    exact h.tells htell.session (harmless_of_unsent hunsent hconfig)
  barred _ h hl := by
    obtain ⟨cause, news, rfl, hunsent, htell⟩ := send_stopped hl
    exact h.halted htell.session (stops?_of_unsent hunsent)
  landed _ h hl := by
    obtain ⟨c₁, htell, rfl⟩ := confirm_done hl
    exact h.tells htell.session ⟨rfl, rfl⟩
  crashed _ h hl := by
    obtain ⟨e, hconfig, -, htell⟩ := confirm_failed hl
    refine h.tells htell.session ⟨?_, rfl⟩
    cases e <;> first | rfl | simp [PublishError.isConfig] at hconfig
  broken _ h hl := by
    obtain ⟨cause, rfl, htell⟩ := confirm_stopped hl
    exact h.halted htell.session rfl
  retried _ _ h _ htell := h.tells htell.session (d.harmless_judged ..)
  abandoned _ h _ htell := h.tells htell.session (d.harmless_judged ..)

theorem undisturbed_awaitDelivery {m : Mapped} {x : Shipment} {kept : Bool} {c c' : Course σ}
    (h : d.Undisturbed s c.session) (hk : d.awaitDelivery m x c = (kept, c')) :
    d.Undisturbed s c'.session := by
  rw [awaitDelivery_eq] at hk
  split at hk
  · obtain ⟨-, rfl⟩ := Prod.mk.inj hk
    exact h
  · obtain ⟨-, rfl⟩ := Prod.mk.inj hk
    exact h.quiet (Session.tells_count ..)

namespace Halted

/-- An event that stops a dispatch was written down exactly if it stops it with the error of the last one. -/
theorem stops_iff {err' : DispatchError} (h : d.Halted s err s') :
    (∃ e ∈ s.written s', d.stops? e = some err') ↔ err' = err := by
  obtain ⟨e, news, hold, he, hn⟩ := h
  constructor
  · rintro ⟨e', hm, hs⟩
    rw [Session.mem_written_iff hold.adds (isNews_of_stops? hs)] at hm
    rcases List.mem_cons.1 hm with rfl | hm
    · exact Option.some.inj (hs.symm.trans he)
    · exact absurd ((hn e' hm).1.symm.trans hs) (by simp)
  · rintro rfl
    exact ⟨e, (Session.mem_written_iff hold.adds (isNews_of_stops? he)).2 List.mem_cons_self, he⟩

theorem isFatal (h : d.Halted s err s') : err.isFatal = true := by
  obtain ⟨e, news, -, he, -⟩ := h
  exact isFatal_of_stops? he

/-- Before a dispatch is stopped the consumer group is left alone. -/
theorem isGroup_of_mem_written (h : d.Halted s err s') : ∀ e ∈ s.written s', e.isGroup = false := by
  obtain ⟨e, news, hold, he, hn⟩ := h
  have hgroup : ∀ e' ∈ e :: news, e'.isGroup = false :=
    List.forall_mem_cons.2 ⟨isGroup_of_stops? he, fun e' he' => (hn e' he').2⟩
  intro e' hm
  rw [← Bool.not_eq_true]
  intro hg
  rw [Session.mem_written_iff hold.adds (isNews_of_isGroup hg)] at hm
  rw [hgroup e' hm] at hg
  exact Bool.false_ne_true hg

end Halted

/-- A dispatch fails with the error that its last news stops it with; otherwise nothing stops it. -/
theorem halted_or_heeded (w : World σ) (d : Dispatcher) (registry : Registry) (batch : Batch)
    (s : Session σ) :
    (∃ err, (d.dispatch w registry batch s).1 = .failed err ∧
        d.Halted s err (d.dispatch w registry batch s).2) ∨
      ((∀ err, (d.dispatch w registry batch s).1 ≠ .failed err) ∧
        ∃ news, s.Adds news (d.dispatch w registry batch s).2 ∧ ∀ e ∈ news, d.stops? e = none) := by
  have h₁ := undisturbed_filterMap w d s d.budget
  have h₂ := undisturbed_publish w d registry s d.budget
  obtain ⟨hfailed, hstuck, hdone⟩ := dispatch_spec batch s
    (h₁.starts _ (fun _ h => h) (fun h hk => (Prod.mk.inj hk).2 ▸ h) (by simp)) h₁ (fun _ _ h => h)
    (h₂.starts _ (fun _ h => h) undisturbed_awaitDelivery (fun _ => undisturbed_awaitDelivery)) h₂
    (fun _ _ h => h) (fun c hc => (Undisturbed.refl d s).quiet hc.session) (fun _ h => h)
  rcases hd : d.dispatch w registry batch s with ⟨⟨summary, ledger⟩ | err | _, s'⟩
  · right
    obtain ⟨c, hconclude, hc⟩ := hdone _ _ _ hd
    have hc : d.Undisturbed s c.session := by
      split at hc
      · exact hc
      · obtain ⟨c₁, h₁, rfl⟩ := hc
        rw [Course.settleAll_eq]
        exact h₁
    obtain ⟨news, hold, hn⟩ := hc
    obtain ⟨accepted, sought, hack⟩ := acknowledge_spec w d.level c
    simp only [conclude, Prod.mk.injEq] at hconclude
    obtain ⟨-, rfl⟩ := hconclude
    refine ⟨by simp, _, hold.adds.trans (hack.adds.trans (Session.tells_observe ..).adds), ?_⟩
    intro e he
    rcases List.mem_append.1 he with he | he
    · rcases eq_of_mem_calls he with rfl | rfl <;> rfl
    · exact (hn e he).1
  · left
    obtain ⟨c, ⟨e, news, hold, he, hn⟩, htell⟩ := hfailed _ _ hd
    exact ⟨err, rfl, e, news, hold.quiet htell, he, hn⟩
  · right
    obtain ⟨c, ⟨_, news, hold, hn⟩ | ⟨_, news, hold, hn⟩, rfl⟩ := hstuck _ hd
    · exact ⟨by simp, news, hold.adds, fun e he => (hn e he).1⟩
    · exact ⟨by simp, news, hold.adds, fun e he => (hn e he).1⟩

theorem failed_iff_stops (w : World σ) (d : Dispatcher) (registry : Registry) (batch : Batch) (s : Session σ)
    (err : DispatchError) :
    (d.dispatch w registry batch s).1 = .failed err ↔
      ∃ e ∈ s.written (d.dispatch w registry batch s).2, d.stops? e = some err := by
  rcases halted_or_heeded w d registry batch s with ⟨err', hfailed, hhalted⟩ | ⟨hne, news, hold, hn⟩
  · rw [hfailed, hhalted.stops_iff, Dispatched.failed.injEq]
    exact eq_comm
  · refine ⟨fun h => absurd h (hne err), ?_⟩
    rintro ⟨e, hm, hs⟩
    rw [Session.mem_written_iff hold (isNews_of_stops? hs)] at hm
    exact absurd ((hn e hm).symm.trans hs) (by simp)

end Stages

end Dispatcher

/-- A dispatch fails with an error exactly if something happened that stops it with that error: a pool refused a
job, or the configuration kept a record from being published. Then the error is fatal, the tracker is as before,
and neither a commit nor a rewind was asked for. -/
theorem dispatch_failed_iff {σ : Type} (w : World σ) (d : Dispatcher) (registry : Registry) (batch : Batch)
    (s : Session σ) (err : DispatchError) :
    ((d.dispatch w registry batch s).1 = .failed err ↔
        ∃ e ∈ s.written (d.dispatch w registry batch s).2, d.stops? e = some err) ∧
      ((d.dispatch w registry batch s).1 = .failed err →
        err.isFatal = true ∧ (d.dispatch w registry batch s).2.tracker = s.tracker ∧
          ∀ e ∈ s.written (d.dispatch w registry batch s).2, e.isGroup = false) := by
  refine ⟨Dispatcher.failed_iff_stops w d registry batch s err, fun hfailed => ?_⟩
  rcases Dispatcher.halted_or_heeded w d registry batch s with ⟨err', hfailed', hhalted⟩ | ⟨hne, -⟩
  · obtain rfl := Dispatched.failed.inj (hfailed'.symm.trans hfailed)
    refine ⟨hhalted.isFatal, ?_, hhalted.isGroup_of_mem_written⟩
    obtain ⟨e, events, hold, -⟩ := hhalted
    exact hold.tracker
  · exact absurd hfailed (hne err)

namespace Refusal

/-- Surroundings whose worker pools take no jobs any more. -/
def world : World Unit := { Orders.oldest with submit := fun _ s => (false, s) }

/-- The first job stops the dispatch, and the consumer group hears nothing of it. -/
theorem fails :
    (Orders.dispatcher.dispatch world Orders.registry Orders.batch (.start ())).1 =
        .failed (.executor (.poolClosed "shared")) ∧
      ∀ e ∈ (Session.start ()).written
          (Orders.dispatcher.dispatch world Orders.registry Orders.batch (.start ())).2,
        e.isGroup = false := by
  have hfailed : (Orders.dispatcher.dispatch world Orders.registry Orders.batch (.start ())).1 =
      .failed (.executor (.poolClosed "shared")) := by cbv
  obtain ⟨-, -, hgroup⟩ :=
    (dispatch_failed_iff world Orders.dispatcher Orders.registry Orders.batch (.start ()) _).2 hfailed
  exact ⟨hfailed, hgroup⟩

end Refusal

end Relay
