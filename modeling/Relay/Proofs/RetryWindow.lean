import Relay.Proofs.OrderFree
import Relay.Proofs.RetryChains

/-!
# Waits and the window of retries

Whether there may be one more retry is decided by the time since the first attempt. That the retry starts only after a
wait does not enter into it: a retry is always decided on within the window, and it starts there just if its wait fits
into what is left of the window. Only a policy that never waits keeps all its retries within the window.

The instants at which retries start are those at which attempts that rested are launched in the loop of a stage
(`Work.Relaunches`). Each of them was called for by a decision, and rests until the wait is over at least (`Timed`).
-/

namespace Relay

/-! ## Decisions -/

namespace RetryPolicy

variable {p : RetryPolicy} {now : Nat} {a next : Attempt} {giveUp enabled : Bool} {wait : Duration}

/-- There is no retry that has to be waited for. -/
def Waitless (p : RetryPolicy) : Prop :=
  0 < p.window.nanos → ∀ n : UInt32, 1 ≤ n → n ≤ p.times → (p.interval n).nanos = 0

theorem elapsed_lt_window (h : p.decide now a giveUp enabled = .retry next wait) :
    (a.elapsed now).nanos < p.window.nanos := by
  obtain ⟨-, -, hpermits, -⟩ := decide_eq_retry_iff.1 h
  exact (permits_iff.1 hpermits).2

/-- All waits of a policy end within its window just if there are none. -/
theorem waitless_iff :
    (∀ now a giveUp enabled next wait, p.decide now a giveUp enabled = .retry next wait →
      (a.elapsed now).nanos + wait.nanos < p.window.nanos) ↔ p.Waitless := by
  constructor
  · intro h hwindow n hpos hle
    -- the attempt before the retry fails at the last instant of the window
    have hprior : (n - 1).toNat = n.toNat - 1 := UInt32.toNat_sub_of_le n 1 hpos
    have hone : 1 ≤ n.toNat := UInt32.le_iff_toNat_le.1 hpos
    have htimes : n.toNat ≤ p.times.toNat := UInt32.le_iff_toNat_le.1 hle
    have hnext : (Attempt.mk 0 (n - 1)).next.times = n := UInt32.sub_add_cancel n 1
    have hpermits : p.permits (p.window.nanos - 1) ⟨0, n - 1⟩ = true := by
      refine permits_iff.2 ⟨?_, ?_⟩
      · show (n - 1).toNat < p.times.toNat
        omega
      · show p.window.nanos - 1 - 0 < p.window.nanos
        omega
    have hd := decide_eq_retry_iff.2 ⟨rfl, rfl, hpermits, rfl, rfl⟩
    have hfits : p.window.nanos - 1 - 0 + (p.interval (Attempt.mk 0 (n - 1)).next.times).nanos < p.window.nanos :=
      h _ _ _ _ _ _ hd
    rw [hnext] at hfits
    omega
  · intro h now a giveUp enabled next wait hd
    have hinside := elapsed_lt_window hd
    obtain ⟨-, htimes, hlt⟩ := times_of_decide hd
    obtain ⟨-, -, -, -, rfl⟩ := decide_eq_retry_iff.1 hd
    have hzero : (p.interval next.times).nanos = 0 := by
      refine h (by omega) _ (UInt32.le_iff_toNat_le.2 ?_) (UInt32.le_iff_toNat_le.2 ?_)
      · show 1 ≤ next.times.toNat
        omega
      · omega
    omega

end RetryPolicy

/-! ## The loop of a stage -/

namespace Work

variable {σ α τ : Type} {w : World σ} {k : Work σ α τ} {b : Budget} {t : Task α τ} {ts ts' : List (Task α τ)}
  {c c' : Course σ} {now now' instant : Nat}

/-- An attempt that has rested is launched in the course of the loop, at an instant. -/
inductive Relaunches (w : World σ) (k : Work σ α τ) (b : Budget) :
    List (Task α τ) → Course σ → Task α τ → Nat → Prop where
  | next {ts : List (Task α τ)} {c : Course σ} {i : Nat} {world : σ} {t : Task α τ} {wake : Nat}
      (chosen : w.next (ts.map k.outside) c.session.world = (some i, world)) (found : ts[i]? = some t)
      (rests : t.phase = .resting wake) :
      Relaunches w k b ts c t ({ c.session with world }.tick w wake).now
  | later {ts ts' : List (Task α τ)} {c c' : Course σ} {t : Task α τ} {instant : Nat}
      (step : k.step w b ts c = some (.ok ts', c')) (relaunch : Relaunches w k b ts' c' t instant) :
      Relaunches w k b ts c t instant

/-- The clock does not go back when attempts are launched and when they land. -/
structure Onward (k : Work σ α τ) : Prop where
  launch : ∀ {slot item a launch c c'}, k.launch slot item a c = (launch, c') → c.session.now ≤ c'.session.now
  land : ∀ {item ticket landing c c'}, k.land item ticket c = (landing, c') → c.session.now ≤ c'.session.now

/-- An attempt was called for by a failure that was judged at an instant, and rests for the wait. -/
def Called (b : Budget) (a : Attempt) (wake : Nat) : Prop :=
  ∃ prior judged giveUp wait, b.policy.decide judged prior giveUp b.enabled = .retry a wait ∧
    prior.began ≤ judged ∧ wake = judged + wait.nanos

/-- The budget of an attempt has begun, and if the attempt rests, it was called for. -/
structure Timed (b : Budget) (now : Nat) (t : Task α τ) : Prop where
  begun : t.attempt.began ≤ now
  called : ∀ wake, t.phase = .resting wake → Called b t.attempt wake

theorem Timed.mono (h : Timed b now t) (hle : now ≤ now') : Timed b now' t := ⟨Nat.le_trans h.begun hle, h.called⟩

/-- What is left of a failed attempt was called for by its failure. -/
theorem timed_fail (hbegun : t.attempt.began ≤ c.session.now) (giveUp : Bool) :
    c.session.now ≤ (k.fail b t giveUp c).2.session.now ∧
      ∀ t' ∈ (k.fail b t giveUp c).1, Timed b (k.fail b t giveUp c).2.session.now t' := by
  cases hd : b.policy.decide c.session.now t.attempt giveUp b.enabled with
  | abandon reason =>
    obtain ⟨c₁, htell, heq⟩ := fail_abandon (k := k) hd
    rw [heq]
    exact ⟨htell.session.now, by simp⟩
  | retry next wait =>
    obtain ⟨c₁, htell, heq⟩ := fail_retry (k := k) hd
    rw [heq]
    have hnow := htell.session.now
    refine ⟨hnow, ?_⟩
    rintro t' ⟨⟩
    obtain ⟨rfl, -⟩ := RetryPolicy.times_of_decide hd
    refine ⟨Nat.le_trans hbegun hnow, ?_⟩
    rintro wake ⟨⟩
    exact ⟨t.attempt, c.session.now, giveUp, wait, hd, hbegun, rfl⟩

/-- An attempt that does not rest joins the others, once its budget has begun. -/
theorem timed_cons (hts : ∀ u ∈ ts, Timed b now u) (hle : now ≤ now') (hbegun : t.attempt.began ≤ now')
    (hphase : ∀ wake, t.phase ≠ .resting wake) : ∀ u ∈ t :: ts, Timed b now' u :=
  List.forall_mem_cons.2 ⟨⟨hbegun, fun wake hwake => absurd hwake (hphase wake)⟩, fun u hu => (hts u hu).mono hle⟩

/-- An attempt goes on without a rest. -/
theorem timed_onward {t' : Task α τ} (hts : ∀ u ∈ t :: ts, Timed b now u) (hle : now ≤ now')
    (hattempt : t'.attempt = t.attempt) (hphase : ∀ wake, t'.phase ≠ .resting wake) :
    ∀ u ∈ t' :: ts, Timed b now' u := by
  obtain ⟨ht, hts⟩ := List.forall_mem_cons.1 hts
  refine timed_cons hts hle ?_ hphase
  rw [hattempt]
  exact Nat.le_trans ht.begun hle

/-- The attempts in the loop stay timed: only a failure that is judged makes one rest. -/
theorem timed_turns (hk : k.Onward) :
    k.Turns w b (fun ts c => ∀ t ∈ ts, Timed b c.session.now t) fun _ _ => True where
  perm hperm hts t ht := hts t (hperm.mem_iff.2 ht)
  chosen _ hts t ht := (hts t ht).mono (Nat.le_max_left _ _)
  launched _ hts hl := timed_onward hts (hk.launch hl) rfl (by simp)
  unlaunched _ hts hl := timed_onward hts (hk.launch hl) rfl (by simp)
  barred _ _ _ := trivial
  landed _ hts hl t ht := (hts t (List.mem_cons_of_mem _ ht)).mono (hk.land hl)
  crashed _ hts hl := timed_onward hts (hk.land hl) rfl (by simp)
  broken _ _ _ := trivial
  judged := by
    intro t giveUp ts c _ hts u hu
    obtain ⟨ht, hts⟩ := List.forall_mem_cons.1 hts
    obtain ⟨hnow, hrest⟩ := timed_fail (k := k) (b := b) ht.begun giveUp
    rcases List.mem_append.1 hu with hu | hu
    · exact hrest u (Option.mem_toList.1 hu)
    · exact (hts u hu).mono hnow

/-- No first attempt rests. -/
theorem timed_launches (hk : k.Onward) {keep : α → τ → Course σ → Bool × Course σ}
    (hkeep : ∀ item ticket c, c.session.now ≤ (keep item ticket c).2.session.now) :
    k.Launches w keep (fun _ ts c => ∀ t ∈ ts, Timed b c.session.now t) fun _ _ => True where
  ticked hts t ht := (hts t ht).mono (Nat.le_max_left _ _)
  kept := by
    intro item slot items ts c ticket c₁ c' hts hl hkept u hu
    have hnow := hkeep item ticket c₁
    rw [hkept] at hnow
    have hle := Nat.le_trans (hk.launch hl) hnow
    exact timed_cons hts hle hle (by simp) u ((List.perm_append_singleton _ _).mem_iff.1 hu)
  dropped := by
    intro item slot items ts c ticket c₁ c' hts hl hdropped u hu
    have hnow := hkeep item ticket c₁
    rw [hdropped] at hnow
    exact (hts u hu).mono (Nat.le_trans (hk.launch hl) hnow)
  failed := by
    intro item slot items ts c giveUp c' hts hl u hu
    have hle := hk.launch hl
    exact timed_cons hts hle hle (by simp) u ((List.perm_append_singleton _ _).mem_iff.1 hu)
  stopped _ _ := trivial

theorem timed_launchAll (hk : k.Onward) {keep : α → τ → Course σ → Bool × Course σ}
    (hkeep : ∀ item ticket c, c.session.now ≤ (keep item ticket c).2.session.now)
    {items : List (α × Nat)} (h : k.launchAll w keep items c = (.ok ts, c')) :
    ∀ t ∈ ts, Timed b c'.session.now t := by
  have hlaunches : k.Launches w keep (fun _ ts c => ∀ t ∈ ts, Timed b c.session.now t) fun _ _ => True :=
    timed_launches hk hkeep
  have hnone : ∀ t ∈ ([] : List (Task α τ)), Timed b c.session.now t := by simp
  exact (hlaunches.launchAll hnone).1 ts c' h

/-- An attempt that was called for is launched no earlier than its wait is over. -/
theorem Relaunches.called (h : k.Relaunches w b ts c t instant) (hk : k.Onward)
    (hts : ∀ t ∈ ts, Timed b c.session.now t) : ∃ wake ≤ instant, Called b t.attempt wake := by
  induction h with
  | @next _ _ _ _ _ wake _ found rests =>
    refine ⟨wake, ?_, (hts _ (List.mem_of_getElem? found)).called wake rests⟩
    exact Nat.le_trans (Nat.le_max_right _ _) (Nat.le_max_right _ _)
  | later step _ ih => exact ih (((timed_turns hk).step hts).1 _ _ step)

end Work

/-! ## The stages of a dispatch -/

namespace Dispatcher

variable {σ : Type} {w : World σ} {d : Dispatcher} {registry : Registry} {batch : Batch} {s : Session σ}

theorem onward_filterMap (w : World σ) (d : Dispatcher) : (filterMap w d).Onward where
  launch {slot item a launch c c'} h := by
    cases launch with
    | flying job => exact (submit_flying h).2.session.now
    | failed giveUp => exact absurd h submit_ne_failed
    | stopped e => exact (submit_stopped h).2.session.now
  land {item job landing c c'} h := by
    cases landing with
    | done =>
      obtain ⟨outcome, c₁, htell, rfl⟩ := harvest_done h
      split <;> exact htell.session.now
    | failed giveUp =>
      obtain ⟨e, -, htell⟩ := harvest_failed h
      exact htell.session.now
    | stopped e => exact absurd h harvest_ne_stopped

theorem onward_publish (w : World σ) (d : Dispatcher) (registry : Registry) : (publish w d registry).Onward where
  launch {slot m a launch c c'} h := by
    cases launch with
    | flying shipment => exact (send_flying h).2.session.now
    | failed giveUp =>
      obtain ⟨e, news, -, -, -, htell⟩ := send_failed h
      exact htell.session.now
    | stopped e =>
      obtain ⟨cause, news, -, -, htell⟩ := send_stopped h
      exact htell.session.now
  land {m shipment landing c c'} h := by
    cases landing with
    | done =>
      obtain ⟨c₁, htell, rfl⟩ := confirm_done h
      exact htell.session.now
    | failed giveUp =>
      obtain ⟨e, -, -, htell⟩ := confirm_failed h
      exact htell.session.now
    | stopped e =>
      obtain ⟨cause, -, htell⟩ := confirm_stopped h
      exact htell.session.now

/-- The matched records of a batch and the course in which they are filtered and mapped. -/
def opening (w : World σ) (d : Dispatcher) (registry : Registry) (batch : Batch) (s : Session σ) :
    List Routed × Course σ :=
  let subscribers := registry.subscribers d.pipeline
  matchBatch subscribers batch (.start { s with world := w.refresh subscribers s.world })

/-- An attempt at a record that has rested is launched in a stage of a dispatch, at an instant. -/
inductive Relaunches (w : World σ) (d : Dispatcher) (registry : Registry) (batch : Batch) (s : Session σ) :
    Stage → Nat → Attempt → Nat → Prop where
  | filterMap {tasks : List (Task Routed Job)} {c : Course σ} {t : Task Routed Job} {instant : Nat}
      (launched : (filterMap w d).launchAll w (fun _ _ c => (true, c)) (opening w d registry batch s).1.zipIdx
        (opening w d registry batch s).2 = (.ok tasks, c))
      (relaunch : (filterMap w d).Relaunches w d.budget tasks c t instant) :
      Relaunches w d registry batch s .filterMap t.slot t.attempt instant
  | publish {c₁ c : Course σ} {tasks : List (Task Mapped Shipment)} {t : Task Mapped Shipment} {instant : Nat}
      (republishes : d.checkpoint = true)
      (mapped : runFilterMap w d (opening w d registry batch s).1 (opening w d registry batch s).2 = (.over, c₁))
      (launched : (publish w d registry).launchAll w d.awaitDelivery
        ((sorted c₁.mapped.reverse).map fun m => (m, m.slot)) c₁ = (.ok tasks, c))
      (relaunch : (publish w d registry).Relaunches w d.budget tasks c t instant) :
      Relaunches w d registry batch s .publish t.slot t.attempt instant

theorem Relaunches.called {stage : Stage} {slot : Nat} {a : Attempt} {instant : Nat}
    (h : d.Relaunches w registry batch s stage slot a instant) : ∃ wake ≤ instant, Work.Called d.budget a wake := by
  cases h with
  | filterMap launched relaunch =>
    have hk := onward_filterMap w d
    exact relaunch.called hk (Work.timed_launchAll hk (fun _ _ _ => Nat.le_refl _) launched)
  | publish _ _ launched relaunch =>
    have hk := onward_publish w d registry
    have hkeep : ∀ (m : Mapped) (x : Shipment) (c : Course σ), c.session.now ≤ (d.awaitDelivery m x c).2.session.now := by
      intro m x c
      rw [awaitDelivery_eq]
      split <;> exact Nat.le_refl _
    exact relaunch.called hk (Work.timed_launchAll hk hkeep launched)

end Dispatcher

/-- A retry is decided on within the window of its budget and starts when its wait is over, or later. So it starts after
the window if its wait does not fit into what is left of it; a retry that is not late starts within the window just if
its wait fits, and less than the wait after it in any case. That all waits fit holds of the policies that never wait, and
of no others. -/
theorem relaunches_in_window_iff {σ : Type} (w : World σ) (d : Dispatcher) (registry : Registry) (batch : Batch)
    (s : Session σ) :
    let window := d.retry.window.nanos
    ((∀ now a giveUp enabled next wait, d.retry.decide now a giveUp enabled = .retry next wait →
      (a.elapsed now).nanos + wait.nanos < window) ↔ d.retry.Waitless) ∧
    ∀ stage slot a instant, d.Relaunches w registry batch s stage slot a instant →
      ∃ prior now giveUp wait, d.retry.decide now prior giveUp d.level.retries = .retry a wait ∧
        prior.began = a.began ∧ (prior.elapsed now).nanos < window ∧ now + wait.nanos ≤ instant ∧
        (window ≤ (prior.elapsed now).nanos + wait.nanos → a.began + window ≤ instant) ∧
        (instant = now + wait.nanos →
          (instant < a.began + window ↔ (prior.elapsed now).nanos + wait.nanos < window) ∧
          instant < a.began + window + wait.nanos) := by
  intro window
  refine ⟨RetryPolicy.waitless_iff, fun stage slot a instant h => ?_⟩
  obtain ⟨wake, hlate, prior, now, giveUp, wait, hd, hbegun, rfl⟩ := h.called
  have hinside : now - prior.began < window := RetryPolicy.elapsed_lt_window hd
  obtain ⟨rfl, -⟩ := RetryPolicy.times_of_decide hd
  have helapsed : (prior.elapsed now).nanos = now - prior.began := rfl
  have hbegan : prior.next.began = prior.began := rfl
  refine ⟨prior, now, giveUp, wait, hd, rfl, hinside, hlate, fun hlong => ?_, ?_⟩
  · omega
  · rintro rfl
    refine ⟨?_, ?_⟩ <;> omega

namespace Overdue

/-- A window of one second, and two seconds to wait before the first retry. -/
def dispatcher : Dispatcher := { Orders.dispatcher with retry := ⟨2, .ofSeconds 2, none, 3, .ofSeconds 1⟩ }

/-- The first record and its subscriber. -/
def routed : Routed :=
  ⟨⟨"", ⟨false, .all, [⟨"", none, []⟩]⟩, .standard⟩, ⟨⟨⟨"", 0⟩, 0⟩, some [0], [], .null⟩⟩

theorem relaunches_overdue :
    dispatcher.Relaunches Orders.oldest Orders.registry Orders.batch (.start ()) .filterMap 0 ⟨0, 1⟩ 2000000000 := by
  refine .filterMap (t := ⟨0, routed, ⟨0, 1⟩, .resting 2000000000⟩) rfl ?_
  exact .later rfl (.later rfl (.next rfl rfl rfl))

theorem not_waitless : ¬ dispatcher.retry.Waitless := by
  intro h
  have hfirst : (dispatcher.retry.interval 1).nanos = 0 := h (by decide) 1 (by decide) (by decide)
  exact absurd hfirst (by decide)

/-- The job of the first record fails at once, and the second attempt starts a second after the window. -/
theorem relaunched_after_window :
    dispatcher.Relaunches Orders.oldest Orders.registry Orders.batch (.start ()) .filterMap 0 ⟨0, 1⟩ 2000000000 ∧
      (∃ now prior giveUp wait, dispatcher.retry.decide now prior giveUp true = .retry ⟨0, 1⟩ wait ∧
        (prior.elapsed now).nanos < dispatcher.retry.window.nanos ∧ now + wait.nanos ≤ 2000000000) ∧
      (Attempt.mk 0 1).began + dispatcher.retry.window.nanos ≤ 2000000000 ∧
      ∃ now a giveUp enabled next wait, dispatcher.retry.decide now a giveUp enabled = .retry next wait ∧
        dispatcher.retry.window.nanos ≤ (a.elapsed now).nanos + wait.nanos := by
  obtain ⟨hwaitless, hrelaunches⟩ :=
    relaunches_in_window_iff Orders.oldest dispatcher Orders.registry Orders.batch (.start ())
  obtain ⟨prior, now, giveUp, wait, hd, -, hinside, hlate, hclosed, -⟩ := hrelaunches _ _ _ _ relaunches_overdue
  have hwait : wait = .ofSeconds 2 := (RetryPolicy.decide_eq_retry_iff.1 hd).2.2.2.2
  have hlong : dispatcher.retry.window.nanos ≤ (prior.elapsed now).nanos + wait.nanos := by
    rw [hwait]
    exact Nat.le_trans (by decide) (Nat.le_add_left _ _)
  refine ⟨relaunches_overdue, ⟨now, prior, giveUp, wait, hd, hinside, hlate⟩, hclosed hlong, ?_⟩
  have hsome := mt hwaitless.1 not_waitless
  push Not at hsome
  exact hsome

end Overdue

end Relay
