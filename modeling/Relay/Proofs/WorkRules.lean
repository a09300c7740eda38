import Relay.Proofs.WorkSteps

/-!
# Reasoning about work with retries

Most assertions only look at the news and at the records of the batch. `Starts` and `Keeps` list the steps that such an
assertion has to keep, for the launch of the first attempts and for the loop that follows; what is no news keeps it in
any case.

The loop ends if the surroundings always complete something: no attempt takes more steps than its weight.
-/

namespace Relay

namespace Work

variable {σ α τ : Type} {w : World σ} {k : Work σ α τ} {b : Budget} {t : Task α τ}
  {ts : List (Task α τ)} {c c' : Course σ}

/-! ## Launching the first attempts -/

/-- The steps of launching items keep an assertion on the items left, the attempts in flight and the course.
`Q` holds if the dispatch cannot go on. -/
structure Starts (k : Work σ α τ) (keep : α → τ → Course σ → Bool × Course σ)
    (J : List (α × Nat) → List (Task α τ) → Course σ → Prop) (Q : DispatchError → Course σ → Prop) :
    Prop where
  /-- What is no news does no harm. -/
  quiet : ∀ {items ts c c'}, c.Tells [] c' → J items ts c → J items ts c'
  /-- An attempt is in flight and kept there. -/
  kept : ∀ {item slot items ts c ticket c₁ c'}, J ((item, slot) :: items) ts c →
    k.launch slot item (.first c.session.now) c = (.flying ticket, c₁) →
    keep item ticket c₁ = (true, c') →
    J items (ts ++ [⟨slot, item, .first c.session.now, .flying ticket⟩]) c'
  /-- An attempt is in flight and let go. -/
  dropped : ∀ {item slot items ts c ticket c₁ c'}, J ((item, slot) :: items) ts c →
    k.launch slot item (.first c.session.now) c = (.flying ticket, c₁) →
    keep item ticket c₁ = (false, c') → J items ts c'
  /-- An attempt fails at launch. -/
  failed : ∀ {item slot items ts c giveUp c'}, J ((item, slot) :: items) ts c →
    k.launch slot item (.first c.session.now) c = (.failed giveUp, c') →
    J items (ts ++ [⟨slot, item, .first c.session.now, .failed giveUp⟩]) c'
  /-- The dispatch cannot go on. -/
  stopped : ∀ {item slot items ts c e c'}, J ((item, slot) :: items) ts c →
    k.launch slot item (.first c.session.now) c = (.stopped e, c') → Q e c'

theorem Starts.launches {keep : α → τ → Course σ → Bool × Course σ}
    {J : List (α × Nat) → List (Task α τ) → Course σ → Prop} {Q : DispatchError → Course σ → Prop}
    (h : Starts k keep J Q) (w : World σ) : k.Launches w keep J Q where
  ticked hJ := h.quiet (Course.tells_on _ (Session.tells_tick w 0 _)) hJ
  kept := h.kept
  dropped := h.dropped
  failed := h.failed
  stopped := h.stopped

/-- Once all items are launched, the assertion holds of all attempts in flight. -/
theorem Starts.launchAll {keep : α → τ → Course σ → Bool × Course σ}
    {J : List (α × Nat) → List (Task α τ) → Course σ → Prop} {Q : DispatchError → Course σ → Prop}
    (h : Starts k keep J Q) (w : World σ) {items : List (α × Nat)} (hJ : J items ts c) :
    (∀ tasks c', k.launchAll w keep items c = (.ok tasks, c') → J [] (ts ++ tasks) c') ∧
      ∀ e c', k.launchAll w keep items c = (.error e, c') → Q e c' := (h.launches w).launchAll hJ

/-! ## The loop -/

/-- The steps of the loop keep an assertion on the attempts in flight and the course. `Q` holds if the
dispatch cannot go on. -/
structure Keeps (k : Work σ α τ) (b : Budget) (I : List (Task α τ) → Course σ → Prop)
    (Q : DispatchError → Course σ → Prop) : Prop where
  /-- The order of the attempts does not matter. -/
  perm : ∀ {ts ts' c}, ts.Perm ts' → I ts c → I ts' c
  /-- What is no news does no harm. -/
  quiet : ∀ {ts c c'}, c.Tells [] c' → I ts c → I ts c'
  /-- An attempt that rested is in flight again. -/
  launched : ∀ {t wake ts c ticket c'}, t.phase = .resting wake → I (t :: ts) c →
    k.launch t.slot t.item t.attempt c = (.flying ticket, c') →
    I ({ t with phase := .flying ticket } :: ts) c'
  /-- An attempt that rested fails at launch. -/
  unlaunched : ∀ {t wake ts c giveUp c'}, t.phase = .resting wake → I (t :: ts) c →
    k.launch t.slot t.item t.attempt c = (.failed giveUp, c') →
    I ({ t with phase := .failed giveUp } :: ts) c'
  /-- The launch of an attempt stops the dispatch. -/
  barred : ∀ {t wake ts c e c'}, t.phase = .resting wake → I (t :: ts) c →
    k.launch t.slot t.item t.attempt c = (.stopped e, c') → Q e c'
  /-- An attempt lands and is done. -/
  landed : ∀ {t ticket ts c c'}, t.phase = .flying ticket → I (t :: ts) c →
    k.land t.item ticket c = (.done, c') → I ts c'
  /-- An attempt lands and has failed. -/
  crashed : ∀ {t ticket ts c giveUp c'}, t.phase = .flying ticket → I (t :: ts) c →
    k.land t.item ticket c = (.failed giveUp, c') → I ({ t with phase := .failed giveUp } :: ts) c'
  /-- The landing of an attempt stops the dispatch. -/
  broken : ∀ {t ticket ts c e c'}, t.phase = .flying ticket → I (t :: ts) c →
    k.land t.item ticket c = (.stopped e, c') → Q e c'
  /-- A failed attempt is judged worth another one. -/
  retried : ∀ {t giveUp ts c attempt backoff c'} wake, t.phase = .failed giveUp → I (t :: ts) c →
    b.policy.decide c.session.now t.attempt giveUp b.enabled = .retry attempt backoff →
    c.Tells [.judged k.stage t.slot t.attempt c.session.now (.retry attempt backoff)] c' →
    I ({ t with attempt, phase := .resting wake } :: ts) c'
  /-- A failed attempt is judged the last one of its record. -/
  abandoned : ∀ {t giveUp ts c reason c'}, t.phase = .failed giveUp → I (t :: ts) c →
    b.policy.decide c.session.now t.attempt giveUp b.enabled = .abandon reason →
    c.Tells [.judged k.stage t.slot t.attempt c.session.now (.abandon reason)] c' →
    I ts (c'.abandon (k.place t.item))

namespace Keeps

variable {I : List (Task α τ) → Course σ → Prop} {Q : DispatchError → Course σ → Prop}

theorem judged (h : Keeps k b I Q) {giveUp : Bool} (hp : t.phase = .failed giveUp) (hI : I (t :: ts) c) :
    I ((k.fail b t giveUp c).1.toList ++ ts) (k.fail b t giveUp c).2 := by
  cases hd : b.policy.decide c.session.now t.attempt giveUp b.enabled with
  | retry attempt backoff =>
    obtain ⟨c', htell, heq⟩ := fail_retry (k := k) hd
    rw [heq]
    exact h.retried _ hp hI hd htell
  | abandon reason =>
    obtain ⟨c', htell, heq⟩ := fail_abandon (k := k) hd
    rw [heq]
    exact h.abandoned hp hI hd htell

theorem turns (h : Keeps k b I Q) (w : World σ) : k.Turns w b I Q where
  perm := h.perm
  chosen _ hI := h.quiet (Course.tells_on _ ((Session.tells_world ..).quiet (Session.tells_tick ..))) hI
  launched := h.launched
  unlaunched := h.unlaunched
  barred := h.barred
  landed := h.landed
  crashed := h.crashed
  broken := h.broken
  judged := h.judged

theorem finish (h : Keeps k b I Q) (w : World σ) (hI : I ts c) :
    (∀ c', k.finish w b ts c = (.over, c') → I [] c') ∧
      (∀ e c', k.finish w b ts c = (.stopped e, c') → Q e c') ∧
      ∀ c', k.finish w b ts c = (.stuck, c') → ∃ ts', I ts' c' := (h.turns w).finish hI

theorem and {I' : List (Task α τ) → Course σ → Prop} {Q' : DispatchError → Course σ → Prop}
    (h : Keeps k b I Q) (h' : Keeps k b I' Q') :
    Keeps k b (fun ts c => I ts c ∧ I' ts c) (fun e c => Q e c ∧ Q' e c) where
  perm hp hI := ⟨h.perm hp hI.1, h'.perm hp hI.2⟩
  quiet ht hI := ⟨h.quiet ht hI.1, h'.quiet ht hI.2⟩
  launched hp hI hl := ⟨h.launched hp hI.1 hl, h'.launched hp hI.2 hl⟩
  unlaunched hp hI hl := ⟨h.unlaunched hp hI.1 hl, h'.unlaunched hp hI.2 hl⟩
  barred hp hI hl := ⟨h.barred hp hI.1 hl, h'.barred hp hI.2 hl⟩
  landed hp hI hl := ⟨h.landed hp hI.1 hl, h'.landed hp hI.2 hl⟩
  crashed hp hI hl := ⟨h.crashed hp hI.1 hl, h'.crashed hp hI.2 hl⟩
  broken hp hI hl := ⟨h.broken hp hI.1 hl, h'.broken hp hI.2 hl⟩
  retried wake hp hI hd ht := ⟨h.retried wake hp hI.1 hd ht, h'.retried wake hp hI.2 hd ht⟩
  abandoned hp hI hd ht := ⟨h.abandoned hp hI.1 hd ht, h'.abandoned hp hI.2 hd ht⟩

/-- An item that is still to be launched is like an attempt at rest, so that what the loop keeps is kept at
the start too. Its budget begins when it is launched; until then it counts as begun at `floor`. -/
theorem starts_from (h : Keeps k b I Q) (floor : Nat) (keep : α → τ → Course σ → Bool × Course σ)
    (hbegan : ∀ {t : Task α τ} {ts c}, t.attempt = .first floor → t.phase = .resting 0 → I (t :: ts) c →
      I ({ t with attempt := .first c.session.now } :: ts) c)
    (hkept : ∀ {item ticket ts c c'}, I ts c → keep item ticket c = (true, c') → I ts c')
    (hdropped : ∀ {t ticket ts c c'}, t.phase = .flying ticket → I (t :: ts) c →
      keep t.item ticket c = (false, c') → I ts c') :
    Starts k keep
      (fun items ts c => I (items.map (fun x => ⟨x.2, x.1, .first floor, .resting 0⟩) ++ ts) c) Q where
  quiet := h.quiet
  kept := by
    intro item slot items ts c ticket c₁ c' hI hl hk
    refine h.perm ?_ (hkept (h.launched rfl (hbegan rfl rfl hI) hl) hk)
    rw [← List.append_assoc]
    exact (List.perm_append_singleton _ _).symm
  dropped := by
    intro item slot items ts c ticket c₁ c' hI hl hk
    have hI := h.launched rfl (hbegan rfl rfl hI) hl
    exact hdropped rfl hI hk
  failed := by
    intro item slot items ts c giveUp c' hI hl
    refine h.perm ?_ (h.unlaunched rfl (hbegan rfl rfl hI) hl)
    rw [← List.append_assoc]
    exact (List.perm_append_singleton _ _).symm
  stopped := by
    intro item slot items ts c e c' hI hl
    exact h.barred rfl (hbegan rfl rfl hI) hl

/-- Where it does not matter when an attempt began, an item that is still to be launched counts as begun at
the start of all time. -/
theorem starts (h : Keeps k b I Q) (keep : α → τ → Course σ → Bool × Course σ)
    (hbegan : ∀ {t : Task α τ} {ts c} began, I (t :: ts) c →
      I ({ t with attempt := { t.attempt with began } } :: ts) c)
    (hkept : ∀ {item ticket ts c c'}, I ts c → keep item ticket c = (true, c') → I ts c')
    (hdropped : ∀ {t ticket ts c c'}, t.phase = .flying ticket → I (t :: ts) c →
      keep t.item ticket c = (false, c') → I ts c') :
    Starts k keep (fun items ts c => I (items.map (fun x => ⟨x.2, x.1, .first 0, .resting 0⟩) ++ ts) c)
      Q := by
  refine h.starts_from 0 keep (fun {t ts c} ha _ hI => ?_) hkept hdropped
  have hI := hbegan c.session.now hI
  rwa [ha] at hI

end Keeps

end Work

/-! ## The two stages -/

namespace Dispatcher

variable {σ : Type} {w : World σ} {d : Dispatcher} {registry : Registry} {c : Course σ}

/-- Sorting changes only the order in which payloads are launched. -/
theorem sorted_perm (mapped : List Mapped) : (sorted mapped.reverse).Perm mapped :=
  (List.mergeSort_perm _ _).trans (List.reverse_perm _)

/-- Filtering and mapping are reasoned about step by step. -/
theorem runFilterMap_spec {J : List (Routed × Nat) → List (Task Routed Job) → Course σ → Prop}
    {I : List (Task Routed Job) → Course σ → Prop} {Q : DispatchError → Course σ → Prop}
    {matched : List Routed} (hstarts : (filterMap w d).Starts (fun _ _ c => (true, c)) J Q)
    (hkeeps : (filterMap w d).Keeps d.budget I Q) (hstart : ∀ ts c, J [] ts c → I ts c)
    (h : J matched.zipIdx [] c) :
    (∀ c', runFilterMap w d matched c = (.over, c') → I [] c') ∧
      (∀ e c', runFilterMap w d matched c = (.stopped e, c') → Q e c') ∧
      ∀ c', runFilterMap w d matched c = (.stuck, c') → ∃ ts, I ts c' :=
  runFilterMap_turns (hstarts.launches w) (hkeeps.turns w) hstart h

/-- Publishing is reasoned about step by step. -/
theorem runPublish_spec {J : List (Mapped × Nat) → List (Task Mapped Shipment) → Course σ → Prop}
    {I : List (Task Mapped Shipment) → Course σ → Prop} {Q : DispatchError → Course σ → Prop}
    (hstarts : (publish w d registry).Starts d.awaitDelivery J Q)
    (hkeeps : (publish w d registry).Keeps d.budget I Q) (hstart : ∀ ts c, J [] ts c → I ts c)
    (h : J ((sorted c.mapped.reverse).map fun m => (m, m.slot)) [] c) :
    (∀ c', runPublish w d registry c = (.over, c') → I [] c') ∧
      (∀ e c', runPublish w d registry c = (.stopped e, c') → Q e c') ∧
      ∀ c', runPublish w d registry c = (.stuck, c') → ∃ ts, I ts c' :=
  runPublish_turns (hstarts.launches w) (hkeeps.turns w) hstart (fun _ => hkeeps.quiet (tells_flushUsed _)) h

/-! ## The whole batch -/

/-- The course of a batch that is matched: the idle places are settled, and nothing else has happened. -/
structure Begins (subscribers : List Subscriber) (batch : Batch) (s : Session σ) (c : Course σ) : Prop where
  /-- There is no news. -/
  session : s.Tells [] c.session
  /-- The idle places are settled. -/
  ledger : c.ledger = (idle subscribers batch).foldl Ledger.settle .empty
  /-- The records and messages are counted. -/
  summary : c.summary =
    { Summary.empty with
      matched := (Matching.ofRecords subscribers batch.records).matched.length
      unmatched := (Matching.ofRecords subscribers batch.records).unmatched.length
      undecodable := batch.errors.length }
  /-- Nothing is mapped yet. -/
  mapped : c.mapped = []

theorem begins_matchBatch (subscribers : List Subscriber) (batch : Batch) {s s' : Session σ}
    (h : s.Tells [] s') :
    (matchBatch subscribers batch (.start s')).1 = (Matching.ofRecords subscribers batch.records).matched ∧
      Begins subscribers batch s (matchBatch subscribers batch (.start s')).2 := by
  obtain ⟨c, htell, heq⟩ := matchBatch_eq subscribers batch (.start s')
  rw [Course.settleAll_eq] at htell
  rw [heq]
  exact ⟨rfl, h.quiet htell.session, htell.ledger, rfl, htell.mapped⟩

/-- A dispatch is reasoned about stage by stage: it ends where one of its stages stops, or it concludes what
its last stage left behind. What is asserted of publishing may speak of the course `c₁` in which filtering and
mapping ended. -/
theorem dispatch_stages (batch : Batch) (s : Session σ)
    {J₁ : List (Routed × Nat) → List (Task Routed Job) → Course σ → Prop}
    {I₁ : List (Task Routed Job) → Course σ → Prop} {Q₁ : DispatchError → Course σ → Prop}
    {J₂ : Course σ → List (Mapped × Nat) → List (Task Mapped Shipment) → Course σ → Prop}
    {I₂ : Course σ → List (Task Mapped Shipment) → Course σ → Prop}
    {Q₂ : Course σ → DispatchError → Course σ → Prop}
    (hstarts₁ : (filterMap w d).Starts (fun _ _ c => (true, c)) J₁ Q₁)
    (hkeeps₁ : (filterMap w d).Keeps d.budget I₁ Q₁) (hstart₁ : ∀ ts c, J₁ [] ts c → I₁ ts c)
    (hstarts₂ : ∀ c₁, (publish w d registry).Starts d.awaitDelivery (J₂ c₁) (Q₂ c₁))
    (hkeeps₂ : ∀ c₁, (publish w d registry).Keeps d.budget (I₂ c₁) (Q₂ c₁))
    (hstart₂ : ∀ c₁ ts c, J₂ c₁ [] ts c → I₂ c₁ ts c)
    (hbegin : ∀ c, Begins (registry.subscribers d.pipeline) batch s c →
      J₁ (Matching.ofRecords (registry.subscribers d.pipeline) batch.records).matched.zipIdx [] c)
    (hbetween : ∀ c₁, d.checkpoint = true → I₁ [] c₁ →
      J₂ c₁ ((sorted c₁.mapped.reverse).map fun m => (m, m.slot)) [] c₁) :
    (∀ e s', d.dispatch w registry batch s = (.failed e, s') →
        ∃ c, (Q₁ e c ∨ d.checkpoint = true ∧ ∃ c₁, I₁ [] c₁ ∧ Q₂ c₁ e c) ∧ c.session.Tells [] s') ∧
      (∀ s', d.dispatch w registry batch s = (.stuck, s') →
        ∃ c, ((∃ ts, I₁ ts c) ∨ d.checkpoint = true ∧ ∃ c₁, I₁ [] c₁ ∧ ∃ ts, I₂ c₁ ts c) ∧
          s' = c.session) ∧
      ∀ summary ledger s', d.dispatch w registry batch s = (.done summary ledger, s') →
        ∃ c c₁, conclude w d c = (.done summary ledger, s') ∧ I₁ [] c₁ ∧
          if d.checkpoint then I₂ c₁ [] c
          else c = c₁.settleAll ((sorted c₁.mapped.reverse).map (·.routed.coordinates)) := by
  obtain ⟨hmatched, hbegins⟩ := begins_matchBatch (registry.subscribers d.pipeline) batch
    (Session.tells_world (w.refresh (registry.subscribers d.pipeline) s.world) s)
  simp only [dispatch, hmatched]
  revert hbegins
  generalize (matchBatch (registry.subscribers d.pipeline) batch _).2 = c₀
  intro hbegins
  obtain ⟨hover, hstopped, hstuck⟩ := runFilterMap_spec hstarts₁ hkeeps₁ hstart₁ (hbegin _ hbegins)
  rcases hf : runFilterMap w d
    (Matching.ofRecords (registry.subscribers d.pipeline) batch.records).matched c₀ with ⟨_ | e | _, c₁⟩
  · have h₁ := hover _ hf
    cases hc : d.checkpoint with
    | false =>
      refine ⟨by simp [conclude], by simp [conclude], fun summary ledger s' h => ?_⟩
      exact ⟨_, c₁, by simpa using h, h₁, by simp⟩
    | true =>
      obtain ⟨hover, hstopped, hstuck⟩ :=
        runPublish_spec (hstarts₂ c₁) (hkeeps₂ c₁) (hstart₂ c₁) (hbetween _ hc h₁)
      simp only [if_true, true_and]
      rcases hp : runPublish w d registry c₁ with ⟨_ | e | _, c₂⟩
      · refine ⟨by simp [conclude], by simp [conclude], fun summary ledger s' h => ?_⟩
        exact ⟨c₂, c₁, h, h₁, hover _ hp⟩
      · refine ⟨?_, by simp, by simp⟩
        rintro _ _ ⟨⟩
        exact ⟨c₂, .inr ⟨c₁, h₁, hstopped _ _ hp⟩, .refl _⟩
      · refine ⟨by simp, ?_, by simp⟩
        rintro _ ⟨⟩
        exact ⟨c₂, .inr ⟨c₁, h₁, hstuck _ hp⟩, rfl⟩
  · refine ⟨?_, by simp, by simp⟩
    rintro _ _ ⟨⟩
    exact ⟨c₁, .inl (hstopped _ _ hf), Session.tells_world ..⟩
  · refine ⟨by simp, ?_, by simp⟩
    rintro _ ⟨⟩
    exact ⟨c₁, .inl (hstuck _ hf), rfl⟩

/-- The same where nothing has to be known of the course between the stages. -/
theorem dispatch_spec (batch : Batch) (s : Session σ)
    {J₁ : List (Routed × Nat) → List (Task Routed Job) → Course σ → Prop}
    {I₁ : List (Task Routed Job) → Course σ → Prop}
    {J₂ : List (Mapped × Nat) → List (Task Mapped Shipment) → Course σ → Prop}
    {I₂ : List (Task Mapped Shipment) → Course σ → Prop} {Q : DispatchError → Course σ → Prop}
    (hstarts₁ : (filterMap w d).Starts (fun _ _ c => (true, c)) J₁ Q)
    (hkeeps₁ : (filterMap w d).Keeps d.budget I₁ Q) (hstart₁ : ∀ ts c, J₁ [] ts c → I₁ ts c)
    (hstarts₂ : (publish w d registry).Starts d.awaitDelivery J₂ Q)
    (hkeeps₂ : (publish w d registry).Keeps d.budget I₂ Q) (hstart₂ : ∀ ts c, J₂ [] ts c → I₂ ts c)
    (hbegin : ∀ c, Begins (registry.subscribers d.pipeline) batch s c →
      J₁ (Matching.ofRecords (registry.subscribers d.pipeline) batch.records).matched.zipIdx [] c)
    (hbetween : ∀ c, I₁ [] c → J₂ ((sorted c.mapped.reverse).map fun m => (m, m.slot)) [] c) :
    (∀ e s', d.dispatch w registry batch s = (.failed e, s') → ∃ c, Q e c ∧ c.session.Tells [] s') ∧
      (∀ s', d.dispatch w registry batch s = (.stuck, s') →
        ∃ c, ((∃ ts, I₁ ts c) ∨ ∃ ts, I₂ ts c) ∧ s' = c.session) ∧
      ∀ summary ledger s', d.dispatch w registry batch s = (.done summary ledger, s') →
        ∃ c, conclude w d c = (.done summary ledger, s') ∧
          if d.checkpoint then I₂ [] c
          else ∃ c₁, I₁ [] c₁ ∧
            c = c₁.settleAll ((sorted c₁.mapped.reverse).map (·.routed.coordinates)) := by
  obtain ⟨hfailed, hstuck, hdone⟩ := dispatch_stages batch s hstarts₁ hkeeps₁ hstart₁ (fun _ => hstarts₂)
    (fun _ => hkeeps₂) (fun _ => hstart₂) hbegin (fun c₁ _ h => hbetween c₁ h)
  refine ⟨fun e s' h => ?_, fun s' h => ?_, fun summary ledger s' h => ?_⟩
  · obtain ⟨c, hQ | ⟨-, c₁, -, hQ⟩, htell⟩ := hfailed e s' h
    · exact ⟨c, hQ, htell⟩
    · exact ⟨c, hQ, htell⟩
  · obtain ⟨c, hI | ⟨-, c₁, -, hI⟩, rfl⟩ := hstuck s' h
    · exact ⟨c, .inl hI, rfl⟩
    · exact ⟨c, .inr hI, rfl⟩
  · obtain ⟨c, c₁, hconclude, h₁, hc⟩ := hdone summary ledger s' h
    refine ⟨c, hconclude, ?_⟩
    split at hc
    · next hcheckpoint => rwa [if_pos hcheckpoint]
    · next hcheckpoint =>
      rw [if_neg hcheckpoint]
      exact ⟨c₁, h₁, hc⟩

end Dispatcher

/-! ## The end of the loop -/

/-- Surroundings in which some of the work that is waited for always completes. -/
def World.Live {σ : Type} (w : World σ) : Prop :=
  ∀ waiting world, waiting ≠ [] → ∃ i < waiting.length, ∃ world', w.next waiting world = (some i, world')

theorem RetryPolicy.times_of_decide {p : RetryPolicy} {now : Nat} {a next : Attempt} {giveUp enabled : Bool}
    {backoff : Duration} (h : p.decide now a giveUp enabled = .retry next backoff) :
    next = a.next ∧ next.times.toNat = a.times.toNat + 1 ∧ a.times.toNat < p.times.toNat := by
  cases giveUp <;> cases enabled <;> cases hpermits : p.permits now a <;> simp [decide, hpermits] at h
  obtain ⟨rfl, -⟩ := h
  simp only [permits, Bool.and_eq_true, decide_eq_true_eq, UInt32.lt_iff_toNat_lt] at hpermits
  have hlt := hpermits.1
  have := p.times.toNat_lt
  refine ⟨rfl, ?_, hlt⟩
  rw [Attempt.next, UInt32.toNat_add]
  exact Nat.mod_eq_of_lt (by simp; omega)

theorem Task.weight_pos {α τ : Type} (t : Task α τ) (p : RetryPolicy) : 0 < t.weight p := by
  unfold Task.weight
  split <;> omega

namespace Work

variable {σ α τ : Type} {w : World σ} {k : Work σ α τ} {b : Budget} {t : Task α τ}
  {ts : List (Task α τ)} {c c' : Course σ}

/-- What is left of a failed attempt weighs less than an attempt that failed at launch. -/
theorem weight_fail_lt (t : Task α τ) (giveUp : Bool) (c : Course σ) :
    ∀ t' ∈ (k.fail b t giveUp c).1,
      t'.weight b.policy < 2 * (b.policy.times.toNat - t.attempt.times.toNat) + 1 := by
  rintro t' ht'
  cases hd : b.policy.decide c.session.now t.attempt giveUp b.enabled with
  | abandon reason =>
    obtain ⟨_, -, heq⟩ := fail_abandon (k := k) hd
    simp [heq] at ht'
  | retry attempt backoff =>
    obtain ⟨-, htimes, hlt⟩ := RetryPolicy.times_of_decide hd
    obtain ⟨_, -, heq⟩ := fail_retry (k := k) hd
    rw [heq] at ht'
    obtain rfl := Option.some.inj ht'
    simp only [Task.weight, htimes]
    omega

/-- An attempt that takes a step loses weight. -/
theorem weight_advance_lt {rest : Option (Task α τ)} (h : k.advance b t c = (.ok rest, c')) :
    ∀ t' ∈ rest, t'.weight b.policy < t.weight b.policy := by
  have hfail := weight_fail_lt (k := k) (b := b) t
  simp only [advance] at h
  split at h
  · next wake hp =>
    have hw : t.weight b.policy = 2 * (b.policy.times.toNat - t.attempt.times.toNat) + 2 := by
      simp [Task.weight, hp]
    split at h
    · obtain ⟨hrest, -⟩ := Prod.mk.inj h
      obtain rfl := Except.ok.inj hrest
      rintro t' ht'
      obtain rfl := Option.some.inj ht'
      simp [Task.weight, hp]
    · obtain ⟨hrest, -⟩ := Prod.mk.inj h
      obtain rfl := Except.ok.inj hrest
      intro t' ht'
      have := hfail _ _ t' ht'
      omega
    · simp at h
  · next ticket hp =>
    have hw : t.weight b.policy = 2 * (b.policy.times.toNat - t.attempt.times.toNat) + 1 := by
      simp [Task.weight, hp]
    split at h
    · obtain ⟨hrest, -⟩ := Prod.mk.inj h
      obtain rfl := Except.ok.inj hrest
      simp
    · obtain ⟨hrest, -⟩ := Prod.mk.inj h
      obtain rfl := Except.ok.inj hrest
      intro t' ht'
      have := hfail _ _ t' ht'
      omega
    · simp at h
  · next giveUp hp =>
    have hw : t.weight b.policy = 2 * (b.policy.times.toNat - t.attempt.times.toNat) + 1 := by
      simp [Task.weight, hp]
    obtain ⟨hrest, -⟩ := Prod.mk.inj h
    obtain rfl := Except.ok.inj hrest
    intro t' ht'
    have := hfail _ _ t' ht'
    omega

/-- The weight of all attempts in flight. -/
def load (p : RetryPolicy) (ts : List (Task α τ)) : Nat := (ts.map (·.weight p)).foldr (· + ·) 0

theorem load_perm {p : RetryPolicy} {ts ts' : List (Task α τ)} (h : ts.Perm ts') :
    load p ts = load p ts' := by
  induction h with
  | nil => rfl
  | cons t _ ih => exact congrArg (t.weight p + ·) ih
  | swap t t' ts => exact Nat.add_left_comm _ _ _
  | trans _ _ ih₁ ih₂ => exact ih₁.trans ih₂

/-- In surroundings where work completes, a step is taken and the load shrinks. -/
theorem step_of_live (hw : w.Live) (hts : ts ≠ []) :
    ∃ r c', k.step w b ts c = some (r, c') ∧
      ∀ ts', r = .ok ts' → load b.policy ts' < load b.policy ts := by
  obtain ⟨i, hi, world, hn⟩ := hw (ts.map k.outside) c.session.world (by simpa using hts)
  rw [List.length_map] at hi
  simp only [step, hn, List.getElem?_eq_getElem hi]
  rcases ha : k.advance b ts[i] _ with ⟨e | rest, c'⟩
  · exact ⟨_, _, rfl, by simp⟩
  · refine ⟨_, _, rfl, ?_⟩
    rintro ts' ⟨⟩
    have hload : load b.policy ts = ts[i].weight b.policy + load b.policy (ts.eraseIdx i) :=
      load_perm (List.getElem_cons_eraseIdx_perm hi).symm
    rw [hload, load_perm List.perm_append_comm]
    cases rest with
    | none => exact Nat.lt_add_of_pos_left (ts[i].weight_pos b.policy)
    | some t' => exact Nat.add_lt_add_right (weight_advance_lt ha t' rfl) _

/-- In surroundings where work completes, the loop ends if it may take as many steps as the load. -/
theorem run_ne_stuck (hw : w.Live) {fuel : Nat} (hfuel : load b.policy ts ≤ fuel) :
    k.run w b fuel ts c ≠ (.stuck, c') := by
  induction fuel generalizing ts c with
  | zero =>
    cases ts with
    | nil => simp [run]
    | cons t ts =>
      have hpos := t.weight_pos b.policy
      have hload : load b.policy (t :: ts) = t.weight b.policy + load b.policy ts := rfl
      omega
  | succ fuel ih =>
    cases ts with
    | nil => simp [run]
    | cons t ts =>
      obtain ⟨r, c₁, hs, hlt⟩ := step_of_live (k := k) (b := b) (c := c) hw (List.cons_ne_nil t ts)
      simp only [run, hs]
      cases r with
      | error e => simp
      | ok ts' => exact ih (by have := hlt ts' rfl; omega)

theorem finish_ne_stuck (hw : w.Live) : k.finish w b ts c ≠ (.stuck, c') := run_ne_stuck hw (Nat.le_refl _)

end Work

/-- In surroundings where work completes, a dispatch ends. -/
theorem Dispatcher.dispatch_ne_stuck {σ : Type} {w : World σ} (hw : w.Live) (d : Dispatcher)
    (registry : Registry) (batch : Batch) (s s' : Session σ) :
    d.dispatch w registry batch s ≠ (.stuck, s') := by
  have hfilter : ∀ matched (c c' : Course σ), runFilterMap w d matched c ≠ (.stuck, c') := by
    intro matched c c' h
    simp only [runFilterMap] at h
    split at h
    · simp at h
    · exact Work.finish_ne_stuck hw h
  have hpublish : ∀ c c' : Course σ, runPublish w d registry c ≠ (.stuck, c') := by
    intro c c' h
    simp only [runPublish] at h
    split at h
    · simp at h
    · split at h
      · simp at h
      · next hne heq =>
        obtain ⟨rfl, -⟩ := Prod.mk.inj h
        exact Work.finish_ne_stuck hw heq
  intro h
  simp only [dispatch] at h
  split at h
  · simp at h
  · next heq => exact hfilter _ _ _ heq
  · split at h
    · split at h
      · simp at h
      · next heq => exact hpublish _ _ heq
      · simp [conclude] at h
    · simp [conclude] at h

end Relay
