import Mathlib.Data.List.Perm.Basic
import Relay.Proofs.News

/-!
# The steps of work with retries

An assertion on the attempts in flight and on the course of the batch is carried through a stage by looking at each of
its steps once: `Launches` lists the steps of the first launches, `Turns` those of the loop that follows. In what order
attempts land is settled here, so that no later proof speaks of it. The steps are those of the definitions, with
everything they write down.
-/

namespace Relay

namespace Work

variable {σ α τ : Type} {w : World σ} {k : Work σ α τ} {b : Budget} {t : Task α τ} {ts : List (Task α τ)}
  {c c' : Course σ}

/-! ## Launching the first attempts -/

/-- The steps of launching items keep an assertion on the items left, the attempts in flight and the course.
`Q` holds if the dispatch cannot go on. -/
structure Launches (k : Work σ α τ) (w : World σ) (keep : α → τ → Course σ → Bool × Course σ)
    (J : List (α × Nat) → List (Task α τ) → Course σ → Prop) (Q : DispatchError → Course σ → Prop) : Prop where
  /-- The clock is read. -/
  ticked : ∀ {items ts c}, J items ts c → J items ts (c.on (·.tick w 0))
  /-- An attempt is in flight and kept there. -/
  kept : ∀ {item slot items ts c ticket c₁ c'}, J ((item, slot) :: items) ts c →
    k.launch slot item (.first c.session.now) c = (.flying ticket, c₁) → keep item ticket c₁ = (true, c') →
    J items (ts ++ [⟨slot, item, .first c.session.now, .flying ticket⟩]) c'
  /-- An attempt is in flight and let go. -/
  dropped : ∀ {item slot items ts c ticket c₁ c'}, J ((item, slot) :: items) ts c →
    k.launch slot item (.first c.session.now) c = (.flying ticket, c₁) → keep item ticket c₁ = (false, c') →
    J items ts c'
  /-- An attempt fails at launch. -/
  failed : ∀ {item slot items ts c giveUp c'}, J ((item, slot) :: items) ts c →
    k.launch slot item (.first c.session.now) c = (.failed giveUp, c') →
    J items (ts ++ [⟨slot, item, .first c.session.now, .failed giveUp⟩]) c'
  /-- The dispatch cannot go on. -/
  stopped : ∀ {item slot items ts c e c'}, J ((item, slot) :: items) ts c →
    k.launch slot item (.first c.session.now) c = (.stopped e, c') → Q e c'

/-- Once all items are launched, the assertion holds of all attempts in flight. -/
theorem Launches.launchAll {keep : α → τ → Course σ → Bool × Course σ}
    {J : List (α × Nat) → List (Task α τ) → Course σ → Prop} {Q : DispatchError → Course σ → Prop}
    (h : k.Launches w keep J Q) {items : List (α × Nat)} (hJ : J items ts c) :
    (∀ tasks c', k.launchAll w keep items c = (.ok tasks, c') → J [] (ts ++ tasks) c') ∧
      ∀ e c', k.launchAll w keep items c = (.error e, c') → Q e c' := by
  induction items generalizing ts c with
  | nil =>
    refine ⟨?_, by simp [Work.launchAll]⟩
    rintro tasks c' ⟨⟩
    simpa using hJ
  | cons x items ih =>
    obtain ⟨item, slot⟩ := x
    have hJ := h.ticked hJ
    simp only [Work.launchAll]
    generalize c.on (·.tick w 0) = c at hJ
    rcases hl : k.launch slot item (.first c.session.now) c with ⟨ticket | giveUp | e, c₁⟩ <;> simp only
    · rcases hk : keep item ticket c₁ with ⟨kept, c₂⟩
      cases kept with
      | false =>
        obtain ⟨hok, herror⟩ := ih (h.dropped hJ hl hk)
        rcases hr : k.launchAll w keep items c₂ with ⟨e | tasks, c₃⟩
        · exact ⟨by simp, by rintro _ _ ⟨⟩; exact herror _ _ hr⟩
        · exact ⟨by rintro _ _ ⟨⟩; exact hok _ _ hr, by simp⟩
      | true =>
        obtain ⟨hok, herror⟩ := ih (h.kept hJ hl hk)
        rcases hr : k.launchAll w keep items c₂ with ⟨e | tasks, c₃⟩
        · exact ⟨by simp, by rintro _ _ ⟨⟩; exact herror _ _ hr⟩
        · exact ⟨by rintro _ _ ⟨⟩; simpa using hok _ _ hr, by simp⟩
    · obtain ⟨hok, herror⟩ := ih (h.failed hJ hl)
      rcases hr : k.launchAll w keep items c₁ with ⟨e | tasks, c₂⟩
      · exact ⟨by simp, by rintro _ _ ⟨⟩; exact herror _ _ hr⟩
      · exact ⟨by rintro _ _ ⟨⟩; simpa using hok _ _ hr, by simp⟩
    · exact ⟨by simp, by rintro _ _ ⟨⟩; exact h.stopped hJ hl⟩

/-! ## The loop -/

/-- The steps of the loop keep an assertion on the attempts in flight and the course. `Q` holds if the
dispatch cannot go on. -/
structure Turns (k : Work σ α τ) (w : World σ) (b : Budget) (I : List (Task α τ) → Course σ → Prop)
    (Q : DispatchError → Course σ → Prop) : Prop where
  /-- The order of the attempts does not matter. -/
  perm : ∀ {ts ts' c}, ts.Perm ts' → I ts c → I ts' c
  /-- The surroundings choose an attempt, and the clock is read once it is due. -/
  chosen : ∀ {ts c} least, I ts c →
    I ts (c.on fun s => { s with world := (w.next (ts.map k.outside) s.world).2 }.tick w least)
  /-- An attempt that rested is in flight again. -/
  launched : ∀ {t wake ts c ticket c'}, t.phase = .resting wake → I (t :: ts) c →
    k.launch t.slot t.item t.attempt c = (.flying ticket, c') → I ({ t with phase := .flying ticket } :: ts) c'
  /-- An attempt that rested fails at launch. -/
  unlaunched : ∀ {t wake ts c giveUp c'}, t.phase = .resting wake → I (t :: ts) c →
    k.launch t.slot t.item t.attempt c = (.failed giveUp, c') → I ({ t with phase := .failed giveUp } :: ts) c'
  /-- The launch of an attempt stops the dispatch. -/
  barred : ∀ {t wake ts c e c'}, t.phase = .resting wake → I (t :: ts) c →
    k.launch t.slot t.item t.attempt c = (.stopped e, c') → Q e c'
  /-- An attempt lands and is done. -/
  landed : ∀ {t ticket ts c c'}, t.phase = .flying ticket → I (t :: ts) c → k.land t.item ticket c = (.done, c') →
    I ts c'
  /-- An attempt lands and has failed. -/
  crashed : ∀ {t ticket ts c giveUp c'}, t.phase = .flying ticket → I (t :: ts) c →
    k.land t.item ticket c = (.failed giveUp, c') → I ({ t with phase := .failed giveUp } :: ts) c'
  /-- The landing of an attempt stops the dispatch. -/
  broken : ∀ {t ticket ts c e c'}, t.phase = .flying ticket → I (t :: ts) c →
    k.land t.item ticket c = (.stopped e, c') → Q e c'
  /-- A failed attempt is judged. -/
  judged : ∀ {t giveUp ts c}, t.phase = .failed giveUp → I (t :: ts) c →
    I ((k.fail b t giveUp c).1.toList ++ ts) (k.fail b t giveUp c).2

namespace Turns

variable {I : List (Task α τ) → Course σ → Prop} {Q : DispatchError → Course σ → Prop}

theorem fail (h : k.Turns w b I Q) {giveUp : Bool} (hI : I ({ t with phase := .failed giveUp } :: ts) c) :
    I ((k.fail b t giveUp c).1.toList ++ ts) (k.fail b t giveUp c).2 := by
  have := h.judged rfl hI
  rwa [fail_phase] at this

theorem advance (h : k.Turns w b I Q) (hI : I (t :: ts) c) :
    (∀ rest c', k.advance b t c = (.ok rest, c') → I (rest.toList ++ ts) c') ∧
      ∀ e c', k.advance b t c = (.error e, c') → Q e c' := by
  simp only [Work.advance]
  cases hp : t.phase with
  | resting wake =>
    simp only
    rcases hl : k.launch t.slot t.item t.attempt c with ⟨ticket | giveUp | e, c₁⟩
    · exact ⟨by rintro _ _ ⟨⟩; exact h.launched hp hI hl, by simp⟩
    · exact ⟨by rintro _ _ ⟨⟩; exact h.fail (h.unlaunched hp hI hl), by simp⟩
    · exact ⟨by simp, by rintro _ _ ⟨⟩; exact h.barred hp hI hl⟩
  | flying ticket =>
    simp only
    rcases hl : k.land t.item ticket c with ⟨_ | giveUp | e, c₁⟩
    · exact ⟨by rintro _ _ ⟨⟩; exact h.landed hp hI hl, by simp⟩
    · exact ⟨by rintro _ _ ⟨⟩; exact h.fail (h.crashed hp hI hl), by simp⟩
    · exact ⟨by simp, by rintro _ _ ⟨⟩; exact h.broken hp hI hl⟩
  | failed giveUp => exact ⟨by rintro _ _ ⟨⟩; exact h.judged hp hI, by simp⟩

theorem step (h : k.Turns w b I Q) (hI : I ts c) :
    (∀ ts' c', k.step w b ts c = some (.ok ts', c') → I ts' c') ∧
      ∀ e c', k.step w b ts c = some (.error e, c') → Q e c' := by
  have hchosen := fun least => h.chosen least hI
  simp only [Work.step]
  rcases hn : w.next (ts.map k.outside) c.session.world with ⟨_ | i, world⟩
  · exact ⟨by simp, by simp⟩
  · simp only [Course.on, hn] at hchosen
    simp only
    cases hi : ts[i]? with
    | none => exact ⟨by simp, by simp⟩
    | some t =>
      obtain ⟨hlt, rfl⟩ := List.getElem?_eq_some_iff.1 hi
      obtain ⟨hok, herror⟩ := h.advance (h.perm (List.getElem_cons_eraseIdx_perm hlt).symm (hchosen (due ts[i])))
      simp only [Course.on]
      rcases ha : k.advance b ts[i] _ with ⟨e | rest, c'⟩
      · exact ⟨by simp, by rintro _ _ ⟨⟩; exact herror _ _ ha⟩
      · exact ⟨by rintro _ _ ⟨⟩; exact h.perm List.perm_append_comm (hok _ _ ha), by simp⟩

theorem run (h : k.Turns w b I Q) {fuel : Nat} (hI : I ts c) :
    (∀ c', k.run w b fuel ts c = (.over, c') → I [] c') ∧
      (∀ e c', k.run w b fuel ts c = (.stopped e, c') → Q e c') ∧
      ∀ c', k.run w b fuel ts c = (.stuck, c') → ∃ ts', I ts' c' := by
  induction fuel generalizing ts c with
  | zero =>
    cases ts with
    | nil => exact ⟨by rintro _ ⟨⟩; exact hI, by simp [Work.run], by simp [Work.run]⟩
    | cons t ts => exact ⟨by simp [Work.run], by simp [Work.run], by rintro _ ⟨⟩; exact ⟨_, hI⟩⟩
  | succ fuel ih =>
    cases ts with
    | nil => exact ⟨by rintro _ ⟨⟩; exact hI, by simp [Work.run], by simp [Work.run]⟩
    | cons t ts =>
      obtain ⟨hok, herror⟩ := h.step hI
      simp only [Work.run]
      rcases hs : k.step w b (t :: ts) c with _ | ⟨e | ts', c₁⟩
      · exact ⟨by simp, by simp, by rintro _ ⟨⟩; exact ⟨_, hI⟩⟩
      · exact ⟨by simp, by rintro _ _ ⟨⟩; exact herror _ _ hs, by simp⟩
      · exact ih (hok _ _ hs)

theorem finish (h : k.Turns w b I Q) (hI : I ts c) :
    (∀ c', k.finish w b ts c = (.over, c') → I [] c') ∧
      (∀ e c', k.finish w b ts c = (.stopped e, c') → Q e c') ∧
      ∀ c', k.finish w b ts c = (.stuck, c') → ∃ ts', I ts' c' := h.run hI

end Turns

end Work

/-! ## The two stages -/

namespace Dispatcher

variable {σ : Type} {w : World σ} {d : Dispatcher} {registry : Registry} {c : Course σ}

theorem runFilterMap_turns {J : List (Routed × Nat) → List (Task Routed Job) → Course σ → Prop}
    {I : List (Task Routed Job) → Course σ → Prop} {Q : DispatchError → Course σ → Prop} {matched : List Routed}
    (hlaunches : (filterMap w d).Launches w (fun _ _ c => (true, c)) J Q)
    (hturns : (filterMap w d).Turns w d.budget I Q) (hstart : ∀ ts c, J [] ts c → I ts c)
    (h : J matched.zipIdx [] c) :
    (∀ c', runFilterMap w d matched c = (.over, c') → I [] c') ∧
      (∀ e c', runFilterMap w d matched c = (.stopped e, c') → Q e c') ∧
      ∀ c', runFilterMap w d matched c = (.stuck, c') → ∃ ts, I ts c' := by
  obtain ⟨hok, herror⟩ := hlaunches.launchAll h
  simp only [runFilterMap]
  rcases hl : (filterMap w d).launchAll w (fun _ _ c => (true, c)) matched.zipIdx c with ⟨e | ts, c₁⟩
  · exact ⟨by simp, by rintro _ _ ⟨⟩; exact herror _ _ hl, by simp⟩
  · exact hturns.finish (hstart _ _ (hok _ _ hl))

theorem runPublish_turns {J : List (Mapped × Nat) → List (Task Mapped Shipment) → Course σ → Prop}
    {I : List (Task Mapped Shipment) → Course σ → Prop} {Q : DispatchError → Course σ → Prop}
    (hlaunches : (publish w d registry).Launches w d.awaitDelivery J Q)
    (hturns : (publish w d registry).Turns w d.budget I Q) (hstart : ∀ ts c, J [] ts c → I ts c)
    (hflushed : ∀ c, I [] c → I [] (flushUsed w c))
    (h : J ((sorted c.mapped.reverse).map fun m => (m, m.slot)) [] c) :
    (∀ c', runPublish w d registry c = (.over, c') → I [] c') ∧
      (∀ e c', runPublish w d registry c = (.stopped e, c') → Q e c') ∧
      ∀ c', runPublish w d registry c = (.stuck, c') → ∃ ts, I ts c' := by
  obtain ⟨hok, herror⟩ := hlaunches.launchAll h
  simp only [runPublish]
  rcases hl : (publish w d registry).launchAll w d.awaitDelivery
    ((sorted c.mapped.reverse).map fun m => (m, m.slot)) c with ⟨e | ts, c₁⟩
  · exact ⟨by simp, by rintro _ _ ⟨⟩; exact herror _ _ hl, by simp⟩
  · obtain ⟨hover, hstopped, hstuck⟩ := hturns.finish (hstart _ _ (hok _ _ hl))
    simp only
    rcases hf : (publish w d registry).finish w d.budget ts c₁ with ⟨_ | e | _, c₂⟩
    · exact ⟨by rintro _ ⟨⟩; exact hflushed _ (hover _ hf), by simp, by simp⟩
    · exact ⟨by simp, by rintro _ _ ⟨⟩; exact hstopped _ _ hf, by simp⟩
    · exact ⟨by simp, by simp, by rintro _ ⟨⟩; exact hstuck _ hf⟩

end Dispatcher

end Relay
