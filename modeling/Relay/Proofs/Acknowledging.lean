import Relay.Proofs.News

/-!
# The acknowledgement of a batch

What is asked of the consumer group at the end of a batch follows from its ledger, the service level and
what was committed before; the surroundings only say whether a commit and a rewind succeed.
-/

namespace Relay

namespace Dispatcher

variable {σ : Type} {w : World σ} {level : ServiceLevel} {c c' : Course σ}

/-- The offsets that a batch asks to commit. -/
def asked (level : ServiceLevel) (t : Tracker) (l : Ledger) : Offsets :=
  t.advancing (level.acknowledge l).offsets

/-- Where consumption resumes after a batch, by whether its commit was accepted. -/
def resumed (level : ServiceLevel) (l : Ledger) (accepted : Bool) : Offsets :=
  if !accepted then l.redelivery .empty
  else if (level.acknowledge l).isRun then l.redelivery (level.acknowledge l).offsets
  else .empty

/-- A call to the consumer group, which is left out if it concerns no partition. -/
def call (event : Offsets → Bool → Event) (offsets : Offsets) (ok : Bool) : List Event :=
  if offsets.isEmpty then [] else [event offsets ok]

theorem mem_call {e : Event} {event : Offsets → Bool → Event} {offsets : Offsets} {ok : Bool} :
    e ∈ call event offsets ok ↔ offsets.isEmpty = false ∧ e = event offsets ok := by
  rw [call]
  split
  · next h => simp [h]
  · next h => simp [h]

theorem eq_of_mem_calls {e : Event} {offsets offsets' : Offsets} {ok ok' : Bool}
    (h : e ∈ call .sought offsets ok ++ call .committed offsets' ok') :
    e = .sought offsets ok ∨ e = .committed offsets' ok' := by
  rw [List.mem_append, mem_call, mem_call] at h
  exact h.imp And.right And.right

/-- A batch is acknowledged, where the commit is accepted or not and the rewind succeeds or not. -/
structure Acknowledged (level : ServiceLevel) (accepted sought : Bool) (c c' : Course σ) : Prop where
  /-- A commit that is not asked for is not refused. -/
  asked : (asked level c.session.tracker c.ledger).isEmpty = true → accepted = true
  /-- The calls to the consumer group, the commit first. -/
  adds : c.session.Adds
    (call .sought (resumed level c.ledger accepted) sought ++
      call .committed (Dispatcher.asked level c.session.tracker c.ledger) accepted) c'.session
  /-- An accepted commit is remembered. -/
  tracker : c'.session.tracker =
    if accepted then c.session.tracker.mark (Dispatcher.asked level c.session.tracker c.ledger)
    else c.session.tracker
  /-- The ledger stays. -/
  ledger : c'.ledger = c.ledger
  /-- What was accepted is reported. -/
  summary : c'.summary =
    { c.summary with
      committed :=
        if (Dispatcher.asked level c.session.tracker c.ledger).isEmpty || !accepted then
          c.summary.committed
        else Dispatcher.asked level c.session.tracker c.ledger
      rewound :=
        if (resumed level c.ledger accepted).isEmpty || !sought then c.summary.rewound
        else resumed level c.ledger accepted }

/-- A commit is asked for and answered, unless it concerns no partition. -/
theorem commit_spec {kind : String} {offsets : Offsets} {accepted : Bool}
    (h : (if offsets.isEmpty then (true, c) else commit w kind offsets c) = (accepted, c')) :
    (offsets.isEmpty = true → accepted = true) ∧
      c.session.Adds (call .committed offsets accepted) c'.session ∧
      c'.session.tracker =
        (if accepted then c.session.tracker.mark offsets else c.session.tracker) ∧
      c'.ledger = c.ledger ∧
      c'.summary =
        { c.summary with
          committed := if offsets.isEmpty || !accepted then c.summary.committed else offsets } := by
  simp only [commit, call] at h ⊢
  split at h
  · next he =>
    obtain ⟨rfl, rfl⟩ := Prod.mk.inj h
    exact ⟨fun _ => rfl, by simpa [he] using Session.Adds.refl _,
      by rw [Tracker.mark_of_isEmpty _ he]; rfl, rfl, by simp [he]⟩
  · next he =>
    split at h
    · obtain ⟨rfl, rfl⟩ := Prod.mk.inj h
      exact ⟨by simp [he], by rw [if_neg he]; exact ⟨[_, _, _], rfl, rfl⟩, rfl, rfl, by simp [Course.on, he]⟩
    · obtain ⟨rfl, rfl⟩ := Prod.mk.inj h
      exact ⟨by simp [he], by rw [if_neg he]; exact ⟨[_, _], rfl, rfl⟩, rfl, rfl, by simp [Course.on]⟩

/-- A rewind is asked for and answered, unless it concerns no partition. -/
theorem rewind_spec (offsets : Offsets) (c : Course σ) :
    ∃ sought, c.session.Tells (call .sought offsets sought) (rewind w offsets c).session ∧
      (rewind w offsets c).ledger = c.ledger ∧
      (rewind w offsets c).summary =
        { c.summary with
          rewound := if offsets.isEmpty || !sought then c.summary.rewound else offsets } := by
  simp only [rewind, call]
  split
  · next h => exact ⟨true, by simpa [h] using .refl _, rfl, by simp [h]⟩
  · next h =>
    split
    · exact ⟨true, Session.tells_world_note _ rfl _, rfl, by simp [h]⟩
    · exact ⟨false, Session.tells_world_note _ rfl _, rfl, by simp [Course.on]⟩

/-- Nothing is acknowledged of a batch whose ledger lists nothing. -/
theorem acknowledged_of_isEmpty (h : c.ledger.isEmpty = true) : Acknowledged level true true c c := by
  have hl : c.ledger = .empty := congrArg Ledger.mk (SortedMap.eq_empty_of_isEmpty h)
  have hasked : asked level c.session.tracker c.ledger = .empty := by
    rw [hl]
    cases level <;> rfl
  have hresumed : resumed level c.ledger true = .empty := by
    rw [hl]
    cases level <;> rfl
  refine ⟨fun _ => rfl, ?_, ?_, rfl, ?_⟩
  · rw [hasked, hresumed]
    exact .refl _
  · rw [hasked]
    rfl
  · rw [hasked, hresumed]
    rfl

/-- A batch is acknowledged, whatever the surroundings answer. -/
theorem acknowledge_spec (w : World σ) (level : ServiceLevel) (c : Course σ) :
    ∃ accepted sought, Acknowledged level accepted sought c (acknowledge w level c) := by
  by_cases h : c.ledger.isEmpty = true
  · exact ⟨true, true, by rw [acknowledge, if_pos h]; exact acknowledged_of_isEmpty h⟩
  obtain ⟨c₁, hc₁⟩ : ∃ c₁, c₁ = countPartitions "acknowledge_regression_skipped_total"
      (c.session.tracker.regressing (level.acknowledge c.ledger).offsets)
      (if (level.acknowledge c.ledger).isRun then
        countPartitions "acknowledge_gap_detected_total"
          (gaps c.ledger (level.acknowledge c.ledger).offsets) c
      else c) := ⟨_, rfl⟩
  have htell : c.Tells [] c₁ := by
    rw [hc₁]
    refine Course.Tells.quiet ?_ (tells_countPartitions ..)
    split
    · exact tells_countPartitions ..
    · exact .refl c
  rcases hcommit : (if (asked level c.session.tracker c.ledger).isEmpty then (true, c₁)
    else commit w (level.acknowledge c.ledger).kind (asked level c.session.tracker c.ledger) c₁)
    with ⟨accepted, c₂⟩
  obtain ⟨hasked, hadds, htracker, hledger, hsummary⟩ := commit_spec hcommit
  obtain ⟨sought, hsought, hledger', hsummary'⟩ :=
    rewind_spec (w := w) (resumed level c.ledger accepted) c₂
  have hend : acknowledge w level c = rewind w (resumed level c.ledger accepted) c₂ := by
    simp only [acknowledge, if_neg h, ← hc₁]
    rw [asked] at hcommit
    simp only [hcommit, hledger, htell.ledger, resumed]
    split
    · rfl
    · split
      · rfl
      · rfl
  rw [hend]
  refine ⟨accepted, sought, hasked, ?_, ?_, ?_, ?_⟩
  · simpa using htell.session.adds.trans (hadds.trans hsought.adds)
  · rw [hsought.tracker, htracker, htell.session.tracker]
  · rw [hledger', hledger, htell.ledger]
  · rw [hsummary', hsummary, htell.summary]

end Dispatcher

end Relay
