import Relay.Proofs.Marks

/-!
# What a script foretells

A script fixes how the attempts at the records of a batch go: what the `n`-th job of a record gives, what
becomes of its `n`-th message, and whether commits and rewinds succeed. Under a script the marks that an
attempt will still leave behind follow from where it stands and from the retries before it. They are foretold
here by recursion on the retries that are left, with no word about the order in which attempts land.

What is foretold and what is done already add up to the same tally after every step.
-/

namespace Relay

/-- How an attempt to publish a record goes. -/
inductive Sending where
  /-- It fails before a producer has the message. -/
  | unsent (e : PublishError)
  /-- The producer refuses the message. -/
  | refused (e : PublishError)
  /-- The producer accepts the message, and its delivery is reported. -/
  | reported (result : Except PublishError Unit)

/-- How the attempts at the records of a batch go, by the places of the records among the matched ones and the
retries before the attempts. -/
structure Script where
  /-- What a job gives. -/
  process : Nat → UInt32 → Except ProcessError Outcome
  /-- What becomes of a message. -/
  publish : Nat → UInt32 → Sending
  /-- Whether a commit is accepted. -/
  commit : Bool
  /-- Whether a rewind succeeds. -/
  seek : Bool

/-- An event is as the script has it. No pool is closed, nothing is a mistake in the configuration, and the
window for retries has not run out. -/
def Script.Allows (script : Script) (window : Duration) : Event → Prop
  | .submitted _ accepted => accepted = true
  | .processed job result => script.process job.slot job.times = result
  | .unsent slot times e => script.publish slot times = .unsent e ∧ e.isConfig = false
  | .sent x (.ok ()) => ∃ result, script.publish x.slot x.times = .reported result
  | .sent x (.error e) => script.publish x.slot x.times = .refused e ∧ e.isConfig = false
  | .delivered x (.ok ()) => script.publish x.slot x.times = .reported (.ok ())
  | .delivered x (.error e) => script.publish x.slot x.times = .reported (.error e) ∧ e.isConfig = false
  | .judged _ _ attempt now _ => (attempt.elapsed now).nanos < window.nanos
  | .committed _ ok => ok = script.commit
  | .sought _ ok => ok = script.seek
  | _ => True

/-! ## Retries -/

/-- How an attempt goes, with the marks that it leaves behind. -/
inductive Attempted where
  /-- It succeeds. -/
  | done (marks : Multiset Mark)
  /-- It fails. -/
  | failed (giveUp : Bool) (marks : Multiset Mark)

/-- The marks of a record that is given up. -/
def lost (place : Coordinates) : Multiset Mark := {.status place .abandoned, .abandoned}

namespace Budget

variable (b : Budget) (place : Coordinates) (attempt : UInt32 → Attempted)

/-- Whether a failed attempt is followed by another one, while the window lasts. -/
def grants (times : UInt32) (giveUp : Bool) : Bool := !giveUp && b.enabled && times < b.policy.times

/-- The marks of a record whose next attempt comes after some retries, where so many attempts are left. -/
def foretellWithin : Nat → UInt32 → Multiset Mark
  | 0, _ => 0
  | left + 1, times =>
    match attempt times with
    | .done marks => marks
    | .failed giveUp marks =>
      marks + if b.grants times giveUp then foretellWithin left (times + 1) else lost place

/-- The marks of a record whose next attempt comes after some retries. -/
def foretell (times : UInt32) : Multiset Mark :=
  b.foretellWithin place attempt (b.policy.times.toNat - times.toNat + 1) times

/-- The marks of a record whose attempt has failed. -/
def failing (times : UInt32) (giveUp : Bool) : Multiset Mark :=
  if b.grants times giveUp then b.foretell place attempt (times + 1) else lost place

variable {b} {place} {attempt}

theorem times_lt_of_grants {times : UInt32} {giveUp : Bool} (h : b.grants times giveUp = true) :
    times.toNat < b.policy.times.toNat ∧ (times + 1).toNat = times.toNat + 1 := by
  simp only [grants, Bool.and_eq_true, decide_eq_true_eq, UInt32.lt_iff_toNat_lt] at h
  have hlt := h.2
  have hbound := b.policy.times.toNat_lt
  refine ⟨hlt, ?_⟩
  rw [UInt32.toNat_add]
  exact Nat.mod_eq_of_lt (by simp; omega)

/-- The next attempt is done, or what follows a failure is foretold. -/
theorem foretell_eq (times : UInt32) :
    b.foretell place attempt times =
      match attempt times with
      | .done marks => marks
      | .failed giveUp marks => marks + b.failing place attempt times giveUp := by
  rw [foretell, foretellWithin]
  cases attempt times with
  | done marks => rfl
  | failed giveUp marks =>
    simp only [failing]
    by_cases hg : b.grants times giveUp = true
    · obtain ⟨hlt, hnext⟩ := times_lt_of_grants hg
      have hleft : b.policy.times.toNat - times.toNat =
          b.policy.times.toNat - (times + 1).toNat + 1 := by omega
      rw [if_pos hg, if_pos hg, foretell, ← hleft]
    · rw [if_neg hg, if_neg hg]

/-- A retry is granted, and it is the next attempt. -/
theorem failing_of_retry {now : Nat} {a next : Attempt} {giveUp : Bool} {backoff : Duration}
    (h : b.policy.decide now a giveUp b.enabled = .retry next backoff) :
    b.failing place attempt a.times giveUp = b.foretell place attempt next.times := by
  cases hpermits : b.policy.permits now a <;> cases giveUp <;> cases he : b.enabled <;>
    simp [RetryPolicy.decide, hpermits, he] at h
  obtain ⟨rfl, -⟩ := h
  have hgrants : b.grants a.times false = true := by
    simp only [RetryPolicy.permits, Bool.and_eq_true] at hpermits
    simp only [grants, he, hpermits.1]
    rfl
  rw [failing, if_pos hgrants]
  rfl

/-- While the window lasts, a record is given up only if no retry is granted. -/
theorem failing_of_abandon {now : Nat} {a : Attempt} {giveUp : Bool} {reason : AbandonReason}
    (h : b.policy.decide now a giveUp b.enabled = .abandon reason)
    (hw : (a.elapsed now).nanos < b.policy.window.nanos) :
    b.failing place attempt a.times giveUp = lost place := by
  have hgrants : ¬ b.grants a.times giveUp = true := by
    intro hg
    simp only [grants, Bool.and_eq_true, Bool.not_eq_true'] at hg
    obtain ⟨⟨hgiveUp, he⟩, htimes⟩ := hg
    have hpermits : b.policy.permits now a = true := by
      simp only [RetryPolicy.permits, Bool.and_eq_true]
      exact ⟨htimes, decide_eq_true hw⟩
    simp [RetryPolicy.decide, hgiveUp, he, hpermits] at h
  rw [failing, if_neg hgrants]

end Budget

/-! ## Done and foretold -/

section Foretold

variable {σ : Type} {s : Session σ} {allowed : Event → Prop} {total : Tally}
  {pending pending' : Multiset Mark} {c c' : Course σ} {e : Event}

/-- What a course has come to and what is pending add up to a total, as long as everything that was written
down is allowed. -/
structure Foretold (s : Session σ) (allowed : Event → Prop) (total : Tally) (pending : Multiset Mark)
    (c : Course σ) : Prop where
  /-- The journal grew, and what is known of commits stayed. -/
  history : ∃ old, s.Tells old c.session
  /-- The total is reached. -/
  total : (∀ e ∈ s.written c.session, allowed e) → (c.tally s).addAll pending = total

/-- Something was written down that is not allowed. -/
def Deviates (s : Session σ) (allowed : Event → Prop) (c : Course σ) : Prop :=
  (∃ old, s.Tells old c.session) ∧ ∃ e ∈ s.written c.session, ¬ allowed e

namespace Foretold

theorem quiet (h : Foretold s allowed total pending c) (ht : c.Tells [] c') :
    Foretold s allowed total pending c' := by
  obtain ⟨old, hold⟩ := h.history
  refine ⟨⟨_, hold.trans ht.session⟩, fun ha => ?_⟩
  obtain ⟨added, hw, -⟩ := Session.written_trans hold.adds ht.session.adds
  rw [hw] at ha
  rw [Course.tally_quiet hold.adds ht]
  exact h.total fun e he => ha e (List.mem_append_right _ he)

/-- A piece of news that is allowed takes its marks from what is pending. -/
theorem tell (h : Foretold s allowed total pending c) (ht : c.Tells [e] c')
    (he : allowed e → pending = e.marks + pending') : Foretold s allowed total pending' c' := by
  obtain ⟨old, hold⟩ := h.history
  refine ⟨⟨_, hold.trans ht.session⟩, fun ha => ?_⟩
  obtain ⟨added, hw, hnews⟩ := Session.written_trans hold.adds ht.session.adds
  rw [hw] at ha
  have hmem : e ∈ added := by
    have hmem : e ∈ added.filter Event.isNews := by simp [hnews]
    exact (List.mem_filter.1 hmem).1
  have hpending := he (ha e (List.mem_append_left _ hmem))
  rw [Course.tally_tell hold.adds ht, ← Tally.addAll_add, ← hpending]
  exact h.total fun e he => ha e (List.mem_append_right _ he)

/-- A piece of news that is allowed concerns one of the attempts whose marks are pending. -/
theorem take {β : Type} {f : β → Multiset Mark} {t : β} {ts : List β} (marks : Multiset Mark)
    (h : Foretold s allowed total ((t :: ts).map f).sum c) (ht : c.Tells [e] c')
    (he : allowed e → f t = e.marks + marks) : Foretold s allowed total (marks + (ts.map f).sum) c' := by
  refine h.tell ht fun ha => ?_
  rw [List.map_cons, List.sum_cons, he ha, add_assoc]

/-- An attempt goes on after a piece of news. -/
theorem exchange {β : Type} {f : β → Multiset Mark} {t t' : β} {ts : List β}
    (h : Foretold s allowed total ((t :: ts).map f).sum c) (ht : c.Tells [e] c')
    (he : allowed e → f t = e.marks + f t') : Foretold s allowed total ((t' :: ts).map f).sum c' := by
  rw [List.map_cons, List.sum_cons]
  exact h.take _ ht he

/-- A step of the course leaves marks that were pending. -/
theorem leave {marks : Multiset Mark} (h : Foretold s allowed total (marks + pending) c)
    (hs : c'.session = c.session) (ht : c'.tally s = (c.tally s).addAll marks) :
    Foretold s allowed total pending c' := by
  refine ⟨hs ▸ h.history, fun ha => ?_⟩
  rw [hs] at ha
  rw [ht, ← Tally.addAll_add]
  exact h.total ha

/-- A piece of news that is not allowed is a deviation. -/
theorem deviates (h : Foretold s allowed total pending c) (ht : c.Tells [e] c') (he : ¬ allowed e) :
    Deviates s allowed c' := by
  obtain ⟨old, hold⟩ := h.history
  obtain ⟨added, hw, hnews⟩ := Session.written_trans hold.adds ht.session.adds
  have hmem : e ∈ added.filter Event.isNews := by simp [hnews]
  refine ⟨⟨_, hold.trans ht.session⟩, e, ?_, he⟩
  rw [hw]
  exact List.mem_append_left _ (List.mem_filter.1 hmem).1

end Foretold

end Foretold

end Relay
