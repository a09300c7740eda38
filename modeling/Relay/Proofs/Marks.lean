import Mathlib.Algebra.BigOperators.Group.Multiset.Basic
import Mathlib.Data.Multiset.Fold
import Relay.Proofs.WorkRules

/-!
# Marks

What a record leaves behind in a dispatch is made of marks: a status in the ledger, a count in the summary, a
payload to publish, a message that was handed over, a delivery that was reported. Marks are the same in
whatever order they are made, so a tally of marks says what a dispatch comes to without saying how.
-/

namespace Relay

/-- What a record leaves behind. -/
inductive Mark where
  /-- A status is reported to the ledger. -/
  | status (place : Coordinates) (s : Status)
  /-- A record is counted as filtered out. -/
  | filtered
  /-- A record is counted as published. -/
  | published
  /-- A record is counted as given up. -/
  | abandoned
  /-- A payload is to be published. -/
  | mapped (m : Mapped)
  /-- A message was handed to a producer, which accepted it or not. -/
  | handed (message : Outbound) (accepted : Bool)
  /-- A delivery was reported, which succeeded or not. -/
  | reported (message : Outbound) (ok : Bool)

/-- What a dispatch comes to. -/
structure Tally where
  /-- The ledger. -/
  ledger : Ledger
  /-- The summary. -/
  summary : Summary
  /-- The payloads to publish. -/
  mapped : Multiset Mapped
  /-- The messages that were handed over. -/
  handed : Multiset (Outbound × Bool)
  /-- The deliveries that were reported. -/
  reported : Multiset (Outbound × Bool)

/-- A tally with one more mark. -/
def Tally.add (t : Tally) : Mark → Tally
  | .status place s => { t with ledger := t.ledger.report place s }
  | .filtered => { t with summary := { t.summary with filtered := t.summary.filtered + 1 } }
  | .published => { t with summary := { t.summary with published := t.summary.published + 1 } }
  | .abandoned => { t with summary := { t.summary with abandoned := t.summary.abandoned + 1 } }
  | .mapped m => { t with mapped := m ::ₘ t.mapped }
  | .handed message accepted => { t with handed := (message, accepted) ::ₘ t.handed }
  | .reported message ok => { t with reported := (message, ok) ::ₘ t.reported }

/-- Marks may be made in any order. -/
theorem Tally.add_comm (t : Tally) (a b : Mark) : (t.add a).add b = (t.add b).add a := by
  cases a <;> cases b <;> try rfl
  case status.status => simp only [add, Ledger.report_comm]
  case mapped.mapped => simp only [add, Multiset.cons_swap]
  case handed.handed => simp only [add, Multiset.cons_swap]
  case reported.reported => simp only [add, Multiset.cons_swap]

instance : RightCommutative Tally.add := ⟨Tally.add_comm⟩

/-- A tally with some more marks. -/
def Tally.addAll (t : Tally) (marks : Multiset Mark) : Tally := marks.foldl Tally.add t

theorem Tally.addAll_add (t : Tally) (marks marks' : Multiset Mark) :
    t.addAll (marks + marks') = (t.addAll marks).addAll marks' := Multiset.foldl_add ..

/-! ## The tally of a course -/

/-- The message of an event that hands one over, and whether it was accepted. -/
def Event.handed? : Event → Option (Outbound × Bool)
  | .sent x result => some (x.message, result.isOk)
  | _ => none

/-- The message of an event that reports a delivery, and whether it succeeded. -/
def Event.reported? : Event → Option (Outbound × Bool)
  | .delivered x result => some (x.message, result.isOk)
  | _ => none

/-- What was written down after the first session and before the second one, the latest event first. -/
def Session.written {σ : Type} (s s' : Session σ) : List Event :=
  s'.journal.take (s'.journal.length - s.journal.length)

section Written

variable {σ : Type} {s s' s'' : Session σ} {news old : List Event}

/-- The journal is what was written down before and since. -/
theorem Session.written_eq {added : List Event} (h : s'.journal = added ++ s.journal) :
    s.written s' = added := by
  rw [written, h, List.length_append, Nat.add_sub_cancel]
  exact List.take_left' rfl

/-- What is written down later comes on top. -/
theorem Session.written_trans (h : s.Adds old s') (h' : s'.Adds news s'') :
    ∃ added, s.written s'' = added ++ s.written s' ∧ added.filter Event.isNews = news := by
  obtain ⟨before, hj, -⟩ := h
  obtain ⟨added, hj', hnews⟩ := h'
  refine ⟨added, ?_, hnews⟩
  rw [written_eq hj]
  exact written_eq (by rw [hj', hj, List.append_assoc])

theorem Session.written_append (h : s.Adds old s') (h' : s'.Adds news s'') :
    s.written s'' = s'.written s'' ++ s.written s' := by
  obtain ⟨before, hj, -⟩ := h
  obtain ⟨added, hj', -⟩ := h'
  rw [written_eq hj, written_eq hj']
  exact written_eq (by rw [hj', hj, List.append_assoc])

/-- What was written down stays. -/
theorem Session.mem_written (h : s.Adds old s') (h' : s'.Adds news s'') {e : Event} (he : e ∈ s.written s') :
    e ∈ s.written s'' := by
  obtain ⟨added, hw, -⟩ := written_trans h h'
  rw [hw]
  exact List.mem_append_right _ he

/-- Of what was written down, only the news are news. -/
theorem Session.mem_written_iff {e : Event} (h : s.Adds news s') (he : e.isNews = true) :
    e ∈ s.written s' ↔ e ∈ news := by
  obtain ⟨added, hj, rfl⟩ := h
  rw [written_eq hj, List.mem_filter]
  exact ⟨fun hm => ⟨hm, he⟩, And.left⟩

/-- Only news hand something over or report something. -/
theorem filterMap_of_isNews {β : Type} {f : Event → Option β} (hf : ∀ e, e.isNews = false → f e = none)
    (l : List Event) : l.filterMap f = (l.filter Event.isNews).filterMap f := by
  induction l with
  | nil => rfl
  | cons e l ih =>
    cases he : e.isNews with
    | true => simp [List.filterMap_cons, he, ih]
    | false => simp [he, ih, hf e he]

/-- What later news hand over or report comes on top. -/
theorem Session.filterMap_written {β : Type} {f : Event → Option β}
    (hf : ∀ e, e.isNews = false → f e = none) (h : s.Adds old s') (h' : s'.Adds news s'') :
    (s.written s'').filterMap f = news.filterMap f ++ (s.written s').filterMap f := by
  obtain ⟨added, hw, hnews⟩ := written_trans h h'
  rw [hw, List.filterMap_append, filterMap_of_isNews hf added, hnews]

end Written

theorem Event.handed?_of_not_isNews (e : Event) (h : e.isNews = false) : e.handed? = none := by
  cases e <;> first | rfl | simp [isNews] at h

theorem Event.reported?_of_not_isNews (e : Event) (h : e.isNews = false) : e.reported? = none := by
  cases e <;> first | rfl | simp [isNews] at h

/-- What a course has come to since a session. -/
def Course.tally {σ : Type} (s : Session σ) (c : Course σ) : Tally where
  ledger := c.ledger
  summary := c.summary
  mapped := c.mapped
  handed := (s.written c.session).filterMap Event.handed?
  reported := (s.written c.session).filterMap Event.reported?

/-- The marks of an event. -/
def Event.marks : Event → Multiset Mark
  | .sent x result => {.handed x.message result.isOk}
  | .delivered x result => {.reported x.message result.isOk}
  | _ => 0

namespace Course

variable {σ : Type} {s : Session σ} {c c' : Course σ} {old : List Event} {e : Event}

/-- News add to the messages and deliveries of a tally. -/
theorem tally_tells {news : List Event} (h : s.Adds old c.session) (ht : c.Tells news c') :
    c'.tally s =
      { c.tally s with
        handed := news.filterMap Event.handed? + (c.tally s).handed
        reported := news.filterMap Event.reported? + (c.tally s).reported } := by
  simp only [tally, ht.ledger, ht.summary, ht.mapped]
  rw [Session.filterMap_written Event.handed?_of_not_isNews h ht.session.adds,
    Session.filterMap_written Event.reported?_of_not_isNews h ht.session.adds]
  rfl

/-- What is no news leaves the tally as it is. -/
theorem tally_quiet (h : s.Adds old c.session) (ht : c.Tells [] c') : c'.tally s = c.tally s := by
  rw [tally_tells h ht]
  simp

/-- One piece of news leaves its marks. -/
theorem tally_tell (h : s.Adds old c.session) (ht : c.Tells [e] c') :
    c'.tally s = (c.tally s).addAll e.marks := by
  rw [tally_tells h ht]
  cases e <;> rfl

/-- Settled places leave their marks. -/
theorem tally_settleAll (places : List Coordinates) (c : Course σ) :
    (c.settleAll places).tally s =
      (c.tally s).addAll (places.map fun place => Mark.status place .settled) := by
  induction places generalizing c with
  | nil => rfl
  | cons place rest ih => exact ih (c.settle place)

end Course

end Relay
