import Mathlib
import Relay.Proofs.Accounts
import Relay.Proofs.Commits
import Relay.Proofs.SettledRun

/-!
# What a strict run loses

A pipeline that republishes under the strict service level consumes a log, batch after batch. Each batch
carries what exists from the position of the consumer on, and the next position is where the consumer was
rewound to, or else the end of the batch.

A record that was abandoned comes again because the consumer is rewound to it. If that rewind fails, the
position is behind the record, and a later commit may pass it: nothing remembers what was to be repeated.
This is the only way to lose a record. Below the last commit of a partition every record was settled in some
batch, unless it was abandoned in a batch whose rewind failed.
-/

namespace Relay

/-! ## Runs over a log -/

/-- The offsets that exist in each partition. -/
abbrev Log := Partition → Set Int

/-- A batch carries, for each partition, what exists from a position up to a stop: behind the last offset
that is carried, or at the position if none is. -/
structure Carries (log : Log) (position stop : Partition → Int) (batch : Batch) : Prop where
  /-- The stop does not lie before the position. -/
  start : ∀ p, position p ≤ stop p
  /-- What exists in between is carried, and nothing else. -/
  carried : ∀ p o, ⟨p, o⟩ ∈ batch.places ↔ o ∈ log p ∧ position p ≤ o ∧ o < stop p
  /-- The stop lies behind the last offset. -/
  stop : ∀ p, stop p = position p ∨ ⟨p, stop p - 1⟩ ∈ batch.places

/-- A batch that was dispatched to its end. -/
structure Round (σ : Type) where
  /-- The subscribers in force. -/
  registry : Registry
  /-- The batch. -/
  batch : Batch
  /-- The session before. -/
  before : Session σ
  /-- The summary of the batch. -/
  summary : Summary
  /-- The ledger of the batch. -/
  ledger : Ledger
  /-- The session afterwards. -/
  after : Session σ

namespace Round

variable {σ : Type}

/-- A round settles a place: it was undecodable, unmatched, filtered out, or its delivery was reported. -/
def Settles (d : Dispatcher) (r : Round σ) (place : Coordinates) : Prop :=
  r.ledger.status place = some .settled ∧
    Disposed d (r.registry.subscribers d.pipeline) r.batch r.before r.after place

/-- A round forsakes a place: its record was abandoned, and the rewind to it failed. -/
def Forsakes (r : Round σ) (place : Coordinates) : Prop :=
  r.ledger.status place = some .abandoned ∧
    ∃ offsets resume, r.before.Since r.after (.sought offsets false) ∧
      offsets.get? place.partition = some resume ∧ resume ≤ place.offset

end Round

/-- A run over a log from given positions: its rounds, the latest first, the positions of the consumer and
the session that they lead to. -/
inductive Run {σ : Type} (w : World σ) (d : Dispatcher) (log : Log) (start : Partition → Int) :
    List (Round σ) → (Partition → Int) → Session σ → Prop where
  | start (world : σ) : Run w d log start [] start (.start world)
  | next {rounds : List (Round σ)} {position : Partition → Int} (r : Round σ) (stop : Partition → Int)
      (run : Run w d log start rounds position r.before) (carries : Carries log position stop r.batch)
      (dispatched : d.dispatch w r.registry r.batch r.before = (.done r.summary r.ledger, r.after)) :
      Run w d log start (r :: rounds) (fun p => (r.summary.rewound.get? p).getD (stop p)) r.after

/-! ## One round -/

/-- What is known of a batch that was dispatched to its end. -/
structure Concluded {σ : Type} (d : Dispatcher) (r : Round σ) (accepted sought : Bool) : Prop where
  /-- The ledger lists the places of the batch. -/
  known : ∀ place, r.ledger.status place ≠ none ↔ place ∈ r.batch.places
  /-- What is settled is settled for a reason. -/
  settled : ∀ place, r.ledger.status place = some .settled → r.Settles d place
  /-- An accepted commit is remembered. -/
  tracker : r.after.tracker =
    if accepted then r.before.tracker.mark (Dispatcher.asked d.level r.before.tracker r.ledger)
    else r.before.tracker
  /-- The consumer is rewound if that succeeds. -/
  rewound : ∀ p, r.summary.rewound.get? p =
    if sought then (Dispatcher.resumed d.level r.ledger accepted).get? p else none
  /-- A rewind that fails is written down. -/
  failed : ∀ p resume, (Dispatcher.resumed d.level r.ledger accepted).get? p = some resume →
    sought = false →
    r.before.Since r.after (.sought (Dispatcher.resumed d.level r.ledger accepted) false)

/-- A dispatch that republishes and awaits deliveries accounts for its batch. -/
theorem concluded_of_dispatch {σ : Type} {w : World σ} {d : Dispatcher} {r : Round σ}
    (hcheckpoint : d.checkpoint = true) (hawaits : d.level.awaitsDelivery = true)
    (hd : d.dispatch w r.registry r.batch r.before = (.done r.summary r.ledger, r.after)) :
    ∃ accepted sought, Concluded d r accepted sought := by
  have h₁ := (Dispatcher.quiet_filterMap w d r.before d.budget).and
    (Filtering.keeps w d (r.registry.subscribers d.pipeline) r.batch r.before d.budget)
  have h₂ := (Dispatcher.quiet_publish w d r.registry r.before d.budget).and
    (Publishing.keeps w d r.registry (r.registry.subscribers d.pipeline) r.batch r.before d.budget)
  have hkept : ∀ m x (c : Course σ), d.awaitDelivery m x c = (true, c) := fun m x c => by
    rw [Dispatcher.awaitDelivery_eq, if_pos hawaits]
  have hstarts₁ := h₁.starts (fun _ _ c => (true, c))
    (fun _ h => ⟨h.1, h.2.moves (.refl _) (h.2.jobs _ List.mem_cons_self)⟩)
    (fun h hk => (Prod.mk.inj hk).2 ▸ h) (by simp)
  have hstarts₂ := h₂.starts d.awaitDelivery
    (fun _ h => ⟨h.1, h.2.moves (.refl _) (h.2.messages _ List.mem_cons_self)⟩)
    (fun h hk => by rw [hkept] at hk; exact (Prod.mk.inj hk).2 ▸ h)
    (fun _ _ hk => by simp [hkept] at hk)
  obtain ⟨-, -, hdone⟩ := Dispatcher.dispatch_spec r.batch r.before hstarts₁ h₁ (fun _ _ h => h)
    hstarts₂ h₂ (fun _ _ h => h)
    (fun c hc => ⟨(Session.Quiet.refl _).aside hc.session, Filtering.begins hc⟩)
    (fun c h => ⟨h.1, h.2.published⟩)
  obtain ⟨c, hconclude, hc⟩ := hdone _ _ _ hd
  rw [if_pos hcheckpoint] at hc
  obtain ⟨hquiet, haccounts, -, -⟩ := hc
  obtain ⟨accepted, sought, ha⟩ := Dispatcher.acknowledge_spec w d.level c
  simp only [Dispatcher.conclude, Prod.mk.injEq, Dispatched.done.injEq] at hconclude
  obtain ⟨⟨hsummary, hledger⟩, hafter⟩ := hconclude
  have htracker : c.session.tracker = r.before.tracker := by
    obtain ⟨news, htell, -⟩ := hquiet
    exact htell.tracker
  have hledger : r.ledger = c.ledger := by rw [← hledger, ha.ledger]
  have hadds := ha.adds.trans (hafter ▸ Session.tells_observe _ _ _ : Session.Tells _ _ _).adds
  refine ⟨accepted, sought, ?_, ?_, ?_, ?_, ?_⟩
  · intro place
    rw [hledger]
    exact ⟨haccounts.carried place, fun hp => (haccounts.covered place hp).resolve_right (by simp)⟩
  · intro place hs
    refine ⟨hs, ?_⟩
    rw [hledger] at hs
    exact (haccounts.settled place hs).mono hadds
  · rw [← hafter, ← htracker, hledger]
    exact ha.tracker
  · intro p
    rw [← hsummary, ha.summary, ← hledger]
    cases he : (Dispatcher.resumed d.level r.ledger accepted).isEmpty with
    | true => simp [haccounts.unacknowledged.2, (SortedMap.isEmpty_iff _).1 he p]
    | false => cases sought <;> simp [haccounts.unacknowledged.2]
  · rintro p resume hp rfl
    obtain ⟨news, htell, -⟩ := hquiet
    refine htell.adds.since hadds (List.mem_append_right _ (List.mem_append_left _ ?_))
    rw [← hledger, Dispatcher.call, SortedMap.isEmpty_of_get? hp]
    exact List.mem_singleton_self _

/-! ## The invariant -/

namespace Concluded

variable {σ : Type} {d : Dispatcher} {r : Round σ} {accepted sought : Bool} {p : Partition}
  {first last next : Int}

/-- What is committed of a partition is known, or it is the end of its settled run. -/
theorem get?_tracker (h : Concluded d r accepted sought) (hstrict : d.level = .strict)
    (hs : r.ledger.Spans p first last next) {committed : Int}
    (hc : r.after.tracker.get? p = some committed) :
    r.before.tracker.get? p = some committed ∨ accepted = true ∧ committed = next := by
  rw [h.tracker] at hc
  split at hc
  · next haccepted =>
    rw [Tracker.get?_mark] at hc
    cases ha : (Dispatcher.asked d.level r.before.tracker r.ledger).get? p with
    | none =>
      rw [ha] at hc
      exact .inl hc
    | some offset =>
      rw [ha] at hc
      obtain ⟨hoffset, hlt⟩ := Tracker.get?_advancing_eq_some.1 ha
      have hnext : offset = next := by
        rw [hstrict, hs.get?_commit] at hoffset
        split at hoffset
        · exact (Option.some.inj hoffset).symm
        · simp at hoffset
      refine .inr ⟨haccepted, ?_⟩
      cases hk : r.before.tracker.get? p with
      | none =>
        simp [hk] at hc
        omega
      | some known =>
        have := hlt known hk
        simp [hk] at hc
        omega
  · exact .inl hc

/-- Consumption resumes at the first offset that is not settled, or at the lowest one after a refused
commit. -/
theorem get?_resumed (hs : r.ledger.Spans p first last next) :
    (Dispatcher.resumed .strict r.ledger accepted).get? p =
      if accepted then (if next ≤ last then some next else none) else some first := by
  cases accepted with
  | false =>
    simp only [Dispatcher.resumed, Bool.not_false, if_true]
    rw [hs.get?_redelivery]
    simp [hs.first_le_last]
  | true =>
    rw [if_pos rfl, ← hs.get?_redelivery_commit]
    rfl

/-- An abandoned place is forsaken if its partition is not rewound. -/
theorem forsakes (h : Concluded d r accepted false) (hstrict : d.level = .strict)
    (hs : r.ledger.Spans p first last next) {o : Int} (ha : r.ledger.status ⟨p, o⟩ = some .abandoned) :
    r.Forsakes ⟨p, o⟩ := by
  have hfirst : first ≤ o := hs.lowest.2 (by simp [ha])
  have hlast : o ≤ last := hs.highest.2 (by simp [ha])
  have hnext : next ≤ o := hs.unsettled.2 ⟨hfirst, by simp [ha]⟩
  obtain ⟨resume, hresume, hle⟩ :
      ∃ resume, (Dispatcher.resumed d.level r.ledger accepted).get? p = some resume ∧ resume ≤ o := by
    rw [hstrict, get?_resumed hs]
    cases accepted with
    | false => exact ⟨first, rfl, hfirst⟩
    | true => exact ⟨next, by simp; omega, hnext⟩
  exact ⟨ha, _, resume, h.failed p resume hresume rfl, hresume, hle⟩

theorem unchanged (h : Concluded d r accepted sought) (hstrict : d.level = .strict)
    (hnone : ∀ o, r.ledger.status ⟨p, o⟩ = none) :
    r.after.tracker.get? p = r.before.tracker.get? p ∧ r.summary.rewound.get? p = none := by
  have hasked : (Dispatcher.asked d.level r.before.tracker r.ledger).get? p = none := by
    rw [hstrict, Option.eq_none_iff_forall_ne_some]
    intro o ho
    have := (Tracker.get?_advancing_eq_some.1 ho).1
    simp [(Ledger.get?_of_status_eq_none hnone .empty).1] at this
  refine ⟨?_, ?_⟩
  · rw [h.tracker]
    split
    · rw [Tracker.get?_mark, hasked]
    · rfl
  · rw [h.rewound, hstrict]
    cases accepted with
    | false => simp [Dispatcher.resumed, (Ledger.get?_of_status_eq_none hnone .empty).2.1]
    | true =>
      have := (Ledger.get?_of_status_eq_none hnone (ServiceLevel.strict.acknowledge r.ledger).offsets).2.1
      have hrun : (Dispatcher.resumed .strict r.ledger true).get? p = none := this
      simp [hrun]

/-- The places that a batch carries of a partition reach from the position to the stop. -/
theorem range_eq (h : Concluded d r accepted sought) {log : Log} {position stop : Partition → Int}
    (hc : Carries log position stop r.batch) (hs : r.ledger.Spans p first last next) :
    position p ≤ first ∧ stop p = last + 1 := by
  obtain ⟨-, hfirst, -⟩ := (hc.carried p first).1 ((h.known _).1 hs.lowest.1)
  obtain ⟨-, -, hlast⟩ := (hc.carried p last).1 ((h.known _).1 hs.highest.1)
  refine ⟨hfirst, ?_⟩
  rcases hc.stop p with hstop | hm
  · have hle := hs.first_le_last
    omega
  · have hle : stop p - 1 ≤ last := hs.highest.2 ((h.known _).2 hm)
    omega

/-- The next position of a partition: behind the batch if the rewind failed, and else where consumption
resumes. -/
theorem position_eq (h : Concluded d r accepted sought) (hstrict : d.level = .strict)
    (hs : r.ledger.Spans p first last next) :
    (r.summary.rewound.get? p).getD (last + 1) =
      if sought then (if accepted then next else first) else last + 1 := by
  rw [h.rewound]
  cases sought with
  | false => rfl
  | true =>
    rw [if_pos rfl, if_pos rfl, hstrict, get?_resumed hs]
    cases accepted with
    | false => rfl
    | true =>
      have hnext := hs.next_le
      by_cases hle : next ≤ last
      · simp [hle]
      · have heq : next = last + 1 := by omega
        simp [heq]

/-- What a round leaves behind is settled, or forsaken if the rewind failed. -/
theorem settles_or_forsakes (h : Concluded d r accepted sought) (hstrict : d.level = .strict)
    (hs : r.ledger.Spans p first last next) {o : Int} (ho : r.ledger.status ⟨p, o⟩ ≠ none)
    (hlt : o < if sought then (if accepted then next else first) else last + 1) :
    r.Settles d ⟨p, o⟩ ∨ r.Forsakes ⟨p, o⟩ := by
  have hfirst : first ≤ o := hs.lowest.2 ho
  cases sought with
  | true =>
    cases accepted with
    | true => exact .inl (h.settled _ (hs.settled_of_lt hfirst hlt))
    | false => exact absurd hfirst (not_le.2 hlt)
  | false =>
    cases hst : r.ledger.status ⟨p, o⟩ with
    | none => exact absurd hst ho
    | some status =>
      cases status with
      | settled => exact .inl (h.settled _ hst)
      | abandoned => exact .inr (h.forsakes hstrict hs hst)

/-- A round moves the position of a partition forwards, does not commit beyond it, and settles or forsakes
what it leaves behind. -/
theorem advances (h : Concluded d r accepted sought) (hstrict : d.level = .strict) {log : Log}
    {position stop : Partition → Int} (hc : Carries log position stop r.batch) (p : Partition) :
    position p ≤ (r.summary.rewound.get? p).getD (stop p) ∧
      (∀ committed, r.after.tracker.get? p = some committed →
        r.before.tracker.get? p = some committed ∨
          committed ≤ (r.summary.rewound.get? p).getD (stop p)) ∧
      ∀ o ∈ log p, position p ≤ o → o < (r.summary.rewound.get? p).getD (stop p) →
        r.Settles d ⟨p, o⟩ ∨ r.Forsakes ⟨p, o⟩ := by
  by_cases hnone : ∀ o, r.ledger.status ⟨p, o⟩ = none
  · obtain ⟨htracker, hrewound⟩ := h.unchanged hstrict hnone
    have hstop : stop p = position p := by
      refine (hc.stop p).resolve_right fun hm => ?_
      exact (h.known _).2 hm (hnone _)
    rw [hrewound, htracker, Option.getD_none, hstop]
    exact ⟨le_rfl, fun committed hk => .inl hk, fun o _ h1 h2 => by omega⟩
  · obtain ⟨o, ho⟩ := not_forall.1 hnone
    obtain ⟨first, last, next, hs⟩ := Ledger.exists_spans ho
    obtain ⟨hfirst, hstop⟩ := h.range_eq hc hs
    have hnext := hs.next_le
    have hle := hs.first_le_next
    rw [hstop, h.position_eq hstrict hs]
    refine ⟨?_, fun committed hk => ?_, fun o ho h1 h2 => ?_⟩
    · split
      · split <;> omega
      · omega
    · rcases h.get?_tracker hstrict hs hk with hk | ⟨rfl, rfl⟩
      · exact .inl hk
      · right
        rw [if_pos rfl]
        split <;> omega
    · have hlt : o < last + 1 := by
        split at h2
        · split at h2 <;> omega
        · exact h2
      have hplace : ⟨p, o⟩ ∈ r.batch.places := (hc.carried p o).2 ⟨ho, h1, hstop ▸ hlt⟩
      exact h.settles_or_forsakes hstrict hs ((h.known _).2 hplace) h2

end Concluded

/-- What holds of every run over a log. -/
structure Run.Invariant {σ : Type} (d : Dispatcher) (log : Log) (start : Partition → Int)
    (rounds : List (Round σ)) (position : Partition → Int) (s : Session σ) : Prop where
  /-- The tracker knows the last commit. -/
  coherent : s.Coherent
  /-- The consumer does not go back behind its start. -/
  start_le : ∀ p, start p ≤ position p
  /-- Nothing is committed beyond the position. -/
  committed_le : ∀ p committed, s.tracker.get? p = some committed → committed ≤ position p
  /-- What the consumer has left behind is settled or forsaken. -/
  passed : ∀ p, ∀ o ∈ log p, start p ≤ o → o < position p →
    (∃ r ∈ rounds, r.Settles d ⟨p, o⟩) ∨ ∃ r ∈ rounds, r.Forsakes ⟨p, o⟩
  /-- Ledgers list what the log holds. -/
  listed : ∀ r ∈ rounds, ∀ p o, r.ledger.status ⟨p, o⟩ ≠ none → o ∈ log p ∧ start p ≤ o

/-- Every run over a log keeps the invariant. -/
theorem Run.invariant {σ : Type} {w : World σ} {d : Dispatcher} {log : Log} {start : Partition → Int}
    {rounds : List (Round σ)} {position : Partition → Int} {s : Session σ}
    (hcheckpoint : d.checkpoint = true) (hstrict : d.configured = .strict)
    (h : Run w d log start rounds position s) : Run.Invariant d log start rounds position s := by
  have hlevel : d.level = .strict := by rw [Dispatcher.level, if_pos hcheckpoint, hstrict]
  induction h with
  | start world =>
    refine ⟨.start world, fun p => le_rfl, fun p committed hc => ?_, fun p o _ h1 h2 => by omega, by simp⟩
    simp [Session.start, Tracker.get?, Tracker.empty] at hc
  | @next rounds position r stop run carries hd ih =>
    obtain ⟨accepted, sought, hr⟩ := concluded_of_dispatch hcheckpoint (by rw [hlevel]; rfl) hd
    refine ⟨?_, fun p => ?_, fun p committed hc => ?_, fun p o ho h1 h2 => ?_, ?_⟩
    · have := ih.coherent.dispatch w d r.registry r.batch
      rwa [hd] at this
    · exact (ih.start_le p).trans (hr.advances hlevel carries p).1
    · obtain ⟨hle, hcommitted, -⟩ := hr.advances hlevel carries p
      rcases hcommitted committed hc with hc | hc
      · exact (ih.committed_le p committed hc).trans hle
      · exact hc
    · by_cases hp : o < position p
      · rcases ih.passed p o ho h1 hp with ⟨r', hr', h⟩ | ⟨r', hr', h⟩
        · exact .inl ⟨r', List.mem_cons_of_mem _ hr', h⟩
        · exact .inr ⟨r', List.mem_cons_of_mem _ hr', h⟩
      · rcases (hr.advances hlevel carries p).2.2 o ho (not_lt.1 hp) h2 with h | h
        · exact .inl ⟨r, List.mem_cons_self, h⟩
        · exact .inr ⟨r, List.mem_cons_self, h⟩
    · refine List.forall_mem_cons.2 ⟨fun p o ho => ?_, ih.listed⟩
      obtain ⟨hlog, hle, -⟩ := (carries.carried p o).1 ((hr.known _).1 ho)
      exact ⟨hlog, (ih.start_le p).trans hle⟩

/-! ## The guarantee -/

/-- Below the last commit of a partition, from the start of the run on, every record is settled or
forsaken. -/
theorem Run.Invariant.settled_or_forsaken {σ : Type} {d : Dispatcher} {log : Log}
    {start : Partition → Int} {rounds : List (Round σ)} {position : Partition → Int} {s : Session σ}
    (h : Run.Invariant d log start rounds position s) {p : Partition} {committed o : Int}
    (hc : committed ∈ (accepted p s.journal).head?) (hlog : o ∈ log p) (hstart : start p ≤ o)
    (ho : o < committed) :
    (∃ r ∈ rounds, r.Settles d ⟨p, o⟩) ∨ ∃ r ∈ rounds, r.Forsakes ⟨p, o⟩ := by
  have hle : committed ≤ position p := h.committed_le p committed (by rw [h.coherent.tracker]; exact hc)
  exact h.passed p o hlog hstart (by omega)

/-- Below the last commit of a partition, from the start of the run on, every record was settled in some
round. -/
def Lossless {σ : Type} (d : Dispatcher) (log : Log) (start : Partition → Int) (rounds : List (Round σ))
    (s : Session σ) : Prop :=
  ∀ p, ∀ committed ∈ (accepted p s.journal).head?, ∀ o ∈ log p, start p ≤ o → o < committed →
    ∃ r ∈ rounds, r.Settles d ⟨p, o⟩

/-- A strict run in which no rewind fails loses no record. -/
theorem lossless_of_rewound {σ : Type} {w : World σ} {d : Dispatcher} {log : Log}
    {start : Partition → Int} {rounds : List (Round σ)} {position : Partition → Int} {s : Session σ}
    (hcheckpoint : d.checkpoint = true) (hstrict : d.configured = .strict)
    (h : Run w d log start rounds position s)
    (hrewound : ∀ r ∈ rounds, ∀ offsets, ¬ r.before.Since r.after (.sought offsets false)) :
    Lossless d log start rounds s := by
  intro p committed hc o hlog hstart ho
  have hi := h.invariant hcheckpoint hstrict
  refine (hi.settled_or_forsaken hc hlog hstart ho).resolve_right ?_
  rintro ⟨r, hr, -, offsets, resume, hsince, -⟩
  exact hrewound r hr offsets hsince

/-- A strict run loses no record if and only if no commit passes a record that was forsaken, which is to say
abandoned in a batch whose rewind failed, and settled in no other batch. -/
theorem lossless_iff {σ : Type} {w : World σ} {d : Dispatcher} {log : Log} {start : Partition → Int}
    {rounds : List (Round σ)} {position : Partition → Int} {s : Session σ}
    (hcheckpoint : d.checkpoint = true) (hstrict : d.configured = .strict)
    (h : Run w d log start rounds position s) :
    Lossless d log start rounds s ↔
      ∀ p, ∀ committed ∈ (accepted p s.journal).head?, ∀ o < committed,
        (∃ r ∈ rounds, r.Forsakes ⟨p, o⟩) → ∃ r ∈ rounds, r.Settles d ⟨p, o⟩ := by
  have hi := h.invariant hcheckpoint hstrict
  constructor
  · rintro hl p committed hc o ho ⟨r, hr, hf⟩
    obtain ⟨hlog, hstart⟩ := hi.listed r hr p o (by simp [hf.1])
    exact hl p committed hc o hlog hstart ho
  · intro hf p committed hc o hlog hstart ho
    rcases hi.settled_or_forsaken hc hlog hstart ho with hs | hs
    · exact hs
    · exact hf p committed hc o ho hs

/-! ## A run that loses a record -/

namespace Loss

/-- Surroundings in which every job gives up, commits are accepted and rewinds fail. -/
def world : World Unit where
  clock s := (0, s)
  refresh _ s := s
  submit _ s := (true, s)
  finish _ s := (.error (.giveUp ""), s)
  cancelAll s := s
  shutdown s := s
  next _ s := (some 0, s)
  create _ _ s := (.ok (), s)
  spread s := (0, s)
  send _ s := (.ok (), s)
  deliver _ s := (.ok (), s)
  flush _ s := (.done, s)
  commit _ s := (.ok (), s)
  seek _ s := (.error (.other ""), s)

/-- A strict pipeline that republishes. -/
def dispatcher : Dispatcher := ⟨true, .strict, .standard, default, default⟩

/-- One subscriber, which takes every record. -/
def registry : Registry := ⟨.ofList [("", ⟨[⟨"", .standard, .standard⟩], .empty⟩)]⟩

/-- The only partition. -/
def partition : Partition := ⟨"", 0⟩

/-- It holds two offsets. -/
def log : Log := fun p => {o | p = partition ∧ (o = 6 ∨ o = 7)}

/-- The record at the first offset is abandoned, and the rewind to it fails. -/
def first : Round Unit where
  registry := registry
  batch := ⟨[⟨⟨partition, 6⟩, none, [], .null⟩], []⟩
  before := .start ()
  summary := ⟨1, 0, 0, 0, 0, 1, .empty, .empty⟩
  ledger := Ledger.empty.abandon ⟨partition, 6⟩
  after := (dispatcher.dispatch world registry ⟨[⟨⟨partition, 6⟩, none, [], .null⟩], []⟩ (.start ())).2

/-- The message at the second offset cannot be decoded, so what is behind it is committed. -/
def second : Round Unit where
  registry := registry
  batch := ⟨[], [⟨some partition, some 7⟩]⟩
  before := first.after
  summary := ⟨0, 0, 1, 0, 0, 0, .ofList [(partition, 8)], .empty⟩
  ledger := Ledger.empty.settle ⟨partition, 7⟩
  after := (dispatcher.dispatch world registry ⟨[], [⟨some partition, some 7⟩]⟩ first.after).2

theorem carries_first :
    Carries log (fun _ => 6) (fun p => if p = partition then 7 else 6) first.batch := by
  have hplaces : first.batch.places = [⟨partition, 6⟩] := rfl
  refine ⟨fun p => by split <;> omega, fun p o => ?_, fun p => ?_⟩
  · simp only [hplaces, List.mem_singleton, Coordinates.mk.injEq, log, Set.mem_ofPred_eq]
    constructor
    · rintro ⟨rfl, rfl⟩
      simp
    · rintro ⟨⟨rfl, rfl | rfl⟩, -, hlt⟩
      · exact ⟨rfl, rfl⟩
      · simp at hlt
  · by_cases hp : p = partition
    · exact .inr (by simp [hplaces, hp])
    · exact .inl (by simp [hp])

theorem carries_second :
    Carries log (fun p => (first.summary.rewound.get? p).getD (if p = partition then 7 else 6))
      (fun p => if p = partition then 8 else 6) second.batch := by
  have hplaces : second.batch.places = [⟨partition, 7⟩] := rfl
  have hposition : ∀ p, (first.summary.rewound.get? p).getD (if p = partition then 7 else 6) =
      if p = partition then 7 else 6 := fun _ => rfl
  refine ⟨fun p => ?_, fun p o => ?_, fun p => ?_⟩
  · rw [hposition]
    split <;> omega
  · rw [hposition]
    simp only [hplaces, List.mem_singleton, Coordinates.mk.injEq, log, Set.mem_ofPred_eq]
    constructor
    · rintro ⟨rfl, rfl⟩
      simp
    · rintro ⟨⟨rfl, rfl | rfl⟩, hle, -⟩
      · simp at hle
      · exact ⟨rfl, rfl⟩
  · rw [hposition]
    by_cases hp : p = partition
    · exact .inr (by simp [hplaces, hp])
    · exact .inl (by simp [hp])

/-- Both batches are dispatched to their ends. -/
theorem run : Run world dispatcher log (fun _ => 6) [second, first]
    (fun p => (second.summary.rewound.get? p).getD (if p = partition then 8 else 6)) second.after :=
  .next second _ (.next first _ (.start ()) carries_first (Prod.ext (by cbv) rfl)) carries_second
    (Prod.ext (by cbv) rfl)

/-- The record at the first offset is lost: no round settled it, and a commit passed it. -/
theorem not_lossless : ¬ Lossless dispatcher log (fun _ => 6) [second, first] second.after := by
  intro h
  have hcommitted : (accepted partition second.after.journal).head? = some 8 := by cbv
  obtain ⟨r, hr, hsettled, -⟩ := h partition 8 hcommitted 6 ⟨rfl, .inl rfl⟩ (le_refl (6 : Int)) (by omega)
  have hsecond : second.ledger.status ⟨partition, 6⟩ = none := by cbv
  have hfirst : first.ledger.status ⟨partition, 6⟩ = some .abandoned := by cbv
  rcases List.mem_cons.1 hr with rfl | hr
  · simp [hsecond] at hsettled
  · obtain rfl := List.mem_singleton.1 hr
    simp [hfirst] at hsettled

/-- The run is not lossless because its commit passes the forsaken record. -/
theorem passes_forsaken :
    ¬ Lossless dispatcher log (fun _ => 6) [second, first] second.after ∧
      ¬ ∀ p, ∀ committed ∈ (accepted p second.after.journal).head?, ∀ o < committed,
        (∃ r ∈ [second, first], r.Forsakes ⟨p, o⟩) → ∃ r ∈ [second, first], r.Settles dispatcher ⟨p, o⟩ :=
  ⟨not_lossless, fun h => not_lossless ((lossless_iff rfl rfl run).2 h)⟩

end Loss

end Relay
