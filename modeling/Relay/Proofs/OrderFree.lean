import Mathlib
import Relay.Proofs.Acknowledging
import Relay.Proofs.Foretelling

/-!
# A dispatch does not depend on the order of completion

Under a script, what a dispatch comes to can be told without running it: the marks of all records, first of
filtering and mapping and then of publishing, give its ledger, its summary and its messages. Whatever the
surroundings complete first, the dispatch ends and comes to this. So two dispatches under one script, with
the same commits known, differ in nothing but the order of events.
-/

namespace Relay

namespace Script

variable (script : Script) (d : Dispatcher) (subscribers : List Subscriber) (batch : Batch)

/-- What a dispatch has come to when its batch is matched. -/
def atMatching : Tally where
  ledger := (Dispatcher.idle subscribers batch).foldl Ledger.settle .empty
  summary :=
    { Summary.empty with
      matched := (Matching.ofRecords subscribers batch.records).matched.length
      unmatched := (Matching.ofRecords subscribers batch.records).unmatched.length
      undecodable := batch.errors.length }
  mapped := 0
  handed := 0
  reported := 0

/-- What a dispatch has come to when its records are filtered and mapped. -/
def afterFiltering : Tally :=
  (atMatching subscribers batch).addAll
    (((Matching.ofRecords subscribers batch.records).matched.zipIdx.map
      fun x => script.filterMarks d.budget ⟨x.2, x.1, .first 0, .resting 0⟩).sum)

/-- What a dispatch has come to when its payloads are published. -/
def afterPublishing : Tally :=
  let t := script.afterFiltering d subscribers batch
  t.addAll (t.mapped.map fun m => script.firstPublish d d.budget (m, m.slot)).sum

/-- What a dispatch has come to when it acknowledges its batch. -/
def foretells : Tally :=
  if d.checkpoint then script.afterPublishing d subscribers batch
  else
    let t := script.afterFiltering d subscribers batch
    t.addAll (t.mapped.map fun m => .status m.routed.coordinates .settled)

/-- The summary of a dispatch that has come to a tally. -/
def closes (t : Tally) (tracker : Tracker) : Summary :=
  let asked := Dispatcher.asked d.level tracker t.ledger
  let resumed := Dispatcher.resumed d.level t.ledger (asked.isEmpty || script.commit)
  { t.summary with
    committed := if asked.isEmpty || !script.commit then t.summary.committed else asked
    rewound := if resumed.isEmpty || !script.seek then t.summary.rewound else resumed }

end Script

section Dispatch

variable {σ : Type} {w : World σ} {d : Dispatcher} {registry : Registry} {script : Script}
  {subscribers : List Subscriber} {batch : Batch} {s s' : Session σ} {c c' : Course σ}

/-- When a batch is matched, the jobs of its matched records are to come. -/
theorem FilterForetold.begins (h : Dispatcher.Begins subscribers batch s c) :
    FilterForetold script d.budget s (script.afterFiltering d subscribers batch)
      ((Matching.ofRecords subscribers batch.records).matched.zipIdx.map
        (fun x => ⟨x.2, x.1, .first 0, .resting 0⟩) ++ []) c := by
  refine ⟨⟨⟨[], h.session⟩, fun _ => ?_⟩, fun t ht job hp => ?_⟩
  · obtain ⟨added, hj, hnews⟩ := h.session.adds
    have hhanded : added.filterMap Event.handed? = [] := by
      rw [filterMap_of_isNews Event.handed?_of_not_isNews, hnews]
      rfl
    have hreported : added.filterMap Event.reported? = [] := by
      rw [filterMap_of_isNews Event.reported?_of_not_isNews, hnews]
      rfl
    have htally : c.tally s = Script.atMatching subscribers batch := by
      simp only [Course.tally, Session.written_eq hj, hhanded, hreported, h.ledger, h.summary, h.mapped]
      rfl
    rw [htally, List.append_nil, List.map_map]
    rfl
  · simp only [List.append_nil, List.mem_map] at ht
    obtain ⟨x, -, rfl⟩ := ht
    simp at hp

/-- When the chains are done, the mapped payloads are to be published. -/
theorem FilterForetold.published
    (h : FilterForetold script d.budget s (script.afterFiltering d subscribers batch) [] c) :
    LaunchForetold d script d.budget s (script.afterPublishing d subscribers batch)
      ((Dispatcher.sorted c.mapped.reverse).map fun m => (m, m.slot)) [] c := by
  refine ⟨⟨h.foretold.history, fun ha => ?_⟩, by simp⟩
  have htally : c.tally s = script.afterFiltering d subscribers batch := h.foretold.total ha
  have hperm := Dispatcher.sorted_perm c.mapped
  have hmapped : (script.afterFiltering d subscribers batch).mapped = c.mapped := by
    rw [← htally]
    rfl
  have hsum : (((Dispatcher.sorted c.mapped.reverse).map fun m => (m, m.slot)).map
      (script.firstPublish d d.budget)).sum =
        ((script.afterFiltering d subscribers batch).mapped.map
          fun m => script.firstPublish d d.budget (m, m.slot)).sum := by
    rw [hmapped, Multiset.map_coe, Multiset.sum_coe, List.map_map]
    exact (hperm.map _).sum_eq
  rw [htally, hsum, List.map_nil, List.sum_nil, add_zero]
  rfl

/-- Once every record is launched, only the messages in flight are foretold. -/
theorem LaunchForetold.over {total : Tally} {ts : List (Task Mapped Shipment)}
    (h : LaunchForetold d script d.budget s total [] ts c) :
    PublishForetold d script d.budget s total ts c := by
  refine ⟨⟨h.foretold.history, fun ha => ?_⟩, h.messages⟩
  have htotal := h.foretold.total ha
  rwa [List.map_nil, List.sum_nil, zero_add] at htotal

/-- Records that are not republished are settled once their chains are done. -/
theorem FilterForetold.settled
    (h : FilterForetold script d.budget s (script.afterFiltering d subscribers batch) [] c)
    (ha : ∀ e ∈ s.written c.session, script.Allows d.budget.policy.window e) :
    (c.settleAll ((Dispatcher.sorted c.mapped.reverse).map (·.routed.coordinates))).tally s =
      (script.afterFiltering d subscribers batch).addAll
        ((script.afterFiltering d subscribers batch).mapped.map
          fun m => .status m.routed.coordinates .settled) := by
  have htally : c.tally s = script.afterFiltering d subscribers batch := h.foretold.total ha
  have hperm := Dispatcher.sorted_perm c.mapped
  have hmapped : (script.afterFiltering d subscribers batch).mapped = c.mapped := by
    rw [← htally]
    rfl
  rw [Course.tally_settleAll, htally, hmapped, Multiset.map_coe, List.map_map]
  exact congrArg _ (Multiset.coe_eq_coe.2 (hperm.map _))

/-- The consumer group answers as the script has it. -/
theorem answers_of_acknowledged {accepted sought : Bool} {old : List Event}
    (h : Dispatcher.Acknowledged d.level accepted sought c c') (hold : s.Adds old c.session)
    (ha : ∀ e ∈ s.written c'.session, script.Allows d.budget.policy.window e) :
    accepted = ((Dispatcher.asked d.level c.session.tracker c.ledger).isEmpty || script.commit) ∧
      ((Dispatcher.resumed d.level c.ledger accepted).isEmpty = false → sought = script.seek) := by
  obtain ⟨added, hw, hnews⟩ := Session.written_trans hold h.adds
  have hallowed : ∀ e ∈ added.filter Event.isNews, script.Allows d.budget.policy.window e := by
    intro e he
    refine ha e ?_
    rw [hw]
    exact List.mem_append_left _ (List.mem_filter.1 he).1
  rw [hnews] at hallowed
  refine ⟨?_, fun he => ?_⟩
  · cases he : (Dispatcher.asked d.level c.session.tracker c.ledger).isEmpty with
    | true => exact h.asked he
    | false =>
      refine hallowed (.committed (Dispatcher.asked d.level c.session.tracker c.ledger) accepted)
        (List.mem_append_right _ ?_)
      simp [Dispatcher.call, he]
  · refine hallowed (.sought (Dispatcher.resumed d.level c.ledger accepted) sought)
      (List.mem_append_left _ ?_)
    simp [Dispatcher.call, he]

/-- The calls to the consumer group hand no message over and report no delivery. -/
theorem filterMap_calls {β : Type} {f : Event → Option β} (hs : ∀ o ok, f (.sought o ok) = none)
    (hc : ∀ o ok, f (.committed o ok) = none) (offsets offsets' : Offsets) (ok ok' : Bool) :
    (Dispatcher.call .sought offsets ok ++ Dispatcher.call .committed offsets' ok').filterMap f = [] := by
  simp only [Dispatcher.call, List.filterMap_append]
  split <;> split <;> simp [hs, hc]

/-- A batch that was acknowledged under a script, once it has come to a tally. -/
theorem closes_of_acknowledged {accepted sought : Bool} {t : Tally} {old : List Event}
    (h : Dispatcher.Acknowledged d.level accepted sought c c') (ht : c.tally s = t)
    (hold : s.Tells old c.session)
    (ha : ∀ e ∈ s.written c'.session, script.Allows d.budget.policy.window e) :
    c'.summary = script.closes d t s.tracker ∧ c'.ledger = t.ledger ∧
      (s.written c'.session).filterMap Event.handed? = t.handed ∧
      (s.written c'.session).filterMap Event.reported? = t.reported := by
  obtain ⟨haccepted, hsought⟩ := answers_of_acknowledged h hold.adds ha
  subst ht
  rw [hold.tracker] at haccepted
  refine ⟨?_, h.ledger, ?_, ?_⟩
  · have hcommitted : ((Dispatcher.asked d.level s.tracker c.ledger).isEmpty || !accepted) =
        ((Dispatcher.asked d.level s.tracker c.ledger).isEmpty || !script.commit) := by
      rw [haccepted]
      cases (Dispatcher.asked d.level s.tracker c.ledger).isEmpty <;> rfl
    have hrewound : ((Dispatcher.resumed d.level c.ledger accepted).isEmpty || !sought) =
        ((Dispatcher.resumed d.level c.ledger accepted).isEmpty || !script.seek) := by
      cases he : (Dispatcher.resumed d.level c.ledger accepted).isEmpty with
      | true => rfl
      | false => rw [hsought he]
    rw [h.summary, hold.tracker, hcommitted, hrewound, haccepted]
    rfl
  · rw [Session.filterMap_written Event.handed?_of_not_isNews hold.adds h.adds,
      filterMap_calls (fun _ _ => rfl) (fun _ _ => rfl), List.nil_append]
    rfl
  · rw [Session.filterMap_written Event.reported?_of_not_isNews hold.adds h.adds,
      filterMap_calls (fun _ _ => rfl) (fun _ _ => rfl), List.nil_append]
    rfl

/-- The course that a dispatch acknowledges has come to what the script foretells. -/
theorem foretells_of_stages
    (h : if d.checkpoint then
        PublishForetold d script d.budget s (script.afterPublishing d subscribers batch) [] c
      else ∃ c₁, FilterForetold script d.budget s (script.afterFiltering d subscribers batch) [] c₁ ∧
        c = c₁.settleAll ((Dispatcher.sorted c₁.mapped.reverse).map (·.routed.coordinates))) :
    (∃ old, s.Tells old c.session) ∧
      ((∀ e ∈ s.written c.session, script.Allows d.budget.policy.window e) →
        c.tally s = script.foretells d subscribers batch) := by
  rw [Script.foretells]
  split at h
  · next hcheckpoint =>
    refine ⟨h.foretold.history, fun ha => ?_⟩
    rw [if_pos hcheckpoint]
    exact h.foretold.total ha
  · next hcheckpoint =>
    obtain ⟨c₁, h, rfl⟩ := h
    rw [if_neg hcheckpoint]
    have hsession : (c₁.settleAll ((Dispatcher.sorted c₁.mapped.reverse).map
        (·.routed.coordinates))).session = c₁.session := by rw [Course.settleAll_eq]
    rw [hsession]
    exact ⟨h.foretold.history, h.settled⟩

/-- In surroundings where work completes, a dispatch that goes as the script has it ends, and it comes to what
the script foretells. -/
theorem dispatch_foretold (hw : w.Live) (d : Dispatcher) (registry : Registry) (batch : Batch)
    (s : Session σ)
    (ha : ∀ e ∈ s.written (d.dispatch w registry batch s).2, script.Allows d.budget.policy.window e) :
    let t := script.foretells d (registry.subscribers d.pipeline) batch
    (d.dispatch w registry batch s).1 = .done (script.closes d t s.tracker) t.ledger ∧
      (s.written (d.dispatch w registry batch s).2).filterMap Event.handed? = t.handed ∧
      (s.written (d.dispatch w registry batch s).2).filterMap Event.reported? = t.reported := by
  intro t
  have h₁ := FilterForetold.keeps w d script d.budget s
    (script.afterFiltering d (registry.subscribers d.pipeline) batch)
  have h₂ := PublishForetold.keeps w d registry script d.budget s
    (script.afterPublishing d (registry.subscribers d.pipeline) batch)
  have hstarts₁ := h₁.starts (fun _ _ c => (true, c)) (fun began h => h.began began)
    (fun h hk => (Prod.mk.inj hk).2 ▸ h) (by simp)
  have hstarts₂ := LaunchForetold.starts w d registry script d.budget s
    (script.afterPublishing d (registry.subscribers d.pipeline) batch)
  obtain ⟨hfailed, -, hdone⟩ := Dispatcher.dispatch_spec batch s hstarts₁ h₁ (fun _ _ h => h)
    hstarts₂ h₂ (fun _ _ h => h.over) (fun _ h => FilterForetold.begins h) (fun _ h => h.published)
  rcases hd : d.dispatch w registry batch s with ⟨⟨summary, ledger⟩ | e | _, s'⟩
  · rw [hd] at ha
    obtain ⟨c, hconclude, hc⟩ := hdone _ _ _ hd
    obtain ⟨⟨old, hold⟩, htally⟩ := foretells_of_stages hc
    obtain ⟨accepted, sought, hack⟩ := Dispatcher.acknowledge_spec w d.level c
    simp only [Dispatcher.conclude, Prod.mk.injEq, Dispatched.done.injEq] at hconclude
    obtain ⟨⟨hsummary, hledger⟩, rfl⟩ := hconclude
    have hadds := hold.adds.trans hack.adds
    have hobserve := (Session.tells_observe "batch_dispatch_duration_ms" []
      (Dispatcher.acknowledge w d.level c).session).adds
    have hack' : ∀ e ∈ s.written (Dispatcher.acknowledge w d.level c).session,
        script.Allows d.budget.policy.window e := by
      intro e he
      exact ha e (Session.mem_written hadds hobserve he)
    obtain ⟨hsum, hled, hhanded, hreported⟩ := closes_of_acknowledged hack
      (htally fun e he => hack' e (Session.mem_written hold.adds hack.adds he)) hold hack'
    refine ⟨by rw [← hsummary, ← hledger, hsum, hled], ?_, ?_⟩
    · rw [Session.filterMap_written Event.handed?_of_not_isNews hadds hobserve, List.filterMap_nil,
        List.nil_append, hhanded]
    · rw [Session.filterMap_written Event.reported?_of_not_isNews hadds hobserve, List.filterMap_nil,
        List.nil_append, hreported]
  · -- a dispatch fails only where something is not as the script has it
    rw [hd] at ha
    obtain ⟨c, ⟨⟨old, hold⟩, e, he, hdeviates⟩, htell⟩ := hfailed _ _ hd
    exact absurd (ha e (Session.mem_written hold.adds htell.adds he)) hdeviates
  · exact (Dispatcher.dispatch_ne_stuck hw _ _ _ _ _ hd).elim

end Dispatch

/-- A dispatch goes as a script has it. -/
def Script.Governs {σ : Type} (script : Script) (w : World σ) (d : Dispatcher) (registry : Registry)
    (batch : Batch) (s : Session σ) : Prop :=
  ∀ e ∈ s.written (d.dispatch w registry batch s).2, script.Allows d.retry.window e

/-- Two dispatches of one batch that go as one script has it, with the same commits known, end with the same
ledger and the same summary, hand over the same messages and meet the same deliveries, in whatever order their
work completes. -/
theorem dispatch_order_free {σ₁ σ₂ : Type} {w₁ : World σ₁} {w₂ : World σ₂} (script : Script)
    (d : Dispatcher) (registry : Registry) (batch : Batch) (s₁ : Session σ₁) (s₂ : Session σ₂)
    (hw₁ : w₁.Live) (hw₂ : w₂.Live) (htracker : s₁.tracker = s₂.tracker)
    (h₁ : script.Governs w₁ d registry batch s₁) (h₂ : script.Governs w₂ d registry batch s₂) :
    ∃ summary ledger,
      (d.dispatch w₁ registry batch s₁).1 = .done summary ledger ∧
      (d.dispatch w₂ registry batch s₂).1 = .done summary ledger ∧
      ((s₁.written (d.dispatch w₁ registry batch s₁).2).filterMap Event.handed?).Perm
        ((s₂.written (d.dispatch w₂ registry batch s₂).2).filterMap Event.handed?) ∧
      ((s₁.written (d.dispatch w₁ registry batch s₁).2).filterMap Event.reported?).Perm
        ((s₂.written (d.dispatch w₂ registry batch s₂).2).filterMap Event.reported?) := by
  obtain ⟨hdone₁, hhanded₁, hreported₁⟩ := dispatch_foretold hw₁ d registry batch s₁ h₁
  obtain ⟨hdone₂, hhanded₂, hreported₂⟩ := dispatch_foretold hw₂ d registry batch s₂ h₂
  refine ⟨_, _, hdone₁, ?_, ?_, ?_⟩
  · rw [hdone₂, htracker]
  · exact Multiset.coe_eq_coe.1 (hhanded₁.trans hhanded₂.symm)
  · exact Multiset.coe_eq_coe.1 (hreported₁.trans hreported₂.symm)

/-! ## Two orders of one batch -/

namespace Orders

/-- Every record passes and is published; the job of the first record is canceled once. -/
def script : Script where
  process slot times :=
    if slot = 0 ∧ times = 0 then .error .canceled else .ok ⟨true, ⟨.null, false⟩⟩
  publish _ _ := .reported (.ok ())
  commit := true
  seek := true

/-- Surroundings where everything goes as the script has it, and a rule picks the work that completes. -/
def world (next : Nat → Nat) : World Unit where
  clock s := (0, s)
  refresh _ s := s
  submit _ s := (true, s)
  finish job s := (script.process job.slot job.times, s)
  cancelAll s := s
  shutdown s := s
  next waiting s := (some (next waiting.length), s)
  create _ _ s := (.ok (), s)
  spread s := (0, s)
  send _ s := (.ok (), s)
  deliver _ s := (.ok (), s)
  flush _ s := (.done, s)
  commit _ s := (.ok (), s)
  seek _ s := (.ok (), s)

/-- The work that waits longest completes first. -/
def oldest : World Unit := world fun _ => 0

/-- The work that came last completes first. -/
def newest : World Unit := world fun count => count - 1

/-- A strict pipeline that republishes. -/
def dispatcher : Dispatcher := ⟨true, .strict, .standard, default, ⟨"", "", 1, default⟩⟩

/-- One subscriber, which takes every record of its tenant. -/
def registry : Registry :=
  ⟨.ofList [("", ⟨[⟨"", ⟨false, .all, [⟨"", none, []⟩]⟩, .standard⟩], .ofList [("", ⟨""⟩)]⟩)]⟩

/-- Two records, told apart by their keys. -/
def batch : Batch :=
  ⟨[⟨⟨⟨"", 0⟩, 0⟩, some [0], [], .null⟩, ⟨⟨⟨"", 0⟩, 1⟩, some [1], [], .null⟩], []⟩

theorem live_oldest : oldest.Live := by
  intro waiting s h
  exact ⟨0, List.length_pos_iff.2 h, s, rfl⟩

theorem live_newest : newest.Live := by
  intro waiting s h
  have hlength := List.length_pos_iff.2 h
  exact ⟨waiting.length - 1, by omega, s, rfl⟩

/-- The events of a dispatch can be compared with the script one by one. -/
theorem governs_of_foldr {w : World Unit}
    (h : ((Session.start ()).written (dispatcher.dispatch w registry batch (.start ())).2).foldr
      (fun e p => script.Allows dispatcher.retry.window e ∧ p) True) :
    script.Governs w dispatcher registry batch (.start ()) := by
  unfold Script.Governs
  generalize (Session.start ()).written (dispatcher.dispatch w registry batch (.start ())).2 = written at h ⊢
  induction written with
  | nil => simp
  | cons e written ih =>
    rw [List.forall_mem_cons]
    exact ⟨h.1, ih h.2⟩

theorem governs_oldest : script.Governs oldest dispatcher registry batch (.start ()) := by
  refine governs_of_foldr ?_
  cbv
  exact ⟨⟨_, rfl⟩, ⟨_, rfl⟩, trivial⟩

theorem governs_newest : script.Governs newest dispatcher registry batch (.start ()) := by
  refine governs_of_foldr ?_
  cbv
  exact ⟨⟨_, rfl⟩, ⟨_, rfl⟩, trivial⟩

/-- The keys of the messages whose deliveries were met, the latest first. -/
def met (w : World Unit) : List (Option Bytes) :=
  (((Session.start ()).written (dispatcher.dispatch w registry batch (.start ())).2).filterMap
    Event.reported?).map fun x => x.1.key

/-- The deliveries are met in different orders, and the dispatches come to the same. -/
theorem same_end :
    met oldest = [some [1], some [0]] ∧ met newest = [some [0], some [1]] ∧
      ∃ summary ledger,
        (dispatcher.dispatch oldest registry batch (.start ())).1 = .done summary ledger ∧
        (dispatcher.dispatch newest registry batch (.start ())).1 = .done summary ledger := by
  obtain ⟨summary, ledger, holdest, hnewest, -, -⟩ :=
    dispatch_order_free script dispatcher registry batch (.start ()) (.start ()) live_oldest live_newest rfl
      governs_oldest governs_newest
  exact ⟨by cbv, by cbv, summary, ledger, holdest, hnewest⟩

end Orders

end Relay
