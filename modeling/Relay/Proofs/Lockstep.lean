import Mathlib.Data.Option.Basic
import Relay.Proofs.Acknowledging
import Relay.Proofs.Marks

/-!
# Two runs in lockstep

Two dispatches in different surroundings run in lockstep if what they ask of them is answered alike. Each step of a
stage keeps two courses alike if each launch and each landing does (`Work.Lockstep`), so no later proof speaks of the
loop. Nothing is asked of producers here: what they do is left open, and it may differ.
-/

namespace Relay

/-- Two answers agree: they say the same, and the states after them are related. -/
def Agree {β σ τ : Type} (R : σ → τ → Prop) (x : β × σ) (y : β × τ) : Prop := x.1 = y.1 ∧ R x.2 y.2

theorem Agree.of {β σ τ : Type} {R : σ → τ → Prop} (answer : β) {state : σ} {state' : τ} (h : R state state') :
    Agree R (answer, state) (answer, state') := ⟨rfl, h⟩

theorem Agree.exists_eq {β σ τ : Type} {R : σ → τ → Prop} {x : β × σ} {y : β × τ} (h : Agree R x y) :
    ∃ answer state state', x = (answer, state) ∧ y = (answer, state') ∧ R state state' :=
  ⟨x.1, x.2, y.2, rfl, Prod.ext h.1.symm rfl, h.2⟩

/-! ## Work with retries -/

namespace Work

variable {σ τ α ι : Type} {w : World σ} {w' : World τ} {k : Work σ α ι} {k' : Work τ α ι}
  {A : Course σ → Course τ → Prop} {c : Course σ} {c' : Course τ}

/-- Two kinds of work on the same items, in two surroundings, whose steps keep courses alike in the sense of `A`. -/
structure Lockstep (w : World σ) (w' : World τ) (k : Work σ α ι) (k' : Work τ α ι)
    (A : Course σ → Course τ → Prop) : Prop where
  stage : k.stage = k'.stage
  failures : k.failures = k'.failures
  place : k.place = k'.place
  waiting : k.waiting = k'.waiting
  now : ∀ {c c'}, A c c' → c.session.now = c'.session.now
  tick : ∀ {c c'} least, A c c' → A (c.on (·.tick w least)) (c'.on (·.tick w' least))
  next : ∀ {c c'} waiting, A c c' →
    Agree (fun x y => A (c.on ({ · with world := x })) (c'.on ({ · with world := y })))
      (w.next waiting c.session.world) (w'.next waiting c'.session.world)
  count : ∀ {c c'} series n, A c c' → A (c.on (·.note (.counted series n))) (c'.on (·.note (.counted series n)))
  judge : ∀ {c c'} stage slot a now decision, A c c' →
    A (c.on (·.note (.judged stage slot a now decision))) (c'.on (·.note (.judged stage slot a now decision)))
  abandon : ∀ {c c'} place, A c c' → A (c.abandon place) (c'.abandon place)
  launch : ∀ {c c'} slot item a, A c c' → Agree A (k.launch slot item a c) (k'.launch slot item a c')
  land : ∀ {c c'} item ticket, A c c' → Agree A (k.land item ticket c) (k'.land item ticket c')

namespace Lockstep

theorem fail (h : Lockstep w w' k k' A) (b : Budget) (t : Task α ι) (giveUp : Bool) (hA : A c c') :
    Agree A (k.fail b t giveUp c) (k'.fail b t giveUp c') := by
  have hjudged := h.judge k.stage t.slot t.attempt c.session.now
    (b.policy.decide c.session.now t.attempt giveUp b.enabled) (h.count k.failures 1 hA)
  simp only [Work.fail, ← h.stage, ← h.failures, ← h.place, ← h.now hA]
  split
  · exact ⟨rfl, h.count _ 1 hjudged⟩
  · exact ⟨rfl, h.abandon _ (h.count _ 1 hjudged)⟩

theorem advance (h : Lockstep w w' k k' A) (b : Budget) (t : Task α ι) (hA : A c c') :
    Agree A (k.advance b t c) (k'.advance b t c') := by
  simp only [Work.advance]
  cases t.phase with
  | resting wake =>
    obtain ⟨launch, c₁, c₁', hl, hl', hA⟩ := (h.launch t.slot t.item t.attempt hA).exists_eq
    simp only [hl, hl']
    cases launch with
    | flying ticket => exact ⟨rfl, hA⟩
    | failed giveUp =>
      obtain ⟨hrest, hA⟩ := h.fail b t giveUp hA
      exact ⟨congrArg Except.ok hrest, hA⟩
    | stopped e => exact ⟨rfl, hA⟩
  | flying ticket =>
    obtain ⟨landing, c₁, c₁', hl, hl', hA⟩ := (h.land t.item ticket hA).exists_eq
    simp only [hl, hl']
    cases landing with
    | done => exact ⟨rfl, hA⟩
    | failed giveUp =>
      obtain ⟨hrest, hA⟩ := h.fail b t giveUp hA
      exact ⟨congrArg Except.ok hrest, hA⟩
    | stopped e => exact ⟨rfl, hA⟩
  | failed giveUp =>
    obtain ⟨hrest, hA⟩ := h.fail b t giveUp hA
    exact ⟨congrArg Except.ok hrest, hA⟩

theorem step (h : Lockstep w w' k k' A) (b : Budget) (ts : List (Task α ι)) (hA : A c c') :
    Option.Rel (Agree A) (k.step w b ts c) (k'.step w' b ts c') := by
  have houtside : k.outside = k'.outside := by
    funext t
    simp only [outside, h.waiting]
  obtain ⟨choice, world, world', hn, hn', hA⟩ := (h.next (ts.map k.outside) hA).exists_eq
  simp only [Work.step, ← houtside, hn, hn']
  cases choice with
  | none => exact .none
  | some i =>
    simp only
    cases ts[i]? with
    | none => exact .none
    | some t =>
      obtain ⟨rest, c₁, c₁', ha, ha', hA⟩ := (h.advance b t (h.tick (due t) hA)).exists_eq
      -- the choice of the next attempt and the reading of the clock are one step of the loop
      change k.advance b t (c.on fun s => { s with world }.tick w (due t)) = _ at ha
      change k'.advance b t (c'.on fun s => { s with world := world' }.tick w' (due t)) = _ at ha'
      simp only [ha, ha']
      cases rest with
      | error e => exact .some ⟨rfl, hA⟩
      | ok rest => exact .some ⟨rfl, hA⟩

/-- Two runs end alike if each of their steps keeps the courses alike. -/
theorem run (h : Lockstep w w' k k' A) (b : Budget) (fuel : Nat) (ts : List (Task α ι)) (hA : A c c') :
    Agree A (k.run w b fuel ts c) (k'.run w' b fuel ts c') := by
  induction fuel generalizing ts c c' with
  | zero =>
    cases ts with
    | nil => exact ⟨rfl, hA⟩
    | cons t ts => exact ⟨rfl, hA⟩
  | succ fuel ih =>
    cases ts with
    | nil => exact ⟨rfl, hA⟩
    | cons t ts =>
      have hstep := h.step b (t :: ts) hA
      simp only [Work.run]
      rcases hs : k.step w b (t :: ts) c with _ | ⟨r, c₁⟩ <;>
        rcases hs' : k'.step w' b (t :: ts) c' with _ | ⟨r', c₁'⟩ <;> rw [hs, hs'] at hstep
      · exact ⟨rfl, hA⟩
      · cases hstep
      · cases hstep
      · cases hstep with
        | some hagree =>
          obtain ⟨hr, hA⟩ := hagree
          obtain rfl : r = r' := hr
          cases r with
          | error e => exact ⟨rfl, hA⟩
          | ok tasks => exact ih tasks hA

theorem finish (h : Lockstep w w' k k' A) (b : Budget) (ts : List (Task α ι)) (hA : A c c') :
    Agree A (k.finish w b ts c) (k'.finish w' b ts c') := h.run b _ ts hA

theorem launchAll (h : Lockstep w w' k k' A) {keep : α → ι → Course σ → Bool × Course σ}
    {keep' : α → ι → Course τ → Bool × Course τ}
    (hkeep : ∀ {c c'} item ticket, A c c' → Agree A (keep item ticket c) (keep' item ticket c'))
    (items : List (α × Nat)) (hA : A c c') :
    Agree A (k.launchAll w keep items c) (k'.launchAll w' keep' items c') := by
  induction items generalizing c c' with
  | nil => exact ⟨rfl, hA⟩
  | cons x items ih =>
    obtain ⟨item, slot⟩ := x
    have hticked := h.tick 0 hA
    obtain ⟨launch, c₁, c₁', hl, hl', hA⟩ :=
      (h.launch slot item (.first (c.on (·.tick w 0)).session.now) hticked).exists_eq
    simp only [Work.launchAll, ← h.now hticked, hl, hl']
    cases launch with
    | flying ticket =>
      obtain ⟨kept, c₂, c₂', hk, hk', hA⟩ := (hkeep item ticket hA).exists_eq
      obtain ⟨tasks, c₃, c₃', hr, hr', hA⟩ := (ih hA).exists_eq
      simp only [hk, hk', hr, hr']
      cases tasks with
      | error e => exact ⟨rfl, hA⟩
      | ok tasks => exact ⟨rfl, hA⟩
    | failed giveUp =>
      obtain ⟨tasks, c₂, c₂', hr, hr', hA⟩ := (ih hA).exists_eq
      simp only [hr, hr']
      cases tasks with
      | error e => exact ⟨rfl, hA⟩
      | ok tasks => exact ⟨rfl, hA⟩
    | stopped e => exact ⟨rfl, hA⟩

end Lockstep

end Work

/-! ## Courses -/

/-- Two surroundings whose consumer groups answer alike, as long as their states are related. -/
structure World.GroupAlike {σ τ : Type} (w : World σ) (w' : World τ) (R : σ → τ → Prop) : Prop where
  commit : ∀ {x y} offsets, R x y → Agree R (w.commit offsets x) (w'.commit offsets y)
  seek : ∀ {x y} offsets, R x y → Agree R (w.seek offsets x) (w'.seek offsets y)

theorem World.GroupAlike.refl {σ : Type} (w : World σ) : w.GroupAlike w Eq where
  commit := by
    rintro x _ offsets rfl
    exact ⟨rfl, rfl⟩
  seek := by
    rintro x _ offsets rfl
    exact ⟨rfl, rfl⟩

/-- Two surroundings that answer alike to all but their producers, as long as their states are related. -/
structure World.Alike {σ τ : Type} (w : World σ) (w' : World τ) (R : σ → τ → Prop) : Prop
    extends w.GroupAlike w' R where
  clock : ∀ {x y}, R x y → Agree R (w.clock x) (w'.clock y)
  refresh : ∀ {x y} subscribers, R x y → R (w.refresh subscribers x) (w'.refresh subscribers y)
  submit : ∀ {x y} job, R x y → Agree R (w.submit job x) (w'.submit job y)
  finish : ∀ {x y} job, R x y → Agree R (w.finish job x) (w'.finish job y)
  cancelAll : ∀ {x y}, R x y → R (w.cancelAll x) (w'.cancelAll y)
  next : ∀ {x y} waiting, R x y → Agree R (w.next waiting x) (w'.next waiting y)

/-- Whether an event is about producers or what is handed to them. -/
def Event.isShipping : Event → Bool
  | .created _ _ _ => true
  | .unsent _ _ _ => true
  | .sent _ _ => true
  | .delivered _ _ => true
  | .flushed _ => true
  | _ => false

/-- Two sessions that went the same way since `s₀` and `s₀'`, without producers. -/
structure Session.Alike {σ τ : Type} (R : σ → τ → Prop) (s₀ : Session σ) (s₀' : Session τ) (s : Session σ)
    (s' : Session τ) : Prop where
  world : R s.world s'.world
  now : s.now = s'.now
  tracker : s.tracker = s'.tracker
  /-- Both wrote down the same. -/
  told : ∃ added, s.journal = added ++ s₀.journal ∧ s'.journal = added ++ s₀'.journal ∧
    ∀ e ∈ added, e.isShipping = false
  /-- Neither touched its pools. -/
  pools : s.pools = s₀.pools ∧ s'.pools = s₀'.pools

/-- Two courses that went the same way. -/
structure Course.Alike {σ τ : Type} (R : σ → τ → Prop) (s₀ : Session σ) (s₀' : Session τ) (c : Course σ)
    (c' : Course τ) : Prop where
  session : Session.Alike R s₀ s₀' c.session c'.session
  ledger : c.ledger = c'.ledger
  summary : c.summary = c'.summary
  mapped : c.mapped = c'.mapped

section Alike

variable {σ τ : Type} {w : World σ} {w' : World τ} {R : σ → τ → Prop} {s₀ s : Session σ} {s₀' s' : Session τ}
  {c : Course σ} {c' : Course τ}

namespace Session.Alike

theorem refl (hworld : R s.world s'.world) (hnow : s.now = s'.now) (htracker : s.tracker = s'.tracker) :
    Session.Alike R s s' s s' := ⟨hworld, hnow, htracker, ⟨[], rfl, rfl, by simp⟩, rfl, rfl⟩

theorem note {e : Event} (h : Session.Alike R s₀ s₀' s s') (he : e.isShipping = false) :
    Session.Alike R s₀ s₀' (s.note e) (s'.note e) := by
  obtain ⟨added, hj, hj', hadded⟩ := h.told
  exact { h with
    told := ⟨e :: added, congrArg (e :: ·) hj, congrArg (e :: ·) hj', List.forall_mem_cons.2 ⟨he, hadded⟩⟩ }

theorem world_eq {world : σ} {world' : τ} (h : Session.Alike R s₀ s₀' s s') (hworld : R world world') :
    Session.Alike R s₀ s₀' { s with world } { s' with world := world' } :=
  ⟨hworld, h.now, h.tracker, h.told, h.pools⟩

theorem mark (h : Session.Alike R s₀ s₀' s s') (tracker : Tracker) :
    Session.Alike R s₀ s₀' { s with tracker } { s' with tracker } :=
  ⟨h.world, h.now, rfl, h.told, h.pools⟩

theorem tick (hw : w.Alike w' R) (least : Nat) (h : Session.Alike R s₀ s₀' s s') :
    Session.Alike R s₀ s₀' (s.tick w least) (s'.tick w' least) := by
  obtain ⟨hclock, hworld⟩ := hw.clock h.world
  refine ⟨hworld, ?_, h.tracker, h.told, h.pools⟩
  simp only [Session.tick, h.now, hclock]

/-- What both wrote down is the same. -/
theorem written (h : Session.Alike R s₀ s₀' s s') :
    s₀.written s = s₀'.written s' ∧ ∀ e ∈ s₀.written s, e.isShipping = false := by
  obtain ⟨added, hj, hj', hadded⟩ := h.told
  rw [Session.written_eq hj, Session.written_eq hj']
  exact ⟨rfl, hadded⟩

end Session.Alike

namespace Course.Alike

theorem on {f : Session σ → Session σ} {f' : Session τ → Session τ} (h : c.Alike R s₀ s₀' c')
    (hf : Session.Alike R s₀ s₀' (f c.session) (f' c'.session)) : (c.on f).Alike R s₀ s₀' (c'.on f') :=
  ⟨hf, h.ledger, h.summary, h.mapped⟩

theorem note {e : Event} (h : c.Alike R s₀ s₀' c') (he : e.isShipping = false) :
    (c.on (·.note e)).Alike R s₀ s₀' (c'.on (·.note e)) := h.on (h.session.note he)

theorem settleAll (h : c.Alike R s₀ s₀' c') (places : List Coordinates) :
    (c.settleAll places).Alike R s₀ s₀' (c'.settleAll places) := by
  rw [settleAll_eq, settleAll_eq, h.ledger]
  exact ⟨h.session, rfl, h.summary, h.mapped⟩

theorem abandon (h : c.Alike R s₀ s₀' c') (place : Coordinates) :
    (c.abandon place).Alike R s₀ s₀' (c'.abandon place) :=
  ⟨h.session, congrArg (·.abandon place) h.ledger, by simp only [Course.abandon, h.summary], h.mapped⟩

theorem filterOut (h : c.Alike R s₀ s₀' c') (place : Coordinates) :
    (c.filterOut place).Alike R s₀ s₀' (c'.filterOut place) :=
  ⟨h.session, congrArg (·.settle place) h.ledger, by simp only [Course.filterOut, settle, h.summary], h.mapped⟩

theorem collect (h : c.Alike R s₀ s₀' c') (m : Mapped) : (c.collect m).Alike R s₀ s₀' (c'.collect m) :=
  ⟨h.session, h.ledger, h.summary, congrArg (m :: ·) h.mapped⟩

end Course.Alike

/-! ## Acknowledging -/

namespace Dispatcher

theorem alike_countPartitions (name : String) (partitions : List Partition) (h : c.Alike R s₀ s₀' c') :
    (countPartitions name partitions c).Alike R s₀ s₀' (countPartitions name partitions c') := by
  induction partitions generalizing c c' with
  | nil => exact h
  | cons p rest ih => exact ih (h.note rfl)

theorem alike_commit (hw : w.GroupAlike w' R) (kind : String) (offsets : Offsets) (h : c.Alike R s₀ s₀' c') :
    Agree (Course.Alike R s₀ s₀') (commit w kind offsets c) (commit w' kind offsets c') := by
  obtain ⟨answer, x, y, hx, hy, hworld⟩ := (hw.commit offsets h.session.world).exists_eq
  have hsession := h.session.world_eq hworld
  rcases answer with e | _
  · have hrefused := (hsession.note (e := .committed offsets false) rfl).note
      (e := .counted ⟨"acknowledge_total", [("status", "error"), ("kind", kind)]⟩ 1) rfl
    simp only [commit, hx, hy]
    exact .of _ (h.on hrefused)
  · have haccepted := ((hsession.note (e := .committed offsets true) rfl).note
      (e := .counted ⟨"acknowledge_total", [("status", "success"), ("kind", kind)]⟩ 1) rfl).note
      (e := .observed ⟨"acknowledge_duration_ms", [("kind", kind)]⟩) rfl
    have hmarked := haccepted.mark (c.session.tracker.mark offsets)
    simp only [commit, hx, hy, Course.on, Session.note, Session.count, Session.observe, ← h.session.tracker,
      ← h.summary]
    exact ⟨rfl, hmarked, h.ledger, rfl, h.mapped⟩

theorem alike_rewind (hw : w.GroupAlike w' R) (offsets : Offsets) (h : c.Alike R s₀ s₀' c') :
    (rewind w offsets c).Alike R s₀ s₀' (rewind w' offsets c') := by
  obtain ⟨answer, x, y, hx, hy, hworld⟩ := (hw.seek offsets h.session.world).exists_eq
  have hsession := h.session.world_eq hworld
  unfold rewind
  split
  · exact h
  · rcases answer with e | _
    · simp only [hx, hy]
      exact h.on (hsession.note (e := .sought offsets false) rfl)
    · simp only [hx, hy, h.summary]
      exact ⟨hsession.note (e := .sought offsets true) rfl, h.ledger, rfl, h.mapped⟩

/-- Batches that went the same way are acknowledged alike. -/
theorem alike_acknowledge (hw : w.GroupAlike w' R) (level : ServiceLevel) (h : c.Alike R s₀ s₀' c') :
    (acknowledge w level c).Alike R s₀ s₀' (acknowledge w' level c') := by
  simp only [acknowledge, ← h.ledger, ← h.session.tracker]
  split
  · exact h
  · have hgaps : Course.Alike R s₀ s₀'
        (if (level.acknowledge c.ledger).isRun then countPartitions "acknowledge_gap_detected_total"
          (gaps c.ledger (level.acknowledge c.ledger).offsets) c else c)
        (if (level.acknowledge c.ledger).isRun then countPartitions "acknowledge_gap_detected_total"
          (gaps c.ledger (level.acknowledge c.ledger).offsets) c' else c') := by
      split
      · exact alike_countPartitions _ _ h
      · exact h
    have hcounted := alike_countPartitions "acknowledge_regression_skipped_total"
      (c.session.tracker.regressing (level.acknowledge c.ledger).offsets) hgaps
    revert hcounted
    generalize countPartitions "acknowledge_regression_skipped_total" _ _ = c₁
    generalize countPartitions "acknowledge_regression_skipped_total" _ _ = c₁'
    intro hcounted
    have hcommitted : Agree (Course.Alike R s₀ s₀')
        (if (c.session.tracker.advancing (level.acknowledge c.ledger).offsets).isEmpty then (true, c₁)
          else commit w (level.acknowledge c.ledger).kind
            (c.session.tracker.advancing (level.acknowledge c.ledger).offsets) c₁)
        (if (c.session.tracker.advancing (level.acknowledge c.ledger).offsets).isEmpty then (true, c₁')
          else commit w' (level.acknowledge c.ledger).kind
            (c.session.tracker.advancing (level.acknowledge c.ledger).offsets) c₁') := by
      split
      · exact ⟨rfl, hcounted⟩
      · exact alike_commit hw _ _ hcounted
    obtain ⟨accepted, c₂, c₂', hc, hc', h₂⟩ := hcommitted.exists_eq
    simp only [hc, hc', ← h₂.ledger]
    split
    · exact alike_rewind hw _ h₂
    · split
      · exact alike_rewind hw _ h₂
      · exact h₂

theorem alike_conclude {d d' : Dispatcher} (hw : w.GroupAlike w' R) (hlevel : d.level = d'.level)
    (h : c.Alike R s₀ s₀' c') :
    Agree (Session.Alike R s₀ s₀') (conclude w d c) (conclude w' d' c') := by
  have hack := alike_acknowledge hw d.level h
  rw [hlevel] at hack
  simp only [conclude, hlevel]
  exact ⟨by rw [hack.summary, hack.ledger], hack.session.note rfl⟩

/-! ## Filtering and mapping -/

theorem alike_submit (hw : w.Alike w' R) {d d' : Dispatcher} (hexecutor : d.executor = d'.executor) (slot : Nat)
    (r : Routed) (a : Attempt) (h : c.Alike R s₀ s₀' c') :
    Agree (Course.Alike R s₀ s₀') (submit w d slot r a c) (submit w' d' slot r a c') := by
  obtain ⟨accepted, x, y, hx, hy, hworld⟩ := (hw.submit ⟨slot, a.times, r⟩ h.session.world).exists_eq
  have hsubmitted := (h.session.world_eq hworld).note (e := .submitted ⟨slot, a.times, r⟩ accepted) rfl
  cases accepted with
  | true =>
    simp only [submit, hx, hy]
    exact .of _ (h.on hsubmitted)
  | false =>
    simp only [submit, hx, hy, ← hexecutor]
    exact .of _ (h.on hsubmitted)

theorem alike_harvest (hw : w.Alike w' R) (r : Routed) (job : Job) (h : c.Alike R s₀ s₀' c') :
    Agree (Course.Alike R s₀ s₀') (harvest w r job c) (harvest w' r job c') := by
  obtain ⟨result, x, y, hx, hy, hworld⟩ := (hw.finish job h.session.world).exists_eq
  have hprocessed : (c.on fun s => { s with world := x }.note (.processed job result)).Alike R s₀ s₀'
      (c'.on fun s => { s with world := y }.note (.processed job result)) :=
    h.on ((h.session.world_eq hworld).note rfl)
  rcases result with e | outcome
  · simp only [harvest, hx, hy]
    exact ⟨rfl, hprocessed⟩
  · simp only [harvest, hx, hy]
    split
    · have hcounted := (hprocessed.note (e := .counted ⟨"filter_records_total", [("status", "matched")]⟩ 1) rfl).note
        (e := .observed ⟨"filter_records_duration_ms", []⟩) rfl
      exact ⟨rfl, hcounted.collect _⟩
    · have hcounted := hprocessed.note (e := .counted ⟨"filter_records_total", [("status", "filtered")]⟩ 1) rfl
      exact ⟨rfl, hcounted.filterOut _⟩

theorem lockstep_filterMap (hw : w.Alike w' R) {d d' : Dispatcher} (hexecutor : d.executor = d'.executor)
    (s₀ : Session σ) (s₀' : Session τ) :
    (filterMap w d).Lockstep w w' (filterMap w' d') (Course.Alike R s₀ s₀') where
  stage := rfl
  failures := rfl
  place := rfl
  waiting := rfl
  now h := h.session.now
  tick least h := h.on (h.session.tick hw least)
  next waiting h := by
    obtain ⟨hchoice, hworld⟩ := hw.next waiting h.session.world
    exact ⟨hchoice, h.on (h.session.world_eq hworld)⟩
  count _ _ h := h.note rfl
  judge _ _ _ _ _ h := h.note rfl
  abandon place h := h.abandon place
  launch slot r a h := alike_submit hw hexecutor slot r a h
  land r job h := alike_harvest hw r job h

theorem alike_runFilterMap (hw : w.Alike w' R) {d d' : Dispatcher} (hexecutor : d.executor = d'.executor)
    (hbudget : d.budget = d'.budget) (matched : List Routed) (h : c.Alike R s₀ s₀' c') :
    Agree (Course.Alike R s₀ s₀') (runFilterMap w d matched c) (runFilterMap w' d' matched c') := by
  have hlock := lockstep_filterMap hw hexecutor s₀ s₀'
  have hlaunch : Agree (Course.Alike R s₀ s₀') ((filterMap w d).launchAll w (fun _ _ c => (true, c)) matched.zipIdx c)
      ((filterMap w' d').launchAll w' (fun _ _ c => (true, c)) matched.zipIdx c') :=
    hlock.launchAll (fun _ _ h => ⟨rfl, h⟩) matched.zipIdx h
  obtain ⟨tasks, c₁, c₁', hl, hl', h₁⟩ := hlaunch.exists_eq
  simp only [runFilterMap, hl, hl', ← hbudget]
  cases tasks with
  | error e => exact ⟨rfl, h₁⟩
  | ok tasks => exact hlock.finish d.budget tasks h₁

theorem alike_matchBatch (subscribers : List Subscriber) (batch : Batch) (h : c.Alike R s₀ s₀' c') :
    Agree (Course.Alike R s₀ s₀') (matchBatch subscribers batch c) (matchBatch subscribers batch c') := by
  have hsettled := (h.settleAll (batch.errors.filterMap (·.coordinates?))).settleAll
    ((Matching.ofRecords subscribers batch.records).unmatched.map (·.coordinates))
  simp only [matchBatch]
  refine ⟨rfl, ?_⟩
  split
  · exact ⟨hsettled.session, hsettled.ledger, by simp only [hsettled.summary], hsettled.mapped⟩
  · have hcounted := hsettled.note (e := .counted ⟨"records_unmatched_total", []⟩
      (Matching.ofRecords subscribers batch.records).unmatched.length) rfl
    exact ⟨hcounted.session, hcounted.ledger, by simp only [Course.on, hsettled.summary], hcounted.mapped⟩

end Dispatcher

end Alike

end Relay
