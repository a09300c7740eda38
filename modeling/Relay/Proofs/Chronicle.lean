import Relay.Proofs.History
import Relay.Proofs.Marks

/-!
# The chronicle of a stage

In both stages the signs of every record form a history: whatever the surroundings complete first, the signs of
one record come in the order that its budget allows, and where its history stands is where its attempt stands.
This is shown once for any kind of work that tells of its launches and landings (`Work.Reports`), and holds of
both stages because both do.
-/

namespace Relay

/-- What an event says of a record: the stage, the place of the record, and the sign. -/
def Event.sign : Event → Option (Stage × Nat × Sign)
  | .submitted job true => some (.filterMap, job.slot, .begun job.times)
  | .submitted job false => some (.filterMap, job.slot, .refused job.times false)
  | .processed job (.ok outcome) =>
    some (.filterMap, job.slot, .done (if outcome.passed then some outcome.carried.value else none))
  | .processed job (.error e) => some (.filterMap, job.slot, .failed e.isGiveUp)
  | .unsent slot times e => some (.publish, slot, .refused times e.isGiveUp)
  | .sent x (.ok ()) => some (.publish, x.slot, .begun x.times)
  | .sent x (.error e) => some (.publish, x.slot, .refused x.times e.isGiveUp)
  | .delivered x (.ok ()) => some (.publish, x.slot, .done none)
  | .delivered x (.error e) => some (.publish, x.slot, .failed e.isGiveUp)
  | .judged stage slot attempt now decision => some (stage, slot, .judged attempt now decision)
  | _ => none

/-- What an event says of the record at a place in a stage. -/
def Event.signAt (stage : Stage) (slot : Nat) (e : Event) : Option Sign :=
  e.sign.bind fun x => if x.1 = stage ∧ x.2.1 = slot then some x.2.2 else none

/-- The signs of the record at a place in a stage that were written down between two sessions, the latest
first. -/
def Session.signs {σ : Type} (s s' : Session σ) (stage : Stage) (slot : Nat) : List Sign :=
  (s.written s').filterMap (Event.signAt stage slot)

section Signs

variable {σ : Type} {s s' s'' : Session σ} {old news : List Event} {e : Event} {stage stage' : Stage}
  {slot slot' : Nat} {sign : Sign}

theorem Event.sign_of_not_isNews (h : e.isNews = false) : e.sign = none := by
  cases e <;> first | rfl | simp [Event.isNews] at h

theorem Event.signAt_of_not_isNews (h : e.isNews = false) : e.signAt stage slot = none := by
  rw [Event.signAt, Event.sign_of_not_isNews h]
  rfl

theorem Event.signAt_eq_some :
    e.signAt stage slot = some sign ↔ e.sign = some (stage, slot, sign) := by
  rw [Event.signAt]
  constructor
  · intro h
    obtain ⟨⟨stage', slot', sign'⟩, hs, hx⟩ := Option.bind_eq_some_iff.1 h
    split at hx
    · next heq =>
      obtain ⟨rfl, rfl⟩ := heq
      obtain rfl := Option.some.inj hx
      exact hs
    · simp at hx
  · intro h
    simp [h]

theorem Event.signAt_of_ne (h : e.sign = some (stage', slot', sign)) (hne : ¬(stage' = stage ∧ slot' = slot)) :
    e.signAt stage slot = none := by
  rw [Event.signAt, h]
  exact if_neg hne

/-- Later signs come on top. -/
theorem Session.signs_adds (h : s.Adds old s') (h' : s'.Adds news s'') (stage : Stage) (slot : Nat) :
    s.signs s'' stage slot = news.filterMap (Event.signAt stage slot) ++ s.signs s' stage slot :=
  Session.filterMap_written (fun _ => Event.signAt_of_not_isNews) h h'

theorem Session.signs_quiet (h : s.Adds old s') (h' : s'.Adds [] s'') : s.signs s'' = s.signs s' := by
  funext stage slot
  exact Session.signs_adds h h' stage slot

theorem Session.signs_eq_nil (h : s.Adds [] s') (stage : Stage) (slot : Nat) : s.signs s' stage slot = [] := by
  obtain ⟨added, hj, hnews⟩ := h
  rw [Session.signs, Session.written_eq hj, filterMap_of_isNews fun _ => Event.signAt_of_not_isNews, hnews]
  rfl

/-- One more sign changes the signs of its own record alone. -/
theorem Session.signs_tell (h : s.Adds old s') (h' : s'.Adds [e] s'') (he : e.sign = some (stage, slot, sign)) :
    s.signs s'' stage slot = sign :: s.signs s' stage slot ∧
      ∀ stage' slot', ¬(stage = stage' ∧ slot = slot') → s.signs s'' stage' slot' = s.signs s' stage' slot' := by
  refine ⟨?_, fun stage' slot' hne => ?_⟩
  · rw [Session.signs_adds h h', List.filterMap_cons_some (Event.signAt_eq_some.2 he)]
    rfl
  · rw [Session.signs_adds h h', List.filterMap_cons_none (Event.signAt_of_ne he hne)]
    rfl

theorem Session.mem_signs_iff :
    sign ∈ s.signs s' stage slot ↔ ∃ e ∈ s.written s', e.sign = some (stage, slot, sign) := by
  simp only [Session.signs, List.mem_filterMap, Event.signAt_eq_some]

end Signs

/-! ## What a stage has told -/

/-- The instant at which an event judges a failed attempt. -/
def Event.instant? : Event → Option Nat
  | .judged _ _ _ now _ => some now
  | _ => none

/-- What a stage has told of its records since a session. -/
structure Told {σ : Type} (b : Budget) (stage : Stage) (fact : Event → Prop) (s s' : Session σ) : Prop where
  tells : ∃ news, s.Tells news s'
  /-- What was said of a record was said by this stage, it is a fact, and no verdict lies in the future. -/
  said : ∀ e ∈ s.written s', e.isNews = true →
    (∀ x ∈ e.sign, x.1 = stage) ∧ (∀ now ∈ e.instant?, now ≤ s'.now) ∧ fact e
  /-- The signs of each record form a history, which does not begin before the stage. -/
  history : ∀ slot, ∃ began stand, s.now ≤ began ∧ History b began (s.signs s' stage slot) stand

/-- One session shows a sign more than another. -/
def Session.Shows {σ : Type} (fact : Event → Prop) (stage : Stage) (slot : Nat) (sign : Sign)
    (s s' : Session σ) : Prop :=
  ∃ e, s.Tells [e] s' ∧ e.sign = some (stage, slot, sign) ∧ fact e ∧ ∀ now ∈ e.instant?, now ≤ s.now

namespace Told

variable {σ : Type} {b : Budget} {stage : Stage} {fact : Event → Prop} {s s' s'' : Session σ} {slot : Nat}
  {sign : Sign}

theorem start (h : s.Tells [] s') : Told b stage fact s s' := by
  refine ⟨⟨[], h⟩, fun e he hn => ?_, fun slot => ⟨s.now, .due (.first s.now), Nat.le_refl _, ?_⟩⟩
  · rw [Session.mem_written_iff h.adds hn] at he
    simp at he
  · rw [Session.signs_eq_nil h.adds]
    exact .fresh

theorem quiet (h : Told b stage fact s s') (ht : s'.Tells [] s'') : Told b stage fact s s'' := by
  obtain ⟨news, hold⟩ := h.tells
  refine ⟨⟨_, hold.quiet ht⟩, fun e he hn => ?_, fun slot => ?_⟩
  · rw [Session.mem_written_iff (hold.quiet ht).adds hn] at he
    obtain ⟨hs, hi, hf⟩ := h.said e ((Session.mem_written_iff hold.adds hn).2 he) hn
    exact ⟨hs, fun now hnow => (hi now hnow).trans ht.now, hf⟩
  · rw [Session.signs_quiet hold.adds ht.adds]
    exact h.history slot

/-- A sign that the history of its record allows may be told. -/
theorem shows {began : Nat} {stand : Stand} (h : Told b stage fact s s')
    (hs : s'.Shows fact stage slot sign s'') (hb : s.now ≤ began)
    (hh : History b began (sign :: s.signs s' stage slot) stand) : Told b stage fact s s'' := by
  obtain ⟨news, hold⟩ := h.tells
  obtain ⟨e, htell, he, hfact, hinstant⟩ := hs
  obtain ⟨hsign, hother⟩ := Session.signs_tell hold.adds htell.adds he
  refine ⟨⟨_, hold.trans htell⟩, fun e' he' hn => ?_, fun slot' => ?_⟩
  · rw [Session.mem_written_iff (hold.trans htell).adds hn] at he'
    rcases List.mem_cons.1 he' with rfl | he'
    · refine ⟨fun x hx => ?_, fun now hnow => (hinstant now hnow).trans htell.now, hfact⟩
      rw [he] at hx
      obtain rfl := Option.some.inj hx
      rfl
    · obtain ⟨hs, hi, hf⟩ := h.said e' ((Session.mem_written_iff hold.adds hn).2 he') hn
      exact ⟨hs, fun now hnow => (hi now hnow).trans htell.now, hf⟩
  · by_cases hslot : slot = slot'
    · subst hslot
      rw [hsign]
      exact ⟨began, stand, hb, hh⟩
    · rw [hother _ _ fun hne => hslot hne.2]
      exact h.history slot'

/-- A stage says nothing of the other one. -/
theorem signs_of_ne (h : Told b stage fact s s') {stage' : Stage} (hne : stage' ≠ stage) (slot : Nat) :
    s.signs s' stage' slot = [] := by
  rw [Session.signs, List.filterMap_eq_nil_iff]
  intro e he
  cases hn : e.isNews with
  | false => exact Event.signAt_of_not_isNews hn
  | true =>
    cases hs : e.signAt stage' slot with
    | none => rfl
    | some sign =>
      obtain ⟨hstage, -⟩ := h.said e he hn
      exact absurd (hstage _ (Event.signAt_eq_some.1 hs)) hne

end Told

/-! ## Work that tells of its attempts -/

/-- A course shows a sign more than another; its records stay as they are. -/
def Course.Shows {σ : Type} (fact : Event → Prop) (stage : Stage) (slot : Nat) (sign : Sign)
    (c c' : Course σ) : Prop :=
  ∃ e, c.Tells [e] c' ∧ e.sign = some (stage, slot, sign) ∧ fact e ∧ ∀ now ∈ e.instant?, now ≤ c.session.now

theorem Course.Shows.session {σ : Type} {fact : Event → Prop} {stage : Stage} {slot : Nat} {sign : Sign}
    {c c' : Course σ} (h : c.Shows fact stage slot sign c') :
    c.session.Shows fact stage slot sign c'.session := by
  obtain ⟨e, htell, h⟩ := h
  exact ⟨e, htell.session, h⟩

/-- Each launch and each landing of some work tells of one event, whose sign says how it went. `placed` says
which items stand where, `holds` which ticket an attempt in flight has, and `fact` what every event meets. -/
structure Work.Reports {σ α τ : Type} (k : Work σ α τ) (placed : Nat → α → Prop)
    (holds : Nat → α → UInt32 → τ → Prop) (fact : Event → Prop) : Prop where
  flying : ∀ {slot item a ticket c c'}, placed slot item →
    k.launch slot item a c = (.flying ticket, c') →
    holds slot item a.times ticket ∧ c.Shows fact k.stage slot (.begun a.times) c'
  refused : ∀ {slot item a giveUp c c'}, placed slot item →
    k.launch slot item a c = (.failed giveUp, c') → c.Shows fact k.stage slot (.refused a.times giveUp) c'
  /-- The launch of an attempt stops the dispatch. -/
  barred : ∀ {slot item a e c c'}, placed slot item → k.launch slot item a c = (.stopped e, c') →
    c.Shows fact k.stage slot (.refused a.times false) c'
  done : ∀ {slot item times ticket c c'}, placed slot item → holds slot item times ticket →
    k.land item ticket c = (.done, c') →
    ∃ value, c.session.Shows fact k.stage slot (.done value) c'.session
  failed : ∀ {slot item times ticket giveUp c c'}, placed slot item → holds slot item times ticket →
    k.land item ticket c = (.failed giveUp, c') → c.Shows fact k.stage slot (.failed giveUp) c'
  /-- The landing of an attempt stops the dispatch. -/
  broken : ∀ {slot item times ticket e c c'}, placed slot item → holds slot item times ticket →
    k.land item ticket c = (.stopped e, c') → c.Shows fact k.stage slot (.failed false) c'
  judged : ∀ slot a now decision, fact (.judged k.stage slot a now decision)

/-- The chronicle of a stage with some attempts in flight: every record has its history, and each attempt stands
where the history of its record does. -/
structure Chronicle {σ α τ : Type} (k : Work σ α τ) (b : Budget) (placed : Nat → α → Prop)
    (holds : Nat → α → UInt32 → τ → Prop) (fact : Event → Prop) (slots : List Nat) (s : Session σ)
    (ts : List (Task α τ)) (s' : Session σ) : Prop where
  told : Told b k.stage fact s s'
  /-- A record has one attempt at a time. -/
  distinct : (ts.map (·.slot)).Nodup
  placed : ∀ t ∈ ts, placed t.slot t.item
  holds : ∀ t ∈ ts, ∀ ticket, t.phase = .flying ticket → holds t.slot t.item t.attempt.times ticket
  /-- Each attempt stands where the history of its record does. -/
  current : ∀ t ∈ ts, s.now ≤ t.attempt.began ∧
    History b t.attempt.began (s.signs s' k.stage t.slot) t.stand
  /-- A record without an attempt has been attempted. -/
  covered : ∀ slot ∈ slots, slot ∈ ts.map (·.slot) ∨ s.signs s' k.stage slot ≠ []

namespace Chronicle

variable {σ α τ : Type} {k : Work σ α τ} {b : Budget} {placed : Nat → α → Prop}
  {holds : Nat → α → UInt32 → τ → Prop} {fact : Event → Prop} {slots : List Nat} {s s' s'' : Session σ}
  {t : Task α τ} {ts ts' : List (Task α τ)} {c c' : Course σ} {sign : Sign}

theorem perm (hp : ts.Perm ts') (h : Chronicle k b placed holds fact slots s ts s') :
    Chronicle k b placed holds fact slots s ts' s' where
  told := h.told
  distinct := (hp.map _).nodup_iff.1 h.distinct
  placed t ht := h.placed t (hp.mem_iff.2 ht)
  holds t ht := h.holds t (hp.mem_iff.2 ht)
  current t ht := h.current t (hp.mem_iff.2 ht)
  covered slot hs := (h.covered slot hs).imp_left (hp.map _).mem_iff.1

theorem quiet (h : Chronicle k b placed holds fact slots s ts s') (ht : s'.Tells [] s'') :
    Chronicle k b placed holds fact slots s ts s'' := by
  obtain ⟨news, hold⟩ := h.told.tells
  have hsigns : s.signs s'' = s.signs s' := Session.signs_quiet hold.adds ht.adds
  refine ⟨h.told.quiet ht, h.distinct, h.placed, h.holds, ?_, ?_⟩
  · rw [hsigns]
    exact h.current
  · rw [hsigns]
    exact h.covered

/-- The attempt that steps stands where the history of its record does. -/
theorem stand (h : Chronicle k b placed holds fact slots s (t :: ts) s') :
    History b t.attempt.began (s.signs s' k.stage t.slot) t.stand :=
  (h.current t List.mem_cons_self).2

/-- No other attempt is at the record of the attempt that steps. -/
theorem slot_ne (h : Chronicle k b placed holds fact slots s (t :: ts) s') : ∀ t' ∈ ts, t'.slot ≠ t.slot := by
  have hdistinct := h.distinct
  rw [List.map_cons, List.nodup_cons] at hdistinct
  exact fun t' ht' heq => hdistinct.1 (heq ▸ List.mem_map_of_mem ht')

/-- An attempt goes on as its sign says, or it leaves. -/
theorem step (rest : Option (Task α τ)) {stand : Stand}
    (h : Chronicle k b placed holds fact slots s (t :: ts) s')
    (hs : s'.Shows fact k.stage t.slot sign s'')
    (hh : History b t.attempt.began (sign :: s.signs s' k.stage t.slot) stand)
    (hrest : ∀ t' ∈ rest, t'.slot = t.slot ∧ t'.item = t.item ∧ t'.attempt.began = t.attempt.began ∧
      t'.stand = stand ∧ ∀ ticket, t'.phase = .flying ticket →
        holds t'.slot t'.item t'.attempt.times ticket) :
    Chronicle k b placed holds fact slots s (rest.toList ++ ts) s'' := by
  obtain ⟨hbegan, -⟩ := h.current t List.mem_cons_self
  obtain ⟨news, hold⟩ := h.told.tells
  obtain ⟨e, htell, he, hfact⟩ := hs
  obtain ⟨hsign, hother⟩ := Session.signs_tell hold.adds htell.adds he
  have hother : ∀ slot, slot ≠ t.slot → s.signs s'' k.stage slot = s.signs s' k.stage slot :=
    fun slot hne => hother _ _ fun heq => hne heq.2.symm
  have hplaced := List.forall_mem_cons.1 h.placed
  have hholds := List.forall_mem_cons.1 h.holds
  have hcurrent := List.forall_mem_cons.1 h.current
  have hdistinct := h.distinct
  rw [List.map_cons] at hdistinct
  refine ⟨h.told.shows ⟨e, htell, he, hfact⟩ hbegan hh, ?_,
    List.forall_mem_append.2 ⟨fun t' ht' => ?_, hplaced.2⟩,
    List.forall_mem_append.2 ⟨fun t' ht' => ?_, hholds.2⟩,
    List.forall_mem_append.2 ⟨fun t' ht' => ?_, fun t' ht' => ?_⟩, fun slot hslot => ?_⟩
  · cases rest with
    | none => exact hdistinct.of_cons
    | some t' =>
      obtain ⟨hslot, -⟩ := hrest t' rfl
      simpa [hslot] using hdistinct
  · obtain ⟨hslot, hitem, -⟩ := hrest t' (Option.mem_toList.1 ht')
    rw [hslot, hitem]
    exact hplaced.1
  · obtain ⟨-, -, -, -, hticket⟩ := hrest t' (Option.mem_toList.1 ht')
    exact hticket
  · obtain ⟨hslot, -, hb, hstand, -⟩ := hrest t' (Option.mem_toList.1 ht')
    rw [hslot, hb, hstand, hsign]
    exact ⟨hbegan, hh⟩
  · -- the signs of other records stay, so their attempts stand where they did
    rw [hother _ (h.slot_ne t' ht')]
    exact hcurrent.2 t' ht'
  · by_cases heq : slot = t.slot
    · rw [heq, hsign]
      exact .inr (List.cons_ne_nil _ _)
    · rw [hother _ heq]
      refine (h.covered slot hslot).imp_left fun hm => ?_
      rw [List.map_append, List.mem_append]
      exact .inr ((List.mem_cons.1 hm).resolve_left heq)

theorem shows_judged (hk : k.Reports placed holds fact) {decision : Decision}
    (ht : c.Tells [.judged k.stage t.slot t.attempt c.session.now decision] c') :
    c.Shows fact k.stage t.slot (.judged t.attempt c.session.now decision) c' :=
  ⟨_, ht, rfl, hk.judged .., by rintro _ ⟨⟩; exact Nat.le_refl _⟩

/-- Work that tells of its attempts keeps its chronicle. -/
theorem keeps (hk : k.Reports placed holds fact) (b : Budget) (slots : List Nat) (s : Session σ) :
    k.Keeps b (fun ts c => Chronicle k b placed holds fact slots s ts c.session)
      (fun _ c => Told b k.stage fact s c.session) where
  perm := perm
  quiet ht h := h.quiet ht.session
  launched {t wake ts c ticket c'} hp h hl := by
    obtain ⟨hholds, hs⟩ := hk.flying (h.placed t List.mem_cons_self) hl
    have hh := h.stand
    simp only [Task.stand, hp] at hh
    refine h.step (some _) hs.session hh.begun ?_
    rintro _ ⟨⟩
    exact ⟨rfl, rfl, rfl, rfl, by rintro _ ⟨⟩; exact hholds⟩
  unlaunched {t wake ts c giveUp c'} hp h hl := by
    have hs := hk.refused (h.placed t List.mem_cons_self) hl
    have hh := h.stand
    simp only [Task.stand, hp] at hh
    refine h.step (some _) hs.session (hh.refused giveUp) ?_
    rintro _ ⟨⟩
    exact ⟨rfl, rfl, rfl, rfl, by simp⟩
  barred {t wake ts c e c'} hp h hl := by
    have hs := hk.barred (h.placed t List.mem_cons_self) hl
    obtain ⟨hbegan, hh⟩ := h.current t List.mem_cons_self
    simp only [Task.stand, hp] at hh
    exact h.told.shows hs.session hbegan (hh.refused false)
  landed {t ticket ts c c'} hp h hl := by
    obtain ⟨value, hs⟩ :=
      hk.done (h.placed t List.mem_cons_self) (h.holds t List.mem_cons_self ticket hp) hl
    have hh := h.stand
    simp only [Task.stand, hp] at hh
    exact h.step none hs (hh.done value) (by simp)
  crashed {t ticket ts c giveUp c'} hp h hl := by
    have hs := hk.failed (h.placed t List.mem_cons_self) (h.holds t List.mem_cons_self ticket hp) hl
    have hh := h.stand
    simp only [Task.stand, hp] at hh
    refine h.step (some _) hs.session (hh.failed giveUp) ?_
    rintro _ ⟨⟩
    exact ⟨rfl, rfl, rfl, rfl, by simp⟩
  broken {t ticket ts c e c'} hp h hl := by
    have hs := hk.broken (h.placed t List.mem_cons_self) (h.holds t List.mem_cons_self ticket hp) hl
    obtain ⟨hbegan, hh⟩ := h.current t List.mem_cons_self
    simp only [Task.stand, hp] at hh
    exact h.told.shows hs.session hbegan (hh.failed false)
  retried {t giveUp ts c attempt backoff c'} wake hp h hd ht := by
    have hh := h.stand
    simp only [Task.stand, hp] at hh
    obtain ⟨-, hbegan, -⟩ := Budget.retry hd
    refine h.step (some _) (shows_judged hk ht).session (hh.retried hd) ?_
    rintro _ ⟨⟩
    exact ⟨rfl, rfl, hbegan, rfl, by simp⟩
  abandoned {t giveUp ts c reason c'} hp h hd ht := by
    have hh := h.stand
    have hs := (shows_judged hk ht).session
    simp only [Task.stand, hp] at hh
    exact h.step none hs (hh.abandoned hd) (by simp)

/-! ## The launch of a stage -/

/-- When a stage begins, its items are to be launched. -/
theorem start (items : List (α × Nat)) (hdistinct : (items.map (·.2)).Nodup)
    (hplaced : ∀ x ∈ items, placed x.2 x.1) (ht : s.Tells [] s') :
    Chronicle k b placed holds fact (items.map (·.2)) s
      (items.map (fun x => ⟨x.2, x.1, .first s.now, .resting 0⟩) ++ []) s' := by
  have htold : Told b k.stage fact s s' := .start ht
  rw [List.append_nil]
  refine ⟨htold, ?_, fun t hm => ?_, fun t hm ticket hp => ?_, fun t hm => ?_, fun slot hs => .inl ?_⟩
  · rwa [List.map_map]
  · obtain ⟨x, hx, rfl⟩ := List.mem_map.1 hm
    exact hplaced x hx
  · obtain ⟨x, hx, rfl⟩ := List.mem_map.1 hm
    simp at hp
  · obtain ⟨x, hx, rfl⟩ := List.mem_map.1 hm
    rw [Session.signs_eq_nil ht.adds]
    exact ⟨Nat.le_refl _, .fresh⟩
  · rwa [List.map_map]

/-- The budget of an item begins when it is launched. -/
theorem begins (h : Chronicle k b placed holds fact slots s (t :: ts) s') (ha : t.attempt = .first s.now)
    (hp : t.phase = .resting 0) :
    Chronicle k b placed holds fact slots s ({ t with attempt := .first s'.now } :: ts) s' := by
  have hstand := h.stand
  simp only [Task.stand, hp, ha] at hstand
  have hnil := hstand.eq_nil_of_first
  obtain ⟨news, hold⟩ := h.told.tells
  obtain ⟨-, hcurrent⟩ := List.forall_mem_cons.1 h.current
  obtain ⟨-, hholds⟩ := List.forall_mem_cons.1 h.holds
  refine ⟨h.told, h.distinct, List.forall_mem_cons.2 (List.forall_mem_cons.1 h.placed),
    List.forall_mem_cons.2 ⟨by simp [hp], hholds⟩, List.forall_mem_cons.2 ⟨⟨hold.now, ?_⟩, hcurrent⟩,
    h.covered⟩
  rw [hnil]
  simp only [Task.stand, hp]
  exact .fresh

theorem drop {ticket : τ} (h : Chronicle k b placed holds fact slots s (t :: ts) s')
    (hp : t.phase = .flying ticket) : Chronicle k b placed holds fact slots s ts s' := by
  have hstand := h.stand
  simp only [Task.stand, hp] at hstand
  have hdistinct := h.distinct
  rw [List.map_cons] at hdistinct
  refine ⟨h.told, hdistinct.of_cons, (List.forall_mem_cons.1 h.placed).2, (List.forall_mem_cons.1 h.holds).2,
    (List.forall_mem_cons.1 h.current).2, fun slot hs => ?_⟩
  rcases h.covered slot hs with hm | hne
  · rcases List.mem_cons.1 hm with rfl | hm
    · right
      intro hnil
      rw [hnil] at hstand
      nomatch hstand
    · exact .inl hm
  · exact .inr hne

/-! ## Assertions along the chronicle -/

/-- Steps that keep an assertion `R` on the records of a batch along what is known of the attempts: a step that
only shows a sign of its record, a record that is done, and a record that is abandoned. -/
structure Frames (k : Work σ α τ) (C : List (Task α τ) → Session σ → Prop)
    (R : List (Task α τ) → Course σ → Prop) : Prop where
  /-- The order of the attempts does not matter. -/
  perm : ∀ {ts ts' c}, ts.Perm ts' → R ts c → R ts' c
  /-- What is no news does no harm. -/
  quiet : ∀ {ts c c'}, C ts c.session → R ts c → c.Tells [] c' → R ts c'
  /-- An attempt goes on. -/
  moves : ∀ {t ts c c' e sign}, C (t :: ts) c.session → R (t :: ts) c → c.Tells [e] c' →
    e.sign = some (k.stage, t.slot, sign) → sign.gaveUp = false →
    ∀ attempt phase, R ({ t with attempt, phase } :: ts) c'
  /-- When an attempt began has no part in the assertion. -/
  begins : ∀ {t ts c}, R (t :: ts) c → ∀ attempt, R ({ t with attempt } :: ts) c
  /-- A record is done. -/
  landed : ∀ {t ticket ts c c'}, t.phase = .flying ticket → C (t :: ts) c.session → R (t :: ts) c →
    k.land t.item ticket c = (.done, c') → R ts c'
  /-- A record is abandoned. -/
  abandoned : ∀ {t giveUp ts c c' reason}, t.phase = .failed giveUp → C (t :: ts) c.session → R (t :: ts) c →
    c.Tells [.judged k.stage t.slot t.attempt c.session.now (.abandon reason)] c' →
    R ts (c'.abandon (k.place t.item))

variable {R : List (Task α τ) → Course σ → Prop}

theorem Frames.and {C : List (Task α τ) → Session σ → Prop} {R' : List (Task α τ) → Course σ → Prop}
    (h : Frames k C R) (h' : Frames k C R') : Frames k C fun ts c => R ts c ∧ R' ts c where
  perm hp hR := ⟨h.perm hp hR.1, h'.perm hp hR.2⟩
  quiet hC hR ht := ⟨h.quiet hC hR.1 ht, h'.quiet hC hR.2 ht⟩
  moves hC hR ht he hg attempt phase :=
    ⟨h.moves hC hR.1 ht he hg attempt phase, h'.moves hC hR.2 ht he hg attempt phase⟩
  begins hR attempt := ⟨h.begins hR.1 attempt, h'.begins hR.2 attempt⟩
  landed hp hC hR hl := ⟨h.landed hp hC hR.1 hl, h'.landed hp hC hR.2 hl⟩
  abandoned hp hC hR ht := ⟨h.abandoned hp hC hR.1 ht, h'.abandoned hp hC hR.2 ht⟩

/-- An assertion is carried along the chronicle. -/
theorem Frames.keeps (hR : Frames k (Chronicle k b placed holds fact slots s) R)
    (hk : k.Reports placed holds fact) :
    k.Keeps b (fun ts c => Chronicle k b placed holds fact slots s ts c.session ∧ R ts c)
      (fun _ c => Told b k.stage fact s c.session) := by
  have hC := Chronicle.keeps hk b slots s
  exact {
    perm := fun hp h => ⟨hC.perm hp h.1, hR.perm hp h.2⟩
    quiet := fun ht h => ⟨hC.quiet ht h.1, hR.quiet h.1 h.2 ht⟩
    launched := fun {t wake ts c ticket c'} hp h hl => by
      obtain ⟨-, e, htell, he, -⟩ := hk.flying (h.1.placed t List.mem_cons_self) hl
      exact ⟨hC.launched hp h.1 hl, hR.moves h.1 h.2 htell he rfl t.attempt _⟩
    unlaunched := fun {t wake ts c giveUp c'} hp h hl => by
      obtain ⟨e, htell, he, -⟩ := hk.refused (h.1.placed t List.mem_cons_self) hl
      exact ⟨hC.unlaunched hp h.1 hl, hR.moves h.1 h.2 htell he rfl t.attempt _⟩
    barred := fun hp h hl => hC.barred hp h.1 hl
    landed := fun hp h hl => ⟨hC.landed hp h.1 hl, hR.landed hp h.1 h.2 hl⟩
    crashed := fun {t ticket ts c giveUp c'} hp h hl => by
      obtain ⟨e, htell, he, -⟩ :=
        hk.failed (h.1.placed t List.mem_cons_self) (h.1.holds t List.mem_cons_self ticket hp) hl
      exact ⟨hC.crashed hp h.1 hl, hR.moves h.1 h.2 htell he rfl t.attempt _⟩
    broken := fun hp h hl => hC.broken hp h.1 hl
    retried := fun wake hp h hd ht =>
      ⟨hC.retried wake hp h.1 hd ht, hR.moves h.1 h.2 ht rfl rfl _ _⟩
    abandoned := fun hp h hd ht => ⟨hC.abandoned hp h.1 hd ht, hR.abandoned hp h.1 h.2 ht⟩ }

/-- An assertion is carried through the launch of a stage. -/
theorem Frames.starts (hR : Frames k (Chronicle k b placed holds fact slots s) R)
    (hk : k.Reports placed holds fact) (keep : α → τ → Course σ → Bool × Course σ)
    (hkept : ∀ {item ticket ts c c'}, Chronicle k b placed holds fact slots s ts c.session → R ts c →
      keep item ticket c = (true, c') → c.Tells [] c')
    (hdropped : ∀ {t ticket ts c c'}, t.phase = .flying ticket →
      Chronicle k b placed holds fact slots s (t :: ts) c.session → R (t :: ts) c →
      keep t.item ticket c = (false, c') → c.session.Tells [] c'.session ∧ R ts c') :
    k.Starts keep
      (fun items ts c =>
        Chronicle k b placed holds fact slots s
            (items.map (fun x => ⟨x.2, x.1, .first s.now, .resting 0⟩) ++ ts) c.session ∧
          R (items.map (fun x => ⟨x.2, x.1, .first s.now, .resting 0⟩) ++ ts) c)
      (fun _ c => Told b k.stage fact s c.session) := by
  refine (hR.keeps hk).starts_from s.now keep ?_ ?_ ?_
  · exact fun ha hp h => ⟨h.1.begins ha hp, hR.begins h.2 _⟩
  · intro item ticket ts c c' h hk
    have ht := hkept h.1 h.2 hk
    exact ⟨h.1.quiet ht.session, hR.quiet h.1 h.2 ht⟩
  · intro t ticket ts c c' hp h hk
    obtain ⟨ht, hR⟩ := hdropped hp h.1 h.2 hk
    exact ⟨(h.1.drop hp).quiet ht, hR⟩

/-- Nothing has to be asserted. -/
theorem frames_true (C : List (Task α τ) → Session σ → Prop) : Frames k C fun _ _ => True where
  perm _ _ := trivial
  quiet _ _ _ := trivial
  moves _ _ _ _ _ _ _ := trivial
  begins _ _ := trivial
  landed _ _ _ _ := trivial
  abandoned _ _ _ _ := trivial

end Chronicle

/-! ## The two stages -/

/-- Jobs are those of the records at their places. -/
def Event.IsJobOf (placed : Nat → Routed → Prop) : Event → Prop
  | .submitted job _ => placed job.slot job.routed
  | .processed job _ => placed job.slot job.routed
  | _ => True

/-- Messages are those of the payloads at their places. -/
def Event.IsMessageOf (p : Publisher) (placed : Nat → Mapped → Prop) : Event → Prop
  | .sent x _ => ∃ m, placed x.slot m ∧ x.message = m.routed.message p.lead p.pipeline m.value
  | .delivered x _ => ∃ m, placed x.slot m ∧ x.message = m.routed.message p.lead p.pipeline m.value
  | _ => True

namespace Dispatcher

variable {σ : Type} {d : Dispatcher} {c c' : Course σ}

/-- Filtering and mapping tells of its jobs. -/
theorem reports_filterMap (w : World σ) (d : Dispatcher) (placed : Nat → Routed → Prop) :
    (filterMap w d).Reports placed (fun slot r times job => job = ⟨slot, times, r⟩)
      (Event.IsJobOf placed) where
  flying hp hl := by
    obtain ⟨rfl, htell⟩ := submit_flying hl
    exact ⟨rfl, _, htell, rfl, hp, by simp [Event.instant?]⟩
  refused _ hl := absurd hl submit_ne_failed
  barred hp hl := by
    obtain ⟨-, htell⟩ := submit_stopped hl
    exact ⟨_, htell, rfl, hp, by simp [Event.instant?]⟩
  done {slot r times job c c'} hp hjob hl := by
    obtain rfl := hjob
    obtain ⟨outcome, c₁, htell, rfl⟩ := harvest_done hl
    refine ⟨_, .processed ⟨slot, times, r⟩ (.ok outcome), ?_, rfl, hp, by simp [Event.instant?]⟩
    split
    · exact htell.session
    · exact htell.session
  failed hp hjob hl := by
    obtain rfl := hjob
    obtain ⟨e, rfl, htell⟩ := harvest_failed hl
    exact ⟨_, htell, rfl, hp, by simp [Event.instant?]⟩
  broken _ _ hl := absurd hl harvest_ne_stopped
  judged _ _ _ _ := trivial

/-- A record that is not handed over shows it. -/
theorem shows_unsent {placed : Nat → Mapped → Prop} {slot : Nat} {m : Mapped} {a : Attempt}
    {e : PublishError} {news : Event} (hp : placed slot m) (h : d.Unsent slot m a e news)
    (htell : c.Tells [news] c') :
    c.Shows (Event.IsMessageOf d.publisher placed) .publish slot (.refused a.times e.isGiveUp) c' := by
  rcases h with rfl | ⟨x, ⟨rfl, htimes, hmessage⟩, rfl⟩
  · exact ⟨_, htell, rfl, trivial, by simp [Event.instant?]⟩
  · exact ⟨_, htell, by rw [← htimes]; rfl, ⟨m, hp, hmessage⟩, by simp [Event.instant?]⟩

/-- Publishing tells of its messages. -/
theorem reports_publish (w : World σ) (d : Dispatcher) (registry : Registry)
    (placed : Nat → Mapped → Prop) :
    (publish w d registry).Reports placed
      (fun slot m times x => d.publisher.Carries slot times m.routed m.value x)
      (Event.IsMessageOf d.publisher placed) where
  flying {slot item a ticket c c'} hp hl := by
    obtain ⟨⟨rfl, htimes, hmessage⟩, htell⟩ := send_flying hl
    exact ⟨⟨rfl, htimes, hmessage⟩, _, htell, by rw [← htimes]; rfl, ⟨item, hp, hmessage⟩,
      by simp [Event.instant?]⟩
  refused hp hl := by
    obtain ⟨e, news, -, rfl, hunsent, htell⟩ := send_failed hl
    exact shows_unsent hp hunsent htell
  barred hp hl := by
    obtain ⟨cause, news, -, hunsent, htell⟩ := send_stopped hl
    exact shows_unsent hp hunsent htell
  done {slot item times ticket c c'} hp hcarries hl := by
    obtain ⟨rfl, -, hmessage⟩ := hcarries
    obtain ⟨c₁, htell, rfl⟩ := confirm_done hl
    exact ⟨_, _, htell.session, rfl, ⟨item, hp, hmessage⟩, by simp [Event.instant?]⟩
  failed {slot item times ticket giveUp c c'} hp hcarries hl := by
    obtain ⟨rfl, -, hmessage⟩ := hcarries
    obtain ⟨e, -, rfl, htell⟩ := confirm_failed hl
    exact ⟨_, htell, rfl, ⟨item, hp, hmessage⟩, by simp [Event.instant?]⟩
  broken {slot item times ticket e c c'} hp hcarries hl := by
    obtain ⟨rfl, -, hmessage⟩ := hcarries
    obtain ⟨cause, -, htell⟩ := confirm_stopped hl
    exact ⟨_, htell, rfl, ⟨item, hp, hmessage⟩, by simp [Event.instant?]⟩
  judged _ _ _ _ := trivial

theorem awaitDelivery_kept {m : Mapped} {x : Shipment} (h : d.awaitDelivery m x c = (true, c')) :
    c' = c := by
  rw [awaitDelivery_eq] at h
  split at h
  · exact (Prod.mk.inj h).2.symm
  · simp at h

/-- A message whose delivery is not awaited counts as published. -/
theorem awaitDelivery_dropped {m : Mapped} {x : Shipment} (h : d.awaitDelivery m x c = (false, c')) :
    ∃ c₁, c.Tells [] c₁ ∧ c' = c₁.publish m.routed.coordinates := by
  rw [awaitDelivery_eq] at h
  split at h
  · simp at h
  · exact ⟨_, c.tells_on (Session.tells_count ..), (Prod.mk.inj h).2.symm⟩

end Dispatcher

end Relay
