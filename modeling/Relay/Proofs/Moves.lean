import Relay.Proofs.WorkRules

/-!
# What a dispatch does to its session

A session changes in few ways while a batch is dispatched: the surroundings are asked for something, the clock is
read, something is written down, commits are remembered, the pool of a tenant is kept. Two more concern a record: its
job ends, or its message is handed to a producer that the pool of its tenant selects. `Session.Moves` lists these
moves, and every dispatch is a sequence of them (`Dispatcher.moves_dispatch`), so that a property of sessions is
looked at once for each move.
-/

namespace Relay

/-- The surroundings before and after they are asked for something, other than to show the filters new
subscribers. -/
inductive World.Asks {σ : Type} (w : World σ) (s : σ) : σ → Prop where
  | clock : w.Asks s (w.clock s).2
  | submit (job : Job) : w.Asks s (w.submit job s).2
  | finish (job : Job) : w.Asks s (w.finish job s).2
  | cancelAll : w.Asks s (w.cancelAll s)
  | shutdown : w.Asks s (w.shutdown s)
  | next (waiting : List Waiting) : w.Asks s (w.next waiting s).2
  | create (source : Source) (client : String) : w.Asks s (w.create source client s).2
  | spread : w.Asks s (w.spread s).2
  | send (x : Shipment) : w.Asks s (w.send x s).2
  | deliver (x : Shipment) : w.Asks s (w.deliver x s).2
  | flush (client : String) : w.Asks s (w.flush client s).2
  | commit (offsets : Offsets) : w.Asks s (w.commit offsets s).2
  | seek (offsets : Offsets) : w.Asks s (w.seek offsets s).2

/-- Whether an event tells of a job that ended or of a message that was handed over. -/
def Event.isOutcome : Event → Bool
  | .processed _ _ => true
  | .sent _ _ => true
  | _ => false

/-- A session and what it has become while a publisher served the records that fit their places. -/
inductive Session.Moves {σ : Type} (w : World σ) (p : Publisher) (fits : Nat → Routed → Prop) (s : Session σ) :
    Session σ → Prop where
  | start : Moves w p fits s s
  | asks {s' : Session σ} {world : σ} (h : Moves w p fits s s') (asked : w.Asks s'.world world) :
      Moves w p fits s { s' with world }
  | ticks {s' : Session σ} (h : Moves w p fits s s') (least : Nat) : Moves w p fits s (s'.tick w least)
  | notes {s' : Session σ} {e : Event} (h : Moves w p fits s s') (aside : e.isOutcome = false) :
      Moves w p fits s (s'.note e)
  | marks {s' : Session σ} (h : Moves w p fits s s') (tracker : Tracker) : Moves w p fits s { s' with tracker }
  | pools {s' : Session σ} (h : Moves w p fits s s') (tenant : String) :
      Moves w p fits s { s' with pools := s'.pools.insert tenant ⟨tenant, p.clientIds tenant⟩ }
  /-- A job ends. -/
  | ends {s' : Session σ} (h : Moves w p fits s s') (job : Job) (fit : fits job.slot job.routed) :
      Moves w p fits s
        ({ s' with world := (w.finish job s'.world).2 }.note (.processed job (w.finish job s'.world).1))
  /-- A message is handed to a producer that the pool of its tenant selects. -/
  | hands {s' : Session σ} {x : Shipment} {r : Routed} {tenant : String} {pool : ProducerPool} {spread : Nat}
      (h : Moves w p fits s s') (result : Except PublishError Unit) (fit : fits x.slot r)
      (known : r.subscriber.tenant = .ok tenant) (kept : s'.pools.get? tenant = some pool)
      (selected : pool.select r.subscriber r.record.keyBytes spread = .ok x.client) :
      Moves w p fits s (s'.note (.sent x result))

theorem ok_of_mapError {ε ε' α : Type} {f : ε → ε'} {x : Except ε α} {a : α} (h : x.mapError f = .ok a) :
    x = .ok a := by
  cases x with
  | error e => simp [Except.mapError] at h
  | ok b => exact congrArg Except.ok (Except.ok.inj h)

namespace Session.Moves

variable {σ : Type} {w : World σ} {p : Publisher} {fits : Nat → Routed → Prop} {s s' s'' : Session σ}
  {registry : Registry}

theorem count (h : s.Moves w p fits s') (name : String) (labels : List (String × String)) (n : Nat) :
    s.Moves w p fits (s'.count name labels n) := h.notes rfl

theorem observe (h : s.Moves w p fits s') (name : String) (labels : List (String × String)) :
    s.Moves w p fits (s'.observe name labels) := h.notes rfl

/-- What moves write down has every property that other notes have, and that the end of a job and the handing over of
a message have when they come. -/
theorem writes {P : Event → Prop} (h : s.Moves w p fits s') (aside : ∀ e : Event, e.isOutcome = false → P e)
    (ends : ∀ {s₁} job, s.Moves w p fits s₁ → fits job.slot job.routed → P (.processed job (w.finish job s₁.world).1))
    (hands : ∀ {s₁ x r tenant pool spread} result, s.Moves w p fits s₁ → fits x.slot r →
      r.subscriber.tenant = .ok tenant → s₁.pools.get? tenant = some pool →
      pool.select r.subscriber r.record.keyBytes spread = .ok x.client → P (.sent x result)) :
    ∃ added, s'.journal = added ++ s.journal ∧ ∀ e ∈ added, P e := by
  have hnote : ∀ {s₁ : Session σ} {e : Event}, (∃ added, s₁.journal = added ++ s.journal ∧ ∀ e ∈ added, P e) → P e →
      ∃ added, (s₁.note e).journal = added ++ s.journal ∧ ∀ e ∈ added, P e :=
    fun ⟨added, hj, hadded⟩ he => ⟨_ :: added, congrArg (_ :: ·) hj, List.forall_mem_cons.2 ⟨he, hadded⟩⟩
  induction h with
  | start => exact ⟨[], rfl, by simp⟩
  | asks _ _ ih => exact ih
  | ticks _ _ ih => exact ih
  | marks _ _ ih => exact ih
  | pools _ _ ih => exact ih
  | notes _ haside ih => exact hnote ih (aside _ haside)
  | ends hmoves job fit ih => exact hnote ih (ends job hmoves fit)
  | hands hmoves result fit known kept selected ih => exact hnote ih (hands result hmoves fit known kept selected)

/-! ## Publishers -/

theorem connect (h : s.Moves w p fits s') (source : Source) (clients : List String) :
    s.Moves w p fits (Publisher.connect w source clients s').2 := by
  induction clients generalizing s' with
  | nil => exact h
  | cons client rest ih =>
    have hasked : w.Asks s'.world (w.create source client s'.world).2 := .create source client
    simp only [Publisher.connect]
    split
    · next heq =>
      rw [heq] at hasked
      exact ih ((h.asks hasked).notes rfl)
    · next heq =>
      rw [heq] at hasked
      exact (h.asks hasked).notes rfl

/-- A pool that was built is kept for its tenant. -/
theorem build (h : s.Moves w p fits s') (tenant : String) {result : Except PublishError ProducerPool}
    (hb : Publisher.build w p registry tenant s' = (result, s'')) :
    s.Moves w p fits s'' ∧ ∀ pool, result = .ok pool → s''.pools.get? tenant = some pool := by
  simp only [Publisher.build] at hb
  split at hb
  · obtain ⟨rfl, rfl⟩ := Prod.mk.inj hb
    exact ⟨h, by simp⟩
  · next source _ =>
    have hconnect := h.connect source (p.clientIds tenant)
    split at hb
    · next heq =>
      rw [heq] at hconnect
      obtain ⟨rfl, rfl⟩ := Prod.mk.inj hb
      exact ⟨hconnect, by simp⟩
    · next heq =>
      rw [heq] at hconnect
      obtain ⟨rfl, rfl⟩ := Prod.mk.inj hb
      refine ⟨(hconnect.count ..).pools tenant, ?_⟩
      rintro pool ⟨⟩
      simp

theorem obtain (h : s.Moves w p fits s') (subscriber : Subscriber) {result : Except PublishError ProducerPool}
    (ho : Publisher.obtain w p registry subscriber s' = (result, s'')) :
    s.Moves w p fits s'' ∧ ∀ pool, result = .ok pool →
      ∃ tenant, subscriber.tenant = .ok tenant ∧ s''.pools.get? tenant = some pool := by
  simp only [Publisher.obtain] at ho
  split at ho
  · obtain ⟨rfl, rfl⟩ := Prod.mk.inj ho
    exact ⟨h, by simp⟩
  · next tenant htenant =>
    split at ho
    · next pool hkept =>
      obtain ⟨rfl, rfl⟩ := Prod.mk.inj ho
      exact ⟨h, by rintro _ ⟨⟩; exact ⟨tenant, htenant, hkept⟩⟩
    · obtain ⟨hmoves, hpool⟩ := h.build tenant ho
      exact ⟨hmoves, fun pool hok => ⟨tenant, htenant, hpool pool hok⟩⟩

/-- The producer of a message is one that the pool of the subscriber's tenant selects. -/
theorem select (h : s.Moves w p fits s') (subscriber : Subscriber) (key : Bytes)
    {result : Except PublishError String}
    (hs : Publisher.select w p registry subscriber key s' = (result, s'')) :
    s.Moves w p fits s'' ∧ ∀ client, result = .ok client → ∃ tenant pool spread,
      subscriber.tenant = .ok tenant ∧ s''.pools.get? tenant = some pool ∧
        pool.select subscriber key spread = .ok client := by
  simp only [Publisher.select] at hs
  rcases ho : Publisher.obtain w p registry subscriber s' with ⟨e | pool, s₁⟩ <;> rw [ho] at hs
  · obtain ⟨rfl, rfl⟩ := Prod.mk.inj hs
    exact ⟨(h.obtain subscriber ho).1, by simp⟩
  · obtain ⟨hmoves, hpool⟩ := h.obtain subscriber ho
    obtain ⟨tenant, htenant, hkept⟩ := hpool pool rfl
    obtain ⟨rfl, rfl⟩ := Prod.mk.inj hs
    refine ⟨?_, fun client hclient => ⟨tenant, pool, _, htenant, hkept, ok_of_mapError hclient⟩⟩
    cases subscriber.isSequential with
    | false => exact hmoves.asks .spread
    | true => exact hmoves

theorem send (h : s.Moves w p fits s') (registry : Registry) {slot : Nat} {r : Routed} (times : UInt32)
    (value : Json.Value) (fit : fits slot r) : s.Moves w p fits (p.send w registry slot times r value s').2 := by
  simp only [Publisher.send]
  rcases hs : Publisher.select w p registry r.subscriber r.record.keyBytes s' with ⟨e | client, s₁⟩
  · exact (h.select _ _ hs).1.notes rfl
  · obtain ⟨hmoves, hclient⟩ := h.select _ _ hs
    obtain ⟨tenant, pool, spread, htenant, hkept, hselect⟩ := hclient client rfl
    have hasked := hmoves.asks (.send ⟨slot, times, client, r.message p.lead p.pipeline value⟩)
    simp only
    split
    · next heq =>
      rw [heq] at hasked
      exact hasked.hands _ fit htenant hkept hselect
    · next heq =>
      rw [heq] at hasked
      exact hasked.hands _ fit htenant hkept hselect

end Session.Moves

/-! ## Work with retries -/

/-- A course whose session has moved, and whose payloads belong to records that fit their places. -/
structure Course.Moved {σ : Type} (w : World σ) (p : Publisher) (fits : Nat → Routed → Prop) (s : Session σ)
    (c : Course σ) : Prop where
  session : s.Moves w p fits c.session
  mapped : ∀ m ∈ c.mapped, fits m.slot m.routed

namespace Course.Moved

variable {σ : Type} {w : World σ} {p : Publisher} {fits : Nat → Routed → Prop} {s : Session σ} {c : Course σ}

theorem count (h : c.Moved w p fits s) (name : String) (labels : List (String × String)) (n : Nat) :
    (c.on (·.count name labels n)).Moved w p fits s := ⟨h.session.count .., h.mapped⟩

theorem asks {world : σ} (h : c.Moved w p fits s) (asked : w.Asks c.session.world world) :
    (c.on fun s => { s with world }).Moved w p fits s := ⟨h.session.asks asked, h.mapped⟩

theorem notes {e : Event} (h : c.Moved w p fits s) (aside : e.isOutcome = false) :
    (c.on (·.note e)).Moved w p fits s := ⟨h.session.notes aside, h.mapped⟩

end Course.Moved

namespace Work

variable {σ α τ : Type} {w : World σ} {p : Publisher} {fits : Nat → Routed → Prop} {s : Session σ}
  {k : Work σ α τ} {b : Budget} {placed : Nat → α → Prop} {holds : Nat → α → τ → Prop} {t : Task α τ}
  {ts : List (Task α τ)} {c c' : Course σ}

/-- Launching and landing only move the session. `placed` says which items stand where, and `holds` which ticket an
attempt in flight has. -/
structure Moving (w : World σ) (p : Publisher) (fits : Nat → Routed → Prop) (s : Session σ) (k : Work σ α τ)
    (placed : Nat → α → Prop) (holds : Nat → α → τ → Prop) : Prop where
  launch : ∀ {slot item a c launch c'}, placed slot item → c.Moved w p fits s →
    k.launch slot item a c = (launch, c') →
    c'.Moved w p fits s ∧ ∀ ticket, launch = .flying ticket → holds slot item ticket
  land : ∀ {slot item ticket c}, placed slot item → holds slot item ticket → c.Moved w p fits s →
    (k.land item ticket c).2.Moved w p fits s

/-- An attempt stands at the place of its item, with a ticket of its own if it is in flight. -/
structure Stands (placed : Nat → α → Prop) (holds : Nat → α → τ → Prop) (t : Task α τ) : Prop where
  placed : placed t.slot t.item
  holds : ∀ ticket, t.phase = .flying ticket → holds t.slot t.item ticket

theorem moved_fail (h : c.Moved w p fits s) (k : Work σ α τ) (b : Budget) (t : Task α τ) (giveUp : Bool) :
    (k.fail b t giveUp c).2.Moved w p fits s := by
  have hjudged := (h.notes (e := .counted k.failures 1) rfl).notes
    (e := .judged k.stage t.slot t.attempt c.session.now
      (b.policy.decide c.session.now t.attempt giveUp b.enabled)) rfl
  simp only [fail]
  split
  · exact hjudged.count ..
  · have hcounted := hjudged.count "records_abandoned_total"
    exact ⟨(hcounted _ _).session, h.mapped⟩

/-- A failed attempt that goes on rests. -/
theorem stands_fail (hplaced : placed t.slot t.item) (giveUp : Bool) :
    ∀ t' ∈ (k.fail b t giveUp c).1, Stands placed holds t' := by
  intro t' ht'
  simp only [fail] at ht'
  split at ht'
  · obtain rfl := Option.some.inj ht'
    exact ⟨hplaced, by simp⟩
  · simp at ht'

/-- What is in flight stands at its place, and the session only moved. -/
def Standing (w : World σ) (p : Publisher) (fits : Nat → Routed → Prop) (s : Session σ) (placed : Nat → α → Prop)
    (holds : Nat → α → τ → Prop) (ts : List (Task α τ)) (c : Course σ) : Prop :=
  c.Moved w p fits s ∧ ∀ t ∈ ts, Stands placed holds t

namespace Moving

theorem launches (hk : k.Moving w p fits s placed holds) {keep : α → τ → Course σ → Bool × Course σ}
    (hkeep : ∀ {item ticket c}, c.Moved w p fits s → (keep item ticket c).2.Moved w p fits s) :
    k.Launches w keep (fun items ts c => (∀ x ∈ items, placed x.2 x.1) ∧ Standing w p fits s placed holds ts c)
      fun _ c => c.Moved w p fits s where
  ticked h := ⟨h.1, ⟨h.2.1.session.ticks 0, h.2.1.mapped⟩, h.2.2⟩
  kept := by
    rintro item slot items ts c ticket c₁ c' ⟨hitems, hc, hts⟩ hl hkept
    obtain ⟨hplaced, hitems⟩ := List.forall_mem_cons.1 hitems
    obtain ⟨hmoved, hticket⟩ := hk.launch hplaced hc hl
    have hmoved' : (keep item ticket c₁).2.Moved w p fits s := hkeep hmoved
    rw [hkept] at hmoved'
    refine ⟨hitems, hmoved', List.forall_mem_append.2 ⟨hts, List.forall_mem_singleton.2 ⟨hplaced, ?_⟩⟩⟩
    rintro _ ⟨⟩
    exact hticket _ rfl
  dropped := by
    rintro item slot items ts c ticket c₁ c' ⟨hitems, hc, hts⟩ hl hdropped
    obtain ⟨hplaced, hitems⟩ := List.forall_mem_cons.1 hitems
    have hmoved : (keep item ticket c₁).2.Moved w p fits s := hkeep (hk.launch hplaced hc hl).1
    rw [hdropped] at hmoved
    exact ⟨hitems, hmoved, hts⟩
  failed := by
    rintro item slot items ts c giveUp c' ⟨hitems, hc, hts⟩ hl
    obtain ⟨hplaced, hitems⟩ := List.forall_mem_cons.1 hitems
    exact ⟨hitems, (hk.launch hplaced hc hl).1,
      List.forall_mem_append.2 ⟨hts, List.forall_mem_singleton.2 ⟨hplaced, by simp⟩⟩⟩
  stopped := by
    rintro item slot items ts c e c' ⟨hitems, hc, -⟩ hl
    exact (hk.launch (List.forall_mem_cons.1 hitems).1 hc hl).1

theorem turns (hk : k.Moving w p fits s placed holds) (b : Budget) :
    k.Turns w b (Standing w p fits s placed holds) fun _ c => c.Moved w p fits s where
  perm hp h := ⟨h.1, fun t ht => h.2 t (hp.mem_iff.2 ht)⟩
  chosen least h := ⟨⟨(h.1.asks (.next _)).session.ticks least, h.1.mapped⟩, h.2⟩
  launched := by
    rintro t wake ts c ticket c' - ⟨hc, hts⟩ hl
    obtain ⟨ht, hts⟩ := List.forall_mem_cons.1 hts
    obtain ⟨hmoved, hticket⟩ := hk.launch ht.placed hc hl
    refine ⟨hmoved, List.forall_mem_cons.2 ⟨⟨ht.placed, ?_⟩, hts⟩⟩
    rintro _ ⟨⟩
    exact hticket _ rfl
  unlaunched := by
    rintro t wake ts c giveUp c' - ⟨hc, hts⟩ hl
    obtain ⟨ht, hts⟩ := List.forall_mem_cons.1 hts
    exact ⟨(hk.launch ht.placed hc hl).1, List.forall_mem_cons.2 ⟨⟨ht.placed, by simp⟩, hts⟩⟩
  barred := by
    rintro t wake ts c e c' - ⟨hc, hts⟩ hl
    exact (hk.launch (hts t List.mem_cons_self).placed hc hl).1
  landed := by
    rintro t ticket ts c c' hp ⟨hc, hts⟩ hl
    obtain ⟨ht, hts⟩ := List.forall_mem_cons.1 hts
    have hmoved := hk.land ht.placed (ht.holds ticket hp) hc
    rw [hl] at hmoved
    exact ⟨hmoved, hts⟩
  crashed := by
    rintro t ticket ts c giveUp c' hp ⟨hc, hts⟩ hl
    obtain ⟨ht, hts⟩ := List.forall_mem_cons.1 hts
    have hmoved := hk.land ht.placed (ht.holds ticket hp) hc
    rw [hl] at hmoved
    exact ⟨hmoved, List.forall_mem_cons.2 ⟨⟨ht.placed, by simp⟩, hts⟩⟩
  broken := by
    rintro t ticket ts c e c' hp ⟨hc, hts⟩ hl
    have ht := hts t List.mem_cons_self
    have hmoved := hk.land ht.placed (ht.holds ticket hp) hc
    rwa [hl] at hmoved
  judged := by
    rintro t giveUp ts c - ⟨hc, hts⟩
    obtain ⟨ht, hts⟩ := List.forall_mem_cons.1 hts
    refine ⟨moved_fail hc k b t giveUp, List.forall_mem_append.2 ⟨fun t' ht' => ?_, hts⟩⟩
    exact stands_fail ht.placed giveUp t' (Option.mem_toList.1 ht')

end Moving

end Work

/-! ## The two stages -/

namespace Dispatcher

variable {σ : Type} {w : World σ} {d : Dispatcher} {registry : Registry} {matched : List Routed} {s : Session σ}
  {c : Course σ}

/-- A course of a batch that serves its matched records, each at its place. -/
abbrev Serving (w : World σ) (d : Dispatcher) (matched : List Routed) (s : Session σ) (c : Course σ) : Prop :=
  c.Moved w d.publisher (fun slot r => matched[slot]? = some r) s

theorem moving_filterMap (w : World σ) (d : Dispatcher) (matched : List Routed) (s : Session σ) :
    (filterMap w d).Moving w d.publisher (fun slot r => matched[slot]? = some r) s
      (fun slot r => matched[slot]? = some r) (fun slot r job => job.slot = slot ∧ job.routed = r) where
  launch {slot r a c launch c'} hplaced h hl := by
    have hasked := h.asks (.submit ⟨slot, a.times, r⟩)
    simp only [filterMap, submit] at hl
    split at hl
    · next heq =>
      rw [heq] at hasked
      obtain ⟨rfl, rfl⟩ := Prod.mk.inj hl
      exact ⟨hasked.notes rfl, by rintro _ ⟨⟩; exact ⟨rfl, rfl⟩⟩
    · next heq =>
      rw [heq] at hasked
      obtain ⟨rfl, rfl⟩ := Prod.mk.inj hl
      exact ⟨hasked.notes rfl, by simp⟩
  land {slot r job c} hplaced hholds h := by
    obtain ⟨rfl, rfl⟩ := hholds
    have hended := h.session.ends job hplaced
    rcases hf : w.finish job c.session.world with ⟨outcome | e, world⟩
    all_goals
      rw [hf] at hended
      simp only [filterMap, harvest, hf]
    · exact ⟨hended, h.mapped⟩
    · split
      · exact ⟨(hended.count ..).observe .., List.forall_mem_cons.2 ⟨hplaced, h.mapped⟩⟩
      · exact ⟨hended.count .., h.mapped⟩

theorem moving_publish (w : World σ) (d : Dispatcher) (registry : Registry) (matched : List Routed)
    (s : Session σ) :
    (publish w d registry).Moving w d.publisher (fun slot r => matched[slot]? = some r) s
      (fun slot m => matched[slot]? = some m.routed) (fun _ _ _ => True) where
  launch {slot m a c launch c'} hplaced h hl := by
    refine ⟨?_, fun _ _ => trivial⟩
    have hsent := h.session.send registry a.times m.value hplaced
    simp only [publish, send] at hl
    split at hl
    · next heq =>
      rw [heq] at hsent
      obtain ⟨-, rfl⟩ := Prod.mk.inj hl
      exact ⟨hsent, h.mapped⟩
    · next heq =>
      rw [heq] at hsent
      split at hl
      · obtain ⟨-, rfl⟩ := Prod.mk.inj hl
        exact ⟨hsent, h.mapped⟩
      · obtain ⟨-, rfl⟩ := Prod.mk.inj hl
        exact ⟨hsent, h.mapped⟩
  land {slot m x c} hplaced _ h := by
    have hasked := h.session.asks (.deliver x)
    rcases hd : w.deliver x c.session.world with ⟨e | _, world⟩
    all_goals
      rw [hd] at hasked
      simp only [publish, confirm, hd]
    · split
      · exact ⟨hasked.notes rfl, h.mapped⟩
      · exact ⟨hasked.notes rfl, h.mapped⟩
    · exact ⟨((hasked.notes rfl).count ..).observe .., h.mapped⟩

theorem serving_awaitDelivery (h : Serving w d matched s c) (m : Mapped) (x : Shipment) :
    Serving w d matched s (d.awaitDelivery m x c).2 := by
  simp only [awaitDelivery]
  split
  · exact h
  · exact ⟨h.session.count .., h.mapped⟩

theorem serving_flushUsed (h : Serving w d matched s c) : Serving w d matched s (flushUsed w c) := by
  unfold flushUsed
  generalize c.used.keys = clients
  induction clients generalizing c with
  | nil => exact h
  | cons client rest ih => exact ih ((h.asks (.flush client)).notes rfl)

theorem serving_runFilterMap (h : Serving w d matched s c) :
    Serving w d matched s (runFilterMap w d matched c).2 := by
  have hk := moving_filterMap w d matched s
  have hitems : ∀ x ∈ matched.zipIdx, matched[x.2]? = some x.1 := fun x hx =>
    List.mem_zipIdx_iff_getElem?.1 hx
  obtain ⟨hover, hstopped, hstuck⟩ := runFilterMap_turns (hk.launches id) (hk.turns d.budget) (fun _ _ h => h.2)
    ⟨hitems, h, by simp⟩
  rcases hr : runFilterMap w d matched c with ⟨_ | e | _, c'⟩
  · exact (hover _ hr).1
  · exact hstopped _ _ hr
  · obtain ⟨ts, hts⟩ := hstuck _ hr
    exact hts.1

theorem serving_runPublish (h : Serving w d matched s c) (registry : Registry) :
    Serving w d matched s (runPublish w d registry c).2 := by
  have hk := moving_publish w d registry matched s
  have hitems : ∀ x ∈ (sorted c.mapped.reverse).map (fun m => (m, m.slot)), matched[x.2]? = some x.1.routed := by
    intro x hx
    obtain ⟨m, hm, rfl⟩ := List.mem_map.1 hx
    exact h.mapped m ((sorted_perm c.mapped).mem_iff.1 hm)
  obtain ⟨hover, hstopped, hstuck⟩ := runPublish_turns (hk.launches fun h => serving_awaitDelivery h _ _)
    (hk.turns d.budget) (fun _ _ h => h.2) (fun _ h => ⟨serving_flushUsed h.1, h.2⟩) ⟨hitems, h, by simp⟩
  rcases hr : runPublish w d registry c with ⟨_ | e | _, c'⟩
  · exact (hover _ hr).1
  · exact hstopped _ _ hr
  · obtain ⟨ts, hts⟩ := hstuck _ hr
    exact hts.1

/-! ## The whole dispatch -/

theorem serving_countPartitions (h : Serving w d matched s c) (name : String) (partitions : List Partition) :
    Serving w d matched s (countPartitions name partitions c) := by
  unfold countPartitions
  induction partitions generalizing c with
  | nil => exact h
  | cons p rest ih => exact ih (h.count ..)

theorem serving_rewind (h : Serving w d matched s c) (offsets : Offsets) :
    Serving w d matched s (rewind w offsets c) := by
  have hasked := h.asks (.seek offsets)
  simp only [rewind]
  split
  · exact h
  · split
    · next heq =>
      rw [heq] at hasked
      exact ⟨hasked.session.notes rfl, h.mapped⟩
    · next heq =>
      rw [heq] at hasked
      exact hasked.notes rfl

theorem serving_commit (h : Serving w d matched s c) (kind : String) (offsets : Offsets) :
    Serving w d matched s (commit w kind offsets c).2 := by
  have hasked := h.asks (.commit offsets)
  simp only [commit]
  split
  · next heq =>
    rw [heq] at hasked
    exact ⟨((hasked.session.notes rfl).notes rfl |>.notes rfl).marks _, h.mapped⟩
  · next heq =>
    rw [heq] at hasked
    exact (hasked.notes rfl).count ..

theorem serving_acknowledge (h : Serving w d matched s c) (level : ServiceLevel) :
    Serving w d matched s (acknowledge w level c) := by
  have hgaps : Serving w d matched s
      (if (level.acknowledge c.ledger).isRun then
        countPartitions "acknowledge_gap_detected_total" (gaps c.ledger (level.acknowledge c.ledger).offsets) c
      else c) := by
    split
    · exact serving_countPartitions h ..
    · exact h
  have hskipped := serving_countPartitions hgaps "acknowledge_regression_skipped_total"
    (c.session.tracker.regressing (level.acknowledge c.ledger).offsets)
  simp only [acknowledge]
  split
  · exact h
  · generalize countPartitions "acknowledge_regression_skipped_total" _ _ = c₁ at hskipped ⊢
    have hcommitted : Serving w d matched s
        (if (c.session.tracker.advancing (level.acknowledge c.ledger).offsets).isEmpty then (true, c₁)
        else commit w (level.acknowledge c.ledger).kind
          (c.session.tracker.advancing (level.acknowledge c.ledger).offsets) c₁).2 := by
      split
      · exact hskipped
      · exact serving_commit hskipped ..
    generalize (if (c.session.tracker.advancing (level.acknowledge c.ledger).offsets).isEmpty then (true, c₁)
      else _) = answer at hcommitted ⊢
    split
    · exact serving_rewind hcommitted _
    · split
      · exact serving_rewind hcommitted _
      · exact hcommitted

theorem serving_conclude (h : Serving w d matched s c) :
    s.Moves w d.publisher (fun slot r => matched[slot]? = some r) (conclude w d c).2 :=
  (serving_acknowledge h d.level).session.observe ..

theorem serving_matchBatch (h : Serving w d matched s c) (subscribers : List Subscriber) (batch : Batch) :
    Serving w d matched s (matchBatch subscribers batch c).2 := by
  have hsettle : ∀ {c : Course σ} (places : List Coordinates), Serving w d matched s c →
      Serving w d matched s (c.settleAll places) := by
    intro c places h
    rw [Course.settleAll_eq]
    exact ⟨h.session, h.mapped⟩
  have hsettled := hsettle ((Matching.ofRecords subscribers batch.records).unmatched.map (·.coordinates))
    (hsettle (batch.errors.filterMap (·.coordinates?)) h)
  simp only [matchBatch]
  split
  · exact ⟨hsettled.session, hsettled.mapped⟩
  · exact ⟨hsettled.session.count .., hsettled.mapped⟩

/-- Once the filters were shown the subscribers of its batch, a dispatch is a sequence of moves for the matched
records. -/
theorem moves_dispatch (w : World σ) (d : Dispatcher) (registry : Registry) (batch : Batch) (s : Session σ) :
    let subscribers := registry.subscribers d.pipeline
    let matched := (Matching.ofRecords subscribers batch.records).matched
    Session.Moves w d.publisher (fun slot r => matched[slot]? = some r)
      { s with world := w.refresh subscribers s.world } (d.dispatch w registry batch s).2 := by
  intro subscribers matched
  have hstart : Serving w d matched { s with world := w.refresh subscribers s.world }
      (.start { s with world := w.refresh subscribers s.world }) := ⟨.start, by simp [Course.start]⟩
  have hmatched : (matchBatch subscribers batch (.start { s with world := w.refresh subscribers s.world })).1 =
      matched := rfl
  have hserved := serving_runFilterMap (serving_matchBatch hstart subscribers batch)
  simp only [dispatch]
  rw [hmatched]
  rcases hf : runFilterMap w d matched (matchBatch subscribers batch
    (.start { s with world := w.refresh subscribers s.world })).2 with ⟨_ | e | _, c₁⟩
  all_goals rw [hf] at hserved
  · simp only
    cases d.checkpoint with
    | false =>
      refine serving_conclude ?_
      rw [Course.settleAll_eq]
      exact ⟨hserved.session, hserved.mapped⟩
    | true =>
      have hpublished := serving_runPublish hserved registry
      rcases hp : runPublish w d registry c₁ with ⟨_ | e | _, c₂⟩
      all_goals rw [hp] at hpublished
      · exact serving_conclude hpublished
      · exact hpublished.session
      · exact hpublished.session
  · exact hserved.session.asks .cancelAll
  · exact hserved.session

end Dispatcher

end Relay
