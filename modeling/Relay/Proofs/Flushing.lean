import Mathlib.Data.List.Nodup
import Relay.Proofs.Commits
import Relay.Proofs.Connections
import Relay.Proofs.Lockstep

/-!
# Flushing before committing

A dispatch remembers every producer that accepts a message, on the first attempt or on a later one, and flushes
each of them once: after the last message was handed over and before anything is committed. What a flush comes to has no
say in the acknowledgement, so two dispatches that differ in their flushes alone run in lockstep to the end.
-/

namespace Relay

/-- Whether an event belongs to the end of a dispatch: a flush, or a call to the consumer group. -/
def Event.isClosing : Event → Bool
  | .flushed _ => true
  | e => e.isGroup

theorem Event.of_not_isClosing {e : Event} (h : e.isClosing = false) :
    (∀ client, e ≠ .flushed client) ∧ e.isGroup = false := by
  cases e with
  | flushed => cases h
  | _ => exact ⟨by simp, h⟩

/-- The producer that accepted a message. -/
def Event.taker? : Event → Option String
  | .sent x (.ok ()) => some x.client
  | _ => none

theorem Event.taker?_eq_some {e : Event} {client : String} :
    e.taker? = some client ↔ ∃ x, x.client = client ∧ e = .sent x (.ok ()) := by
  constructor
  · intro h
    unfold taker? at h
    split at h
    · exact ⟨_, Option.some.inj h, rfl⟩
    · simp at h
  · rintro ⟨x, rfl, rfl⟩
    rfl

/-! ## The upkeep of producers -/

/-- Whether an event belongs to the upkeep of producers. -/
def Event.isUpkeep : Event → Bool
  | .created _ _ _ => true
  | .counted _ _ => true
  | _ => false

/-- The upkeep of producers closes nothing and hands nothing over. -/
theorem Event.of_isUpkeep {e : Event} (h : e.isUpkeep = true) : e.isClosing = false ∧ e.taker? = none := by
  cases e with
  | counted => exact ⟨rfl, rfl⟩
  | created => exact ⟨rfl, rfl⟩
  | _ => simp [isUpkeep] at h

section Upkeep

variable {σ : Type} {w : World σ} {p : Publisher} {registry : Registry} {s s' s'' : Session σ}

/-- From one session to the next only the upkeep of producers is written down. -/
def Session.Upkeep (s s' : Session σ) : Prop :=
  ∃ added, s'.journal = added ++ s.journal ∧ ∀ e ∈ added, e.isUpkeep = true

namespace Publisher

theorem upkeep_select (w : World σ) (p : Publisher) (registry : Registry) (subscriber : Subscriber) (key : Bytes)
    (s : Session σ) : s.Upkeep (p.select w registry subscriber key s).2 :=
  writes_select (P := fun e => e.isUpkeep = true) (fun _ _ _ => rfl) rfl w p registry subscriber key s

/-- An attempt to hand a message over closes nothing, and tells of a producer that accepted it if it succeeds. -/
theorem takers_send (w : World σ) (p : Publisher) (registry : Registry) (slot : Nat) (times : UInt32) (r : Routed)
    (value : Json.Value) (s : Session σ) :
    ∃ added, (p.send w registry slot times r value s).2.journal = added ++ s.journal ∧
      (∀ e ∈ added, e.isClosing = false) ∧
      added.filterMap Event.taker? =
        match (p.send w registry slot times r value s).1 with
        | .ok x => [x.client]
        | .error _ => [] := by
  obtain ⟨upkeep, hjournal, hupkeep⟩ := upkeep_select w p registry r.subscriber r.record.keyBytes s
  have hclosing : ∀ e ∈ upkeep, e.isClosing = false := fun e he => (Event.of_isUpkeep (hupkeep e he)).1
  have htakers : upkeep.filterMap Event.taker? = [] :=
    List.filterMap_eq_nil_iff.2 fun e he => (Event.of_isUpkeep (hupkeep e he)).2
  unfold send
  rcases hselect : p.select w registry r.subscriber r.record.keyBytes s with ⟨e | client, s₁⟩ <;>
    rw [hselect] at hjournal
  · exact ⟨_ :: upkeep, congrArg (_ :: ·) hjournal, List.forall_mem_cons.2 ⟨rfl, hclosing⟩, htakers⟩
  · simp only
    rcases w.send ⟨slot, times, client, r.message p.lead p.pipeline value⟩ s₁.world with ⟨e | _, world⟩
    · exact ⟨_ :: upkeep, congrArg (_ :: ·) hjournal, List.forall_mem_cons.2 ⟨rfl, hclosing⟩, htakers⟩
    · exact ⟨_ :: upkeep, congrArg (_ :: ·) hjournal, List.forall_mem_cons.2 ⟨rfl, hclosing⟩,
        congrArg (client :: ·) htakers⟩

end Publisher

end Upkeep

/-! ## Producers that took messages -/

section Dispatch

variable {σ : Type} {w : World σ} {flush : String → σ → Flush × σ} {d : Dispatcher} {registry : Registry}
  {s : Session σ} {c c' : Course σ} {added : List Event}

/-- The producers that accepted a message since a session are remembered, and nothing is closed yet. -/
def Course.Remembers (s : Session σ) (c : Course σ) : Prop :=
  ∃ earlier, c.session.journal = earlier ++ s.journal ∧ (∀ e ∈ earlier, e.isClosing = false) ∧
    ∀ client, client ∈ c.used.keys ↔ client ∈ earlier.filterMap Event.taker?

namespace Course.Remembers

theorem writes (h : c.Remembers s) (hj : c'.session.journal = added ++ c.session.journal)
    (hadded : ∀ e ∈ added, e.isClosing = false)
    (hused : ∀ client, client ∈ c'.used.keys ↔ client ∈ added.filterMap Event.taker? ∨ client ∈ c.used.keys) :
    c'.Remembers s := by
  obtain ⟨earlier, hearlier, hclosing, hkeys⟩ := h
  refine ⟨added ++ earlier, ?_, List.forall_mem_append.2 ⟨hadded, hclosing⟩, fun client => ?_⟩
  · rw [hj, hearlier, List.append_assoc]
  · rw [hused, hkeys, List.filterMap_append, List.mem_append]

/-- What is written aside changes nothing. -/
theorem note {e : Event} (h : c.Remembers s) (he : e.isClosing = false) (ht : e.taker? = none) :
    (c.on (·.note e)).Remembers s := by
  have hjournal : (c.on (·.note e)).session.journal = [e] ++ c.session.journal := rfl
  exact h.writes hjournal (by simpa using he) fun client => by simp [Course.on, ht]

theorem submit (h : c.Remembers s) (w : World σ) (d : Dispatcher) (slot : Nat) (r : Routed) (a : Attempt) :
    (d.submit w slot r a c).2.Remembers s := by
  have hworld : ∀ world, (c.on ({ · with world })).Remembers s := fun _ => h
  unfold Dispatcher.submit
  simp only
  split
  · exact (hworld _).note (e := .submitted ⟨slot, a.times, r⟩ true) rfl rfl
  · exact (hworld _).note (e := .submitted ⟨slot, a.times, r⟩ false) rfl rfl

theorem harvest (h : c.Remembers s) (w : World σ) (r : Routed) (job : Job) :
    (Dispatcher.harvest w r job c).2.Remembers s := by
  rcases hf : w.finish job c.session.world with ⟨result, world⟩
  have hworld : (c.on ({ · with world })).Remembers s := h
  have hprocessed := hworld.note (e := .processed job result) rfl rfl
  simp only [Dispatcher.harvest, hf]
  rcases result with e | outcome
  · exact hprocessed
  · simp only
    split
    · exact (hprocessed.note (e := .counted ⟨"filter_records_total", [("status", "matched")]⟩ 1) rfl rfl).note
        (e := .observed ⟨"filter_records_duration_ms", []⟩) rfl rfl
    · exact hprocessed.note (e := .counted ⟨"filter_records_total", [("status", "filtered")]⟩ 1) rfl rfl

theorem send (h : c.Remembers s) (w : World σ) (d : Dispatcher) (registry : Registry) (slot : Nat) (m : Mapped)
    (a : Attempt) : (d.send w registry slot m a c).2.Remembers s := by
  obtain ⟨added, hjournal, hclosing, htakers⟩ :=
    d.publisher.takers_send w registry slot a.times m.routed m.value c.session
  unfold Dispatcher.send
  rcases hs : d.publisher.send w registry slot a.times m.routed m.value c.session with ⟨e | x, s₁⟩ <;>
    rw [hs] at hjournal htakers
  · have hunsent : Course.Remembers s { c with session := s₁ } :=
      h.writes hjournal hclosing fun client => by simp [htakers]
    simp only
    split
    · exact hunsent
    · exact hunsent
  · refine h.writes hjournal hclosing fun client => ?_
    change client ∈ (c.used.insert x.client ()).keys ↔ _
    rw [htakers, List.mem_singleton, SortedMap.mem_keys_iff, SortedMap.mem_keys_iff, SortedMap.get?_insert]
    by_cases hclient : client = x.client
    · simp [hclient]
    · have hne : compare client x.client ≠ .eq := fun e => hclient (Std.LawfulEqCmp.eq_of_compare e)
      simp [hclient, hne]

theorem confirm (h : c.Remembers s) (w : World σ) (m : Mapped) (x : Shipment) :
    (Dispatcher.confirm w m x c).2.Remembers s := by
  rcases hd : w.deliver x c.session.world with ⟨result, world⟩
  have hworld : (c.on ({ · with world })).Remembers s := h
  have hdelivered := hworld.note (e := .delivered x result) rfl rfl
  simp only [Dispatcher.confirm, hd]
  rcases result with e | _
  · simp only
    split
    · exact hdelivered
    · exact hdelivered
  · exact (hdelivered.note (e := .counted ⟨"checkpoint_sent_total", [("status", "success")]⟩ 1) rfl rfl).note
      (e := .observed ⟨"checkpoint_sent_duration_ms", []⟩) rfl rfl

theorem awaitDelivery (h : c.Remembers s) (d : Dispatcher) (m : Mapped) (x : Shipment) :
    (d.awaitDelivery m x c).2.Remembers s := by
  unfold Dispatcher.awaitDelivery
  split
  · exact h
  · exact h.note (e := .counted ⟨"checkpoint_sent_total", [("status", "enqueued")]⟩ 1) rfl rfl

end Course.Remembers

/-! ## Other flushes -/

/-- Surroundings whose producers are flushed in another way. -/
def World.withFlush (w : World σ) (flush : String → σ → Flush × σ) : World σ := { w with flush }

namespace Publisher

theorem connect_withFlush (source : Source) (clients : List String) (s : Session σ) :
    connect (w.withFlush flush) source clients s = connect w source clients s := by
  induction clients generalizing s with
  | nil => rfl
  | cons client rest ih =>
    have hcreate : (w.withFlush flush).create source client s.world = w.create source client s.world := rfl
    simp only [connect, hcreate, ih]

theorem send_withFlush (p : Publisher) (registry : Registry) (slot : Nat) (times : UInt32) (r : Routed)
    (value : Json.Value) (s : Session σ) :
    p.send (w.withFlush flush) registry slot times r value s = p.send w registry slot times r value s := by
  simp only [send, select, obtain, build, connect_withFlush]
  rfl

end Publisher

namespace Work

variable {α ι : Type} {k : Work σ α ι}

/-- Work that remembers the producers that accepted its messages. -/
structure Remembering (s : Session σ) (k : Work σ α ι) : Prop where
  launch : ∀ {c} slot item a, c.Remembers s → (k.launch slot item a c).2.Remembers s
  land : ∀ {c} item ticket, c.Remembers s → (k.land item ticket c).2.Remembers s

namespace Remembering

/-- As long as nothing is flushed, it does not matter how that would be done. -/
theorem lockstep (hk : k.Remembering s) (w : World σ) (flush : String → σ → Flush × σ) :
    k.Lockstep w (w.withFlush flush) k fun c c' => c = c' ∧ c.Remembers s where
  stage := rfl
  failures := rfl
  place := rfl
  waiting := rfl
  now := by
    rintro c _ ⟨rfl, -⟩
    rfl
  tick := by
    rintro c _ least ⟨rfl, h⟩
    exact ⟨rfl, h⟩
  next := by
    rintro c _ waiting ⟨rfl, h⟩
    exact ⟨rfl, rfl, h⟩
  count := by
    rintro c _ series n ⟨rfl, h⟩
    exact ⟨rfl, h.note rfl rfl⟩
  judge := by
    rintro c _ stage slot a now decision ⟨rfl, h⟩
    exact ⟨rfl, h.note rfl rfl⟩
  abandon := by
    rintro c _ place ⟨rfl, h⟩
    exact ⟨rfl, h⟩
  launch := by
    rintro c _ slot item a ⟨rfl, h⟩
    exact ⟨rfl, rfl, hk.launch slot item a h⟩
  land := by
    rintro c _ item ticket ⟨rfl, h⟩
    exact ⟨rfl, rfl, hk.land item ticket h⟩

theorem launchAll (hk : k.Remembering s) (w : World σ) (flush : String → σ → Flush × σ)
    (keep : α → ι → Course σ → Bool × Course σ)
    (hkeep : ∀ {c} item ticket, c.Remembers s → (keep item ticket c).2.Remembers s) (items : List (α × Nat))
    (h : c.Remembers s) :
    k.launchAll (w.withFlush flush) keep items c = k.launchAll w keep items c ∧
      (k.launchAll w keep items c).2.Remembers s := by
  have hkept : ∀ {c c' : Course σ} item ticket, c = c' ∧ c.Remembers s →
      Agree (fun c c' => c = c' ∧ c.Remembers s) (keep item ticket c) (keep item ticket c') := by
    rintro c _ item ticket ⟨rfl, h⟩
    exact ⟨rfl, rfl, hkeep item ticket h⟩
  obtain ⟨hresult, hcourse, hremembers⟩ := (hk.lockstep w flush).launchAll hkept items ⟨rfl, h⟩
  exact ⟨(Prod.ext hresult hcourse).symm, hremembers⟩

theorem finish (hk : k.Remembering s) (w : World σ) (flush : String → σ → Flush × σ) (b : Budget)
    (ts : List (Task α ι)) (h : c.Remembers s) :
    k.finish (w.withFlush flush) b ts c = k.finish w b ts c ∧ (k.finish w b ts c).2.Remembers s := by
  obtain ⟨hresult, hcourse, hremembers⟩ := (hk.lockstep w flush).finish b ts ⟨rfl, h⟩
  exact ⟨(Prod.ext hresult hcourse).symm, hremembers⟩

end Remembering

end Work

namespace Dispatcher

theorem remembering_filterMap (w : World σ) (d : Dispatcher) (s : Session σ) : (filterMap w d).Remembering s where
  launch slot r a h := h.submit w d slot r a
  land r job h := h.harvest w r job

theorem remembering_publish (w : World σ) (d : Dispatcher) (registry : Registry) (s : Session σ) :
    (publish w d registry).Remembering s where
  launch slot m a h := h.send w d registry slot m a
  land m x h := h.confirm w m x

theorem publish_withFlush (w : World σ) (flush : String → σ → Flush × σ) (d : Dispatcher) (registry : Registry) :
    publish (w.withFlush flush) d registry = publish w d registry := by
  have hsend : send (w.withFlush flush) d registry = send w d registry := by
    funext slot m a c
    simp only [send, Publisher.send_withFlush]
  simp only [publish, hsend]
  rfl

theorem remembers_matchBatch (subscribers : List Subscriber) (batch : Batch) {s₁ : Session σ}
    (h : s₁.journal = s.journal) : (matchBatch subscribers batch (.start s₁)).2.Remembers s := by
  have hstart : (Course.start s₁).Remembers s :=
    ⟨[], h, by simp, fun client => by simp [Course.start, SortedMap.keys, SortedMap.empty]⟩
  simp only [matchBatch, Course.settleAll_eq]
  split
  · exact hstart
  · exact Course.Remembers.note (e := .counted ⟨"records_unmatched_total", []⟩ _) hstart rfl rfl

theorem remembers_runFilterMap (w : World σ) (d : Dispatcher) (matched : List Routed) (h : c.Remembers s)
    (flush : String → σ → Flush × σ) :
    runFilterMap (w.withFlush flush) d matched c = runFilterMap w d matched c ∧
      (runFilterMap w d matched c).2.Remembers s := by
  have hk := remembering_filterMap w d s
  obtain ⟨hlaunch, h₁⟩ := hk.launchAll w flush (fun _ _ c => (true, c)) (fun _ _ h => h) matched.zipIdx h
  have hsame : filterMap (w.withFlush flush) d = filterMap w d := rfl
  simp only [runFilterMap, hsame, hlaunch]
  rcases hl : (filterMap w d).launchAll w (fun _ _ c => (true, c)) matched.zipIdx c with ⟨e | ts, c₁⟩ <;> rw [hl] at h₁
  · exact ⟨rfl, h₁⟩
  · exact hk.finish w flush d.budget ts h₁

/-- A batch that is acknowledged was published to its end in the same way, however producers are flushed. -/
theorem published_of_done {batch : Batch} {s' : Session σ} {summary : Summary} {ledger : Ledger}
    (hd : d.checkpoint = true) (h : d.dispatch w registry batch s = (.done summary ledger, s')) :
    ∃ c : Course σ, c.Remembers s ∧ ∀ flush, d.dispatch (w.withFlush flush) registry batch s =
      conclude (w.withFlush flush) d (flushUsed (w.withFlush flush) c) := by
  have hrefresh : ∀ flush, (w.withFlush flush).refresh = w.refresh := fun _ => rfl
  simp only [dispatch, hd, if_true] at h
  simp only [dispatch, hd, if_true, hrefresh]
  have hshown : { s with world := w.refresh (registry.subscribers d.pipeline) s.world }.journal = s.journal := rfl
  have hbegin := remembers_matchBatch (registry.subscribers d.pipeline) batch hshown
  rcases hm : matchBatch (registry.subscribers d.pipeline) batch _ with ⟨matched, c₀⟩
  rw [hm] at h hbegin
  have hfilter := fun flush => remembers_runFilterMap w d matched hbegin flush
  have h₁ := (hfilter w.flush).2
  simp only [fun flush => (hfilter flush).1]
  rcases hf : runFilterMap w d matched c₀ with ⟨_ | e | _, c₁⟩ <;> simp only [hf] at h h₁
  · -- the course in which publishing ends, before anything is flushed
    have hk := remembering_publish w d registry s
    have hlaunch := fun flush => hk.launchAll w flush d.awaitDelivery
      (fun m x h => h.awaitDelivery d m x) ((sorted c₁.mapped.reverse).map fun m => (m, m.slot)) h₁
    have h₂ := (hlaunch w.flush).2
    simp only [runPublish, publish_withFlush, fun flush => (hlaunch flush).1]
    simp only [runPublish] at h
    rcases hl : (publish w d registry).launchAll w d.awaitDelivery
      ((sorted c₁.mapped.reverse).map fun m => (m, m.slot)) c₁ with ⟨e | ts, c₂⟩ <;> simp only [hl] at h h₂
    · simp at h
    · have hfinish := fun flush => hk.finish w flush d.budget ts h₂
      have h₃ := (hfinish w.flush).2
      simp only [fun flush => (hfinish flush).1]
      rcases hp : (publish w d registry).finish w d.budget ts c₂ with ⟨_ | e | _, c₃⟩ <;> simp only [hp] at h h₃
      · exact ⟨c₃, h₃, fun flush => rfl⟩
      · simp at h
      · simp at h
  · simp at h
  · simp at h

end Dispatcher

/-! ## The flushes -/

namespace Dispatcher

/-- Flushing producers asks the surroundings and writes down who was flushed; nothing else is touched. -/
theorem foldl_flush {R : σ → σ → Prop}
    (hflush : ∀ {x y} client, R x y → R (w.flush client x).2 (flush client y).2) (clients : List String)
    (c : Course σ) {world : σ} (hworld : R c.session.world world) :
    ∃ x y, R x y ∧
      clients.foldl (fun c client =>
          let (_, world) := w.flush client c.session.world
          c.on fun s => { s with world }.note (.flushed client)) c =
        c.on (fun s => { s with world := x, journal := (clients.map .flushed).reverse ++ s.journal }) ∧
      clients.foldl (fun c client =>
          let (_, world) := flush client c.session.world
          c.on fun s => { s with world }.note (.flushed client)) (c.on ({ · with world })) =
        c.on (fun s => { s with world := y, journal := (clients.map .flushed).reverse ++ s.journal }) := by
  induction clients generalizing c world with
  | nil => exact ⟨c.session.world, world, hworld, rfl, rfl⟩
  | cons client rest ih =>
    have hnext : R (c.on fun s => { s with world := (w.flush client s.world).2 }.note (.flushed client)).session.world
        (flush client world).2 := hflush client hworld
    obtain ⟨x, y, hxy, hl, hr⟩ := ih _ hnext
    refine ⟨x, y, hxy, ?_, ?_⟩
    · rw [List.foldl_cons, List.map_cons, List.reverse_cons]
      refine hl.trans ?_
      simp [Course.on, Session.note]
    · rw [List.foldl_cons, List.map_cons, List.reverse_cons]
      refine hr.trans ?_
      simp [Course.on, Session.note]

/-- After producers are flushed in two ways the batch is acknowledged alike, as long as the consumer group does not
answer to the difference. -/
theorem alike_flushed {R : σ → σ → Prop} (hrefl : ∀ x, R x x)
    (hflush : ∀ {x y} client, R x y → R (w.flush client x).2 (flush client y).2) (hgroup : w.GroupAlike w R)
    (d : Dispatcher) (c : Course σ) :
    ∃ s₁ s₁' : Session σ, s₁.journal = c.used.keys.reverse.map .flushed ++ c.session.journal ∧
      s₁'.journal = s₁.journal ∧
      Agree (Session.Alike R s₁ s₁') (conclude w d (flushUsed w c))
        (conclude (w.withFlush flush) d (flushUsed (w.withFlush flush) c)) := by
  obtain ⟨x, y, hxy, hl, hr⟩ := foldl_flush hflush c.used.keys c (hrefl c.session.world)
  have hgroup' : w.GroupAlike (w.withFlush flush) R := ⟨hgroup.commit, hgroup.seek⟩
  have hflushed : Course.Alike R (flushUsed w c).session (flushUsed (w.withFlush flush) c).session (flushUsed w c)
      (flushUsed (w.withFlush flush) c) := by
    rw [show flushUsed w c = _ from hl, show flushUsed (w.withFlush flush) c = _ from hr]
    exact ⟨.refl hxy rfl rfl, rfl, rfl, rfl⟩
  refine ⟨_, _, ?_, ?_, alike_conclude hgroup' rfl hflushed⟩
  · rw [show flushUsed w c = _ from hl]
    simp [Course.on]
  · rw [show flushUsed w c = _ from hl, show flushUsed (w.withFlush flush) c = _ from hr]
    rfl

end Dispatcher

/-! ## Client ids -/

/-- No two producers of a publisher have one client id. -/
theorem Publisher.nodup_clientIds (p : Publisher) {tenants : List String} (h : tenants.Nodup) :
    (tenants.flatMap p.clientIds).Nodup := by
  rw [List.nodup_flatMap]
  refine ⟨fun tenant _ => ?_, h.imp fun hne client hclient hclient' => ?_⟩
  · exact List.nodup_range.map fun i i' heq => (p.clientId_inj heq).2
  · obtain ⟨i, hi⟩ := mem_clientIds hclient
    obtain ⟨i', hi'⟩ := mem_clientIds hclient'
    exact hne (p.clientId_inj (hi.symm.trans hi')).1

theorem Session.Pooled.nodup_clients {p : Publisher} (h : s.Pooled p) :
    (s.pools.values.flatMap (·.clients)).Nodup := by
  have hvalues : s.pools.values.flatMap (·.clients) = (s.pools.entries.map (·.1)).flatMap p.clientIds := by
    rw [SortedMap.values, List.flatMap_map, List.flatMap_map]
    refine List.flatMap_congr fun e he => ?_
    rw [h e.1 e.2 (s.pools.get?_eq_some_iff.2 he)]
  rw [hvalues]
  exact p.nodup_clientIds s.pools.nodup_keys

/-- A batch that is republished and acknowledged, in whatever order its work completed, came to its end in three parts.
First messages were handed over, on first attempts and later ones. Then each producer that accepted one of them, of
whatever tenant, was flushed once, and no other. Last came the calls to the consumer group. Had the flushes ended
otherwise, the batch would have been acknowledged in the same way, as long as the consumer group does not answer to the
difference. Producers are told apart by client ids, which are distinct over all pools of a publisher. -/
theorem flushed_before_committed {batch : Batch} {s' : Session σ} {summary : Summary} {ledger : Ledger}
    (hd : d.checkpoint = true) (h : d.dispatch w registry batch s = (.done summary ledger, s')) :
    (∃ (acknowledgement : List Event) (clients : List String) (earlier : List Event),
      s.written s' = acknowledgement ++ (clients.map .flushed ++ earlier) ∧ clients.Nodup ∧
        (∀ client, client ∈ clients ↔ ∃ x, x.client = client ∧ .sent x (.ok ()) ∈ earlier) ∧
        (∀ e ∈ acknowledgement, e.isShipping = false) ∧
        ∀ e ∈ earlier, (∀ client, e ≠ .flushed client) ∧ e.isGroup = false) ∧
      (∀ (flush : String → σ → Flush × σ) (R : σ → σ → Prop), (∀ x, R x x) →
        (∀ {x y} client, R x y → R (w.flush client x).2 (flush client y).2) → w.GroupAlike w R →
        let again := d.dispatch (w.withFlush flush) registry batch s
        again.1 = .done summary ledger ∧ s.written again.2 = s.written s' ∧ again.2.tracker = s'.tracker) ∧
      (∀ (p : Publisher) (tenants : List String), tenants.Nodup → (tenants.flatMap p.clientIds).Nodup) ∧
      (s.Pooled d.publisher → (s'.pools.values.flatMap (·.clients)).Nodup) := by
  obtain ⟨c, ⟨earlier, hjournal, hclosing, hused⟩, hdispatch⟩ := Dispatcher.published_of_done hd h
  have hself : d.dispatch w registry batch s = _ := hdispatch w.flush
  have hend : Dispatcher.conclude w d (Dispatcher.flushUsed w c) = (.done summary ledger, s') := hself.symm.trans h
  -- what is written down, whichever way the producers are flushed
  have hboth : ∀ (flush : String → σ → Flush × σ) (R : σ → σ → Prop), (∀ x, R x x) →
      (∀ {x y} client, R x y → R (w.flush client x).2 (flush client y).2) → w.GroupAlike w R →
      let again := d.dispatch (w.withFlush flush) registry batch s
      again.1 = .done summary ledger ∧ again.2.tracker = s'.tracker ∧
        ∃ acknowledgement, (∀ e ∈ acknowledgement, e.isShipping = false) ∧
          s.written s' = acknowledgement ++ (c.used.keys.reverse.map .flushed ++ earlier) ∧
          s.written again.2 = acknowledgement ++ (c.used.keys.reverse.map .flushed ++ earlier) := by
    intro flush R hrefl hflush hgroup again
    obtain ⟨s₁, s₁', hj, hj', hresult, halike⟩ := Dispatcher.alike_flushed hrefl hflush hgroup d c
    rw [hend, ← hdispatch flush] at hresult halike
    obtain ⟨acknowledgement, ht, ht', hshipping⟩ := halike.told
    refine ⟨hresult.symm, halike.tracker.symm, acknowledgement, hshipping, ?_, ?_⟩
    · refine Session.written_eq ?_
      rw [ht, hj, hjournal, List.append_assoc, List.append_assoc]
    · refine Session.written_eq ?_
      rw [ht', hj', hj, hjournal, List.append_assoc, List.append_assoc]
  refine ⟨?_, fun flush R hrefl hflush hgroup => ?_, fun p tenants hnodup => p.nodup_clientIds hnodup,
    fun hpooled => ?_⟩
  · obtain ⟨-, -, acknowledgement, hshipping, hwritten, -⟩ :=
      hboth w.flush Eq (fun _ => rfl) (by rintro x _ client rfl; rfl) (.refl w)
    refine ⟨acknowledgement, c.used.keys.reverse, earlier, hwritten, ?_, fun client => ?_, hshipping, fun e he => ?_⟩
    · exact List.nodup_reverse.2 c.used.nodup_keys
    · rw [List.mem_reverse, hused, List.mem_filterMap]
      simp only [Event.taker?_eq_some]
      exact ⟨fun ⟨_, hm, x, hx, he⟩ => ⟨x, hx, he ▸ hm⟩, fun ⟨x, hx, hm⟩ => ⟨_, hm, x, hx, rfl⟩⟩
    · exact Event.of_not_isClosing (hclosing e he)
  · obtain ⟨hresult, htracker, acknowledgement, -, hwritten, hwritten'⟩ := hboth flush R hrefl hflush hgroup
    exact ⟨hresult, hwritten'.trans hwritten.symm, htracker⟩
  · have hlater := (d.moves_dispatch w registry batch s).pooled hpooled
    rw [h] at hlater
    exact hlater.nodup_clients

end Dispatch

namespace Flushed

/-- Surroundings that take one producer after the other, where the first delivery of the first record fails and every
flush panics. -/
def world : World Nat where
  clock n := (0, n)
  refresh _ n := n
  submit _ n := (true, n)
  finish _ n := (.ok ⟨true, ⟨.null, false⟩⟩, n)
  cancelAll n := n
  shutdown n := n
  next _ n := (some 0, n)
  create _ _ n := (.ok (), n)
  spread n := (n, n + 1)
  send _ n := (.ok (), n)
  deliver x n := (if x.slot = 0 ∧ x.times = 0 then .error (.produce "") else .ok (), n)
  flush _ n := (.panicked, n)
  commit _ n := (.ok (), n)
  seek _ n := (.ok (), n)

/-- Two tenants. -/
def registry : Registry :=
  ⟨.ofList [("", ⟨[⟨"s", ⟨false, .keyPrefix "a", [⟨"t", none, []⟩]⟩, .standard⟩,
    ⟨"r", ⟨false, .all, [⟨"u", none, []⟩]⟩, .standard⟩], .ofList [("t", ⟨""⟩), ("u", ⟨""⟩)]⟩)]⟩

/-- A strict pipeline with three producers for each tenant. -/
def dispatcher : Dispatcher := ⟨true, .strict, .standard, default, ⟨"", "", 3, default⟩⟩

/-- A record for each tenant. -/
def batch : Batch := ⟨[⟨⟨⟨"", 0⟩, 0⟩, some [97], [], .null⟩, ⟨⟨⟨"", 0⟩, 1⟩, some [1], [], .null⟩], []⟩

/-- The producers of the two first attempts and that of the second attempt are flushed, and those that took no message
are not; the batch is committed in spite of the panics, as it is without them. -/
theorem committed_after_panic :
    let s' := (dispatcher.dispatch world registry batch (.start 0)).2
    let again := dispatcher.dispatch (world.withFlush fun _ n => (.done, n)) registry batch (.start 0)
    (dispatcher.dispatch world registry batch (.start 0)).1 =
        .done ⟨2, 0, 0, 0, 2, 0, .ofList [(⟨"", 0⟩, 2)], .empty⟩
          ⟨.ofList [(⟨"", 0⟩, .ofList [(0, .settled), (1, .settled)])]⟩ ∧
      again.1 = (dispatcher.dispatch world registry batch (.start 0)).1 ∧
      ((Session.start 0).written s').filterMap (fun | .flushed client => some client | _ => none) =
        ["checkpoint--u-1", "checkpoint--t-2", "checkpoint--t-0"] ∧
      ∃ (acknowledgement : List Event) (clients : List String) (earlier : List Event),
        (Session.start 0).written s' = acknowledgement ++ (clients.map .flushed ++ earlier) ∧ clients.Nodup ∧
          ∀ client, client ∈ clients ↔ ∃ x, x.client = client ∧ .sent x (.ok ()) ∈ earlier := by
  intro s' again
  have hdone : dispatcher.dispatch world registry batch (.start 0) =
      (.done ⟨2, 0, 0, 0, 2, 0, .ofList [(⟨"", 0⟩, 2)], .empty⟩
        ⟨.ofList [(⟨"", 0⟩, .ofList [(0, .settled), (1, .settled)])]⟩, s') := Prod.ext (by cbv) rfl
  obtain ⟨⟨acknowledgement, clients, earlier, hwritten, hnodup, hclients, -⟩, hagain, -⟩ :=
    flushed_before_committed rfl hdone
  obtain ⟨hsame, -⟩ := hagain (fun _ n => (.done, n)) Eq (fun _ => rfl) (by rintro x _ client rfl; rfl) (.refl world)
  have hflushed : ((Session.start 0).written (dispatcher.dispatch world registry batch (.start 0)).2).filterMap
      (fun | .flushed client => some client | _ => none) =
        ["checkpoint--u-1", "checkpoint--t-2", "checkpoint--t-0"] := by cbv
  rw [hdone] at hflushed ⊢
  exact ⟨rfl, hsame, hflushed, acknowledgement, clients, earlier, hwritten, hnodup, hclients⟩

end Flushed

end Relay
