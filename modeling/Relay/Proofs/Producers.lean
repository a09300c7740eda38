import Relay.Proofs.Moves
import Relay.Proofs.Numerals
import Relay.Proofs.SourceOrder

/-!
# One producer for each tenant and key

All messages of sequential subscribers with one tenant and one key go to one producer, as long as a publisher lives:
in one batch or in several, for one subscriber or for several, at the first attempt or at a later one. As first
attempts are made in source order, the messages with one key of one partition reach their producer in the order of
the source, whatever the order in which their chains ended.
-/

namespace Relay

/-! ## Client ids -/

theorem eq_of_append_cons_eq {α : Type} {a : α} {l l' m m' : List α} (h : l ++ a :: m = l' ++ a :: m')
    (hm : a ∉ m) (hm' : a ∉ m') : l = l' ∧ m = m' := by
  rcases List.append_eq_append_iff.1 h with ⟨between, rfl, hrest⟩ | ⟨between, rfl, hrest⟩
  · cases between with
    | nil => simpa using hrest
    | cons b between =>
      obtain ⟨rfl, rfl⟩ := List.cons.inj hrest
      simp at hm
  · cases between with
    | nil => simpa [eq_comm] using hrest
    | cons b between =>
      obtain ⟨rfl, rfl⟩ := List.cons.inj hrest
      simp at hm'

/-- A client id tells the tenant and the number of its producer. -/
theorem Publisher.clientId_inj (p : Publisher) {tenant tenant' : String} {i i' : Nat}
    (h : p.clientId tenant i = p.clientId tenant' i') : tenant = tenant' ∧ i = i' := by
  have hlist := congrArg String.toList h
  simp only [clientId, String.toList_append, List.append_assoc, List.append_cancel_left_eq] at hlist
  have hsplit : ∀ t : List Char, "-".toList ++ t = '-' :: t := fun _ => rfl
  rw [hsplit, hsplit] at hlist
  obtain ⟨htenant, hnumber⟩ := eq_of_append_cons_eq hlist (minus_notMem_toString i) (minus_notMem_toString i')
  exact ⟨String.toList_inj.1 htenant, toString_nat_inj (String.toList_inj.1 hnumber)⟩

/-! ## Pools -/

variable {σ : Type} {w : World σ} {p : Publisher} {fits : Nat → Routed → Prop} {s s' : Session σ}

/-- Every pool has the producers of its tenant. -/
def Session.Pooled (p : Publisher) (s : Session σ) : Prop :=
  ∀ tenant pool, s.pools.get? tenant = some pool → pool = ⟨tenant, p.clientIds tenant⟩

theorem Session.Moves.pooled (h : s.Moves w p fits s') (hs : s.Pooled p) : s'.Pooled p := by
  induction h with
  | start => exact hs
  | asks _ _ ih => exact ih
  | ticks _ _ ih => exact ih
  | notes _ _ ih => exact ih
  | marks _ _ ih => exact ih
  | pools _ tenant ih =>
    intro tenant' pool hpool
    rw [SortedMap.get?_insert] at hpool
    split at hpool
    · next heq =>
      obtain rfl := Std.LawfulEqCmp.eq_of_compare heq
      exact (Option.some.inj hpool).symm
    · exact ih tenant' pool hpool
  | ends _ _ _ ih => exact ih
  | hands _ _ _ _ _ _ ih => exact ih

/-- The pool of a tenant selects the producer of the key for a sequential subscriber. -/
theorem ProducerPool.select_sequential {tenant client : String} {subscriber : Subscriber} {key : Bytes} {spread : Nat}
    (hs : subscriber.isSequential = true)
    (h : ProducerPool.select ⟨tenant, p.clientIds tenant⟩ subscriber key spread = .ok client) :
    client = p.clientId tenant ((crc32 key).toNat % p.poolSize) := by
  simp only [select, hs, if_true, Publisher.clientIds, List.length_map, List.length_range] at h
  split at h
  · next i heq =>
    obtain ⟨hlt, hclient⟩ := List.getElem?_eq_some_iff.1 heq
    rw [List.getElem_map, List.getElem_range] at hclient
    exact (Except.ok.inj h).symm.trans hclient.symm
  · simp at h

/-- A client id is that of the producer which a record has to go to, if its subscriber is sequential. -/
def Publisher.Picks (p : Publisher) (r : Routed) (client : String) : Prop :=
  r.subscriber.isSequential = true →
    ∃ tenant, r.subscriber.tenant = .ok tenant ∧
      client = p.clientId tenant ((crc32 r.record.keyBytes).toNat % p.poolSize)

theorem Session.Moves.picks (h : s.Moves w p fits s') (hs : s.Pooled p) :
    ∃ added, s'.journal = added ++ s.journal ∧
      ∀ x result, .sent x result ∈ added → ∃ r, fits x.slot r ∧ p.Picks r x.client := by
  have haside : ∀ e : Event, e.isOutcome = false →
      ∀ x result, e = .sent x result → ∃ r, fits x.slot r ∧ p.Picks r x.client := by
    rintro e haside x result rfl
    simp [Event.isOutcome] at haside
  obtain ⟨added, hj, hadded⟩ := h.writes haside (by simp) fun result hmoves fit known kept selected => by
    intro x' result' heq
    obtain ⟨rfl, -⟩ := Event.sent.inj heq
    obtain rfl := hmoves.pooled hs _ _ kept
    exact ⟨_, fit, fun hsequential => ⟨_, known, ProducerPool.select_sequential hsequential selected⟩⟩
  exact ⟨added, hj, fun x result he => hadded _ he x result rfl⟩

/-! ## The life of a publisher -/

/-- The records whose messages were handed over between two sessions, the latest first, each with the client id of
its producer. -/
def Session.handed (matched : List Routed) (s s' : Session σ) : List (Routed × String) :=
  (s.written s').filterMap fun
    | .sent x _ => (matched[x.slot]?).map fun r => (r, x.client)
    | _ => none

/-- A session that a publisher has come to, with the records it handed over on the way: it dispatches batches in any
surroundings and closes its pools, and nothing else touches them. -/
inductive Publisher.Life (p : Publisher) : Session σ → List (Routed × String) → Prop where
  | start (world : σ) : Life p (.start world) []
  | aside {s s' : Session σ} {sends : List (Routed × String)} (h : Life p s sends) (pools : s'.pools = s.pools) :
      Life p s' sends
  | dispatch {s : Session σ} {sends : List (Routed × String)} (h : Life p s sends) (w : World σ) (d : Dispatcher)
      (registry : Registry) (batch : Batch) (own : d.publisher = p) :
      Life p (d.dispatch w registry batch s).2
        (s.handed (Matching.ofRecords (registry.subscribers d.pipeline) batch.records).matched
          (d.dispatch w registry batch s).2 ++ sends)
  | close {s : Session σ} {sends : List (Routed × String)} (h : Life p s sends) (w : World σ) :
      Life p (Dispatcher.close w s) sends

theorem Publisher.pools_flushAll (w : World σ) (clients : List String) (s : Session σ) :
    (flushAll w clients s).2.pools = s.pools := by
  induction clients generalizing s with
  | nil => rfl
  | cons client rest ih =>
    simp only [flushAll]
    split
    · rfl
    · exact ih _

/-- Pools are closed all or none. -/
theorem Session.Pooled.close (hs : s.Pooled p) (w : World σ) : (Dispatcher.close w s).Pooled p := by
  have hpools := Publisher.pools_flushAll w (s.pools.values.flatMap (·.clients))
    { s with world := w.shutdown (w.cancelAll s.world) }
  simp only [Dispatcher.close, Publisher.close]
  split
  · next heq =>
    rw [heq] at hpools
    exact fun tenant pool hpool => hs tenant pool (hpools ▸ hpool)
  · intro tenant pool hpool
    simp at hpool

theorem Publisher.Life.pooled {sends : List (Routed × String)} (h : p.Life s sends) : s.Pooled p := by
  induction h with
  | start world =>
    intro tenant pool hpool
    simp [Session.start] at hpool
  | aside _ hpools ih => exact fun tenant pool hpool => ih tenant pool (hpools ▸ hpool)
  | dispatch _ w d registry batch own ih =>
    subst own
    exact (d.moves_dispatch w registry batch _).pooled ih
  | close _ w ih => exact ih.close w

/-! ## Order at a producer -/

/-- Every message that a dispatch hands over is one of a matched record, and its producer is the one that the record
has to go to. -/
theorem picks_dispatch (w : World σ) (d : Dispatcher) (registry : Registry) (batch : Batch)
    (hs : s.Pooled d.publisher) {x : Shipment} {result : Except PublishError Unit}
    (he : .sent x result ∈ s.written (d.dispatch w registry batch s).2) :
    ∃ r, (Matching.ofRecords (registry.subscribers d.pipeline) batch.records).matched[x.slot]? = some r ∧
      d.publisher.Picks r x.client := by
  obtain ⟨added, hj, hpicks⟩ := (d.moves_dispatch w registry batch s).picks hs
  have hwritten : s.written (d.dispatch w registry batch s).2 = added := Session.written_eq hj
  rw [hwritten] at he
  exact hpicks x result he

theorem Publisher.Life.picks {sends : List (Routed × String)} (h : p.Life s sends) :
    ∀ x ∈ sends, p.Picks x.1 x.2 := by
  induction h with
  | start => simp
  | aside _ _ ih => exact ih
  | close _ _ ih => exact ih
  | dispatch h w d registry batch own ih =>
    subst own
    refine List.forall_mem_append.2 ⟨fun x hx => ?_, ih⟩
    obtain ⟨e, he, hx⟩ := List.mem_filterMap.1 hx
    split at hx
    · obtain ⟨r, hr, rfl⟩ := Option.map_eq_some_iff.1 hx
      obtain ⟨r', hr', hpicks⟩ := picks_dispatch w d registry batch h.pooled he
      rw [hr] at hr'
      rwa [Option.some.inj hr']
    · simp at hx

/-- Of two records that were first handed over, the later one does not come first in the source. -/
theorem HandedOver.le_of_written {matched : List Routed} {order : List Nat} (h : HandedOver matched s s' order)
    {newer between older : List Event} {e e' : Event} {i j : Nat} {a b : Routed}
    (hw : s.written s' = newer ++ e' :: (between ++ e :: older)) (hi : e.opening? = some i)
    (hj : e'.opening? = some j) (ha : matched[i]? = some a) (hb : matched[j]? = some b) :
    a.coordinates.le b.coordinates = true := by
  have hsorted : InSourceOrder matched (s.openings s') := h.sorted.sublist h.opened.sublist
  have hopenings : s.openings s' = (older.filterMap Event.opening?).reverse ++
      (i :: ((between.filterMap Event.opening?).reverse ++
        (j :: (newer.filterMap Event.opening?).reverse))) := by
    simp [Session.openings, hw, List.filterMap_append, List.filterMap_cons_some hi, List.filterMap_cons_some hj]
  unfold InSourceOrder at hsorted
  rw [hopenings, List.pairwise_append, List.pairwise_cons] at hsorted
  obtain ⟨-, ⟨hfirst, -⟩, -⟩ := hsorted
  exact hfirst j (by simp) a b ha hb

/-- Within a partition the order of the source is that of offsets. -/
theorem Coordinates.offset_le {a b : Coordinates} (h : a.le b = true) (hp : a.partition = b.partition) :
    a.offset ≤ b.offset := by
  have hcompare : compare a b = (compare a.partition b.partition).then (compare a.offset b.offset) := rfl
  have hrefl : compare b.partition b.partition = .eq := Std.ReflCmp.compare_self
  rw [Coordinates.le, hcompare, hp, hrefl] at h
  exact Std.isLE_compare.1 h

/-- As long as a publisher lives, it hands the messages of sequential subscribers with one tenant and one key to one
producer, whose number is the checksum of the key modulo the size of the pools. In every batch the records that passed
their chains are first handed over in source order; so those of one partition with one tenant and one key come to
their producer in the order of their offsets. -/
theorem one_producer_in_source_order {sends : List (Routed × String)} (hlife : p.Life s sends) (w : World σ)
    (d : Dispatcher) (registry : Registry) (batch : Batch) (hd : d.publisher = p) :
    let matched := (Matching.ofRecords (registry.subscribers d.pipeline) batch.records).matched
    let s' := (d.dispatch w registry batch s).2
    (∃ order, HandedOver matched s s' order ∧ (∀ i ∈ order, i < matched.length) ∧
      ∀ summary ledger, (d.dispatch w registry batch s).1 = .done summary ledger → d.checkpoint = true →
        s.openings s' = order) ∧
      (∀ x result, .sent x result ∈ s.written s' →
        ∃ r, matched[x.slot]? = some r ∧ (r, x.client) ∈ s.handed matched s') ∧
      (∀ r client, (r, client) ∈ s.handed matched s' ++ sends → r.subscriber.isSequential = true →
        ∃ tenant, r.subscriber.tenant = .ok tenant ∧
          client = p.clientId tenant ((crc32 r.record.keyBytes).toNat % p.poolSize)) ∧
      (∀ tenant tenant' i i', p.clientId tenant i = p.clientId tenant' i' → tenant = tenant' ∧ i = i') ∧
      ∀ (newer between older : List Event) (x y : Shipment) (result result' : Except PublishError Unit),
        s.written s' = newer ++ Event.sent y result' :: (between ++ Event.sent x result :: older) →
        x.times = 0 → y.times = 0 → ∀ a b, matched[x.slot]? = some a → matched[y.slot]? = some b →
        a.subscriber.isSequential = true → b.subscriber.isSequential = true →
        a.subscriber.tenant = b.subscriber.tenant → a.record.keyBytes = b.record.keyBytes →
        a.partition = b.partition → x.client = y.client ∧ a.offset ≤ b.offset := by
  intro matched s'
  subst hd
  have hpicks : ∀ {x result}, .sent x result ∈ s.written s' →
      ∃ r, matched[x.slot]? = some r ∧ d.publisher.Picks r x.client :=
    fun he => picks_dispatch w d registry batch hlife.pooled he
  obtain ⟨order, hhanded, hcomplete⟩ := dispatch_handedOver w d registry batch s
  refine ⟨⟨order, hhanded, fun i hi => ?_, hcomplete⟩, fun x result he => ?_, fun r client hm => ?_,
    fun _ _ _ _ h => d.publisher.clientId_inj h, ?_⟩
  · exact matched_of_passed w d registry batch s (hhanded.passed.mem_iff.1 hi)
  · obtain ⟨r, hr, -⟩ := hpicks he
    refine ⟨r, hr, List.mem_filterMap.2 ⟨_, he, ?_⟩⟩
    simp [hr]
  · have hlater : d.publisher.Life s' (s.handed matched s' ++ sends) := hlife.dispatch w d registry batch rfl
    exact hlater.picks _ hm
  · intro newer between older x y result result' hw hx hy a b ha hb hseq hseq' htenant hkey hpartition
    have hexists : ∀ z result r, Event.sent z result ∈ s.written s' → matched[z.slot]? = some r →
        d.publisher.Picks r z.client := by
      intro z result r he hr
      obtain ⟨r', hr', hpick⟩ := hpicks he
      rw [hr] at hr'
      rwa [Option.some.inj hr']
    obtain ⟨tenant, hta, hclient⟩ := hexists x result a (by rw [hw]; simp) ha hseq
    obtain ⟨tenant', htb, hclient'⟩ := hexists y result' b (by rw [hw]; simp) hb hseq'
    have hsame : tenant = tenant' := Except.ok.inj (hta.symm.trans (htenant.trans htb))
    refine ⟨by rw [hclient, hclient', hsame, hkey], ?_⟩
    have hle := hhanded.le_of_written hw (by simp [Event.opening?, hx]) (by simp [Event.opening?, hy]) ha hb
    exact Coordinates.offset_le hle hpartition

namespace Orders

/-- One sequential subscriber, which takes every record of its tenant. -/
def sequential : Registry :=
  ⟨.ofList [("", ⟨[⟨"", ⟨true, .all, [⟨"", none, []⟩]⟩, .standard⟩], .ofList [("", ⟨""⟩)]⟩)]⟩

/-- Three producers for each tenant. -/
def sequencer : Dispatcher := ⟨true, .strict, .standard, default, ⟨"", "", 3, default⟩⟩

/-- Two records of one partition with one key. -/
def twins : Batch := ⟨[⟨⟨⟨"", 0⟩, 0⟩, some [0], [], .null⟩, ⟨⟨⟨"", 0⟩, 1⟩, some [0], [], .null⟩], []⟩

/-- The session after the records were dispatched once. -/
def again : Session Unit := (sequencer.dispatch oldest sequential twins (.start ())).2

/-- The first record is canceled once, so the second one passes first; they are handed over in source order all the
same, and in both of two dispatches to one producer. -/
theorem sequenced :
    let s' := (sequencer.dispatch oldest sequential twins again).2
    let matched := (Matching.ofRecords (sequential.subscribers "") twins.records).matched
    again.passed s' = [1, 0] ∧ again.openings s' = [0, 1] ∧
      (again.handed matched s').map (·.2) = ["checkpoint---1", "checkpoint---1"] ∧
      ∃ sends, sequencer.publisher.Life again sends ∧ ∀ r client, (r, client) ∈ again.handed matched s' ++ sends →
        r.subscriber.isSequential = true → ∃ tenant, r.subscriber.tenant = .ok tenant ∧
          client = sequencer.publisher.clientId tenant ((crc32 r.record.keyBytes).toNat % 3) := by
  have hlife : sequencer.publisher.Life again _ :=
    (Publisher.Life.start ()).dispatch oldest sequencer sequential twins rfl
  obtain ⟨-, -, hproducer, -⟩ := one_producer_in_source_order hlife oldest sequencer sequential twins rfl
  exact ⟨by cbv, by cbv, by cbv, _, hlife, hproducer⟩

end Orders

end Relay
