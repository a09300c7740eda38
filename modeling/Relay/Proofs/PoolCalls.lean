import Relay.Proofs.Connections

/-!
# Calls of a publisher

A publisher is called to obtain pools, to select producers, to hand over messages and to close its pools. Each of the
first three calls obtains a pool, in one of five ways (`Publisher.Obtained`): it is there, or it is built, or there is
none and the pools stay as they are. What the journal tells of a call is told by the way in which it obtained its pool
(`Publisher.answer_spec`).
-/

namespace Relay

namespace Publisher

/-- A call of a publisher. -/
inductive Call where
  | obtain (subscriber : Subscriber)
  | select (subscriber : Subscriber) (key : Bytes)
  | send (slot : Nat) (times : UInt32) (r : Routed) (value : Json.Value)
  | close

/-- What a call comes back with. -/
inductive Reply where
  | pool (result : Except PublishError ProducerPool)
  | producer (result : Except PublishError String)
  | shipment (result : Except PublishError Shipment)
  | closed

/-- The subscriber for which a call needs a pool. -/
def Call.subscriber? : Call → Option Subscriber
  | .obtain subscriber => some subscriber
  | .select subscriber _ => some subscriber
  | .send _ _ r _ => some r.subscriber
  | .close => none

/-- The error that a call comes back with. -/
def Reply.error? : Reply → Option PublishError
  | .pool (.error e) => some e
  | .producer (.error e) => some e
  | .shipment (.error e) => some e
  | _ => none

variable {σ : Type}

/-- What a call comes back with, and the session after it. -/
def answer (w : World σ) (p : Publisher) (registry : Registry) : Call → Session σ → Reply × Session σ
  | .obtain subscriber, s => (obtain w p registry subscriber s).map .pool id
  | .select subscriber key, s => (select w p registry subscriber key s).map .producer id
  | .send slot times r value, s => (send w p registry slot times r value s).map .shipment id
  | .close, s => (.closed, close w s)

/-- A call uses a pool: it gives it back, selects one of its producers, or hands its message to one of them. -/
def Call.Uses (w : World σ) (p : Publisher) (pool : ProducerPool) (c : Call) (reply : Reply) (told : List Event) :
    Prop :=
  match c with
  | .obtain _ => reply = .pool (.ok pool) ∧ told = []
  | .select _ _ => (∃ client ∈ pool.clients, reply = .producer (.ok client)) ∧ told = []
  | .send slot times r value => ∃ client ∈ pool.clients, ∃ world,
      let shipment : Shipment := ⟨slot, times, client, r.message p.lead p.pipeline value⟩
      let result := (w.send shipment world).1
      reply = .shipment (result.map fun () => shipment) ∧ told = [.sent shipment result]
  | .close => False

/-- A call fails as there is no pool. -/
def Call.Fails (e : PublishError) (c : Call) (reply : Reply) (told : List Event) : Prop :=
  match c with
  | .obtain _ => reply = .pool (.error e) ∧ told = []
  | .select _ _ => reply = .producer (.error e) ∧ told = []
  | .send slot times _ _ => reply = .shipment (.error e) ∧ told = [.unsent slot times e]
  | .close => False

/-! ## Obtaining a pool -/

/-- The ways in which a pool is obtained, with what is asked for on the way. -/
inductive Obtained (w : World σ) (p : Publisher) (registry : Registry) (subscriber : Subscriber) (s s' : Session σ) :
    Except PublishError ProducerPool → List Event → Prop where
  | untenanted (htenant : subscriber.tenant = .error (.missingTenant subscriber.id)) (hpools : s'.pools = s.pools) :
      Obtained w p registry subscriber s s' (.error (.config (.missingTenant subscriber.id))) []
  | there {tenant : String} {pool : ProducerPool} (htenant : subscriber.tenant = .ok tenant)
      (hcached : s.pools.get? tenant = some pool) (hpools : s'.pools = s.pools) :
      Obtained w p registry subscriber s s' (.ok pool) []
  | nowhere {tenant : String} (htenant : subscriber.tenant = .ok tenant) (huncached : s.pools.get? tenant = none)
      (hsource : registry.source? p.pipeline tenant = none) (hpools : s'.pools = s.pools) :
      Obtained w p registry subscriber s s' (.error (.config (.missingTenantSource p.pipeline tenant))) []
  | broken {tenant : String} {source : Source} {k : Nat} {e : PublishError} (htenant : subscriber.tenant = .ok tenant)
      (huncached : s.pools.get? tenant = none) (hsource : registry.source? p.pipeline tenant = some source)
      (hk : k < p.poolSize) (hrefused : ∃ world, (w.create source (p.clientId tenant k) world).1 = .error e)
      (hpools : s'.pools = s.pools) :
      Obtained w p registry subscriber s s' (.error e)
        (.created source.servers (p.clientId tenant k) false ::
          connected source.servers ((List.range k).map (p.clientId tenant)))
  | built {tenant : String} {source : Source} (htenant : subscriber.tenant = .ok tenant)
      (huncached : s.pools.get? tenant = none) (hsource : registry.source? p.pipeline tenant = some source)
      (hpools : s'.pools = s.pools.insert tenant ⟨tenant, p.clientIds tenant⟩) :
      Obtained w p registry subscriber s s' (.ok ⟨tenant, p.clientIds tenant⟩)
        (.counted ⟨"producer_pools_created_total", []⟩ 1 :: connected source.servers (p.clientIds tenant))

variable {w : World σ} {p : Publisher} {registry : Registry} {subscriber : Subscriber} {tenant : String}
  {pool : ProducerPool} {c : Call} {s s' s'' : Session σ} {result : Except PublishError ProducerPool}
  {asked told : List Event}

/-- Only the pools afterwards matter. -/
theorem Obtained.congr (h : Obtained w p registry subscriber s s' result asked) (hpools : s''.pools = s'.pools) :
    Obtained w p registry subscriber s s'' result asked := by
  cases h with
  | untenanted htenant hsame => exact .untenanted htenant (hpools.trans hsame)
  | there htenant hcached hsame => exact .there htenant hcached (hpools.trans hsame)
  | nowhere htenant huncached hsource hsame => exact .nowhere htenant huncached hsource (hpools.trans hsame)
  | broken htenant huncached hsource hk hrefused hsame =>
    exact .broken htenant huncached hsource hk hrefused (hpools.trans hsame)
  | built htenant huncached hsource hkept => exact .built htenant huncached hsource (hpools.trans hkept)

/-- What comes before the client id of a producer are those of the producers with smaller numbers. -/
theorem clientIds_split {client : String} {before after : List String}
    (h : p.clientIds tenant = before ++ client :: after) :
    ∃ k < p.poolSize, client = p.clientId tenant k ∧ before = (List.range k).map (p.clientId tenant) := by
  have hlength := congrArg List.length h
  rw [clientIds, List.length_map, List.length_range, List.length_append, List.length_cons] at hlength
  have hlt : before.length < p.poolSize := by omega
  refine ⟨before.length, hlt, ?_, ?_⟩
  · have hget : (p.clientIds tenant)[before.length]? = some client := by
      rw [h, List.getElem?_append_right (Nat.le_refl _), Nat.sub_self]
      rfl
    rw [clientIds, List.getElem?_map, List.getElem?_range hlt] at hget
    exact (Option.some.inj hget).symm
  · have htake := congrArg (List.take before.length) h
    rw [clientIds, ← List.map_take, List.take_range, Nat.min_eq_left (Nat.le_of_lt hlt),
      List.take_left] at htake
    exact htake.symm

theorem tenant_error {e : ConfigError} (h : subscriber.tenant = .error e) : e = .missingTenant subscriber.id := by
  unfold Subscriber.tenant at h
  split at h
  · exact (Except.error.inj h).symm
  · simp at h

theorem obtain_spec (h : obtain w p registry subscriber s = (result, s')) :
    ∃ asked, s'.journal = asked ++ s.journal ∧ Obtained w p registry subscriber s s' result asked := by
  unfold obtain at h
  split at h
  · next e htenant =>
    obtain ⟨rfl, rfl⟩ := Prod.mk.inj h
    obtain rfl := tenant_error htenant
    exact ⟨[], rfl, .untenanted htenant rfl⟩
  · next tenant htenant =>
    split at h
    · next pool hcached =>
      obtain ⟨rfl, rfl⟩ := Prod.mk.inj h
      exact ⟨[], rfl, .there htenant hcached rfl⟩
    · next huncached =>
      cases result with
      | error e =>
        obtain ⟨hpools, ⟨hsource, rfl, rfl⟩ | ⟨source, before, client, after, hsource, hids, hrefused, hjournal⟩⟩ :=
          build_error h
        · exact ⟨[], rfl, .nowhere htenant huncached hsource rfl⟩
        · obtain ⟨k, hk, rfl, rfl⟩ := clientIds_split hids
          exact ⟨_, hjournal, .broken htenant huncached hsource hk hrefused hpools⟩
      | ok pool =>
        obtain ⟨source, hsource, rfl, hpools, hjournal⟩ := build_ok h
        exact ⟨_, hjournal, .built htenant huncached hsource hpools⟩

namespace Obtained

/-- A pool that is obtained is that of a tenant. -/
theorem pooled (h : Obtained w p registry subscriber s s' (.ok pool) asked) (hs : s.Pooled p) :
    ∃ tenant, pool = ⟨tenant, p.clientIds tenant⟩ := by
  cases h with
  | there _ hcached _ => exact ⟨_, hs _ _ hcached⟩
  | built => exact ⟨_, rfl⟩

/-- No pool is lost or replaced. -/
theorem keeps (h : Obtained w p registry subscriber s s' result asked) (hcached : s.pools.get? tenant = some pool) :
    s'.pools.get? tenant = some pool := by
  cases h with
  | untenanted _ hpools => rwa [hpools]
  | there _ _ hpools => rwa [hpools]
  | nowhere _ _ _ hpools => rwa [hpools]
  | broken _ _ _ _ _ hpools => rwa [hpools]
  | built _ huncached _ hpools =>
    rw [hpools, SortedMap.get?_insert, if_neg, hcached]
    intro heq
    rw [Std.LawfulEqCmp.eq_of_compare heq, huncached] at hcached
    simp at hcached

theorem of_untenanted (h : Obtained w p registry subscriber s s' result asked)
    (htenant : ∀ tenant, subscriber.tenant ≠ .ok tenant) :
    result = .error (.config (.missingTenant subscriber.id)) ∧ asked = [] ∧ s'.pools = s.pools := by
  cases h with
  | untenanted _ hpools => exact ⟨rfl, rfl, hpools⟩
  | there hsome => exact absurd hsome (htenant _)
  | nowhere hsome => exact absurd hsome (htenant _)
  | broken hsome => exact absurd hsome (htenant _)
  | built hsome => exact absurd hsome (htenant _)

theorem of_cached (h : Obtained w p registry subscriber s s' result asked) (htenant : subscriber.tenant = .ok tenant)
    (hcached : s.pools.get? tenant = some pool) : result = .ok pool ∧ asked = [] ∧ s'.pools = s.pools := by
  cases h with
  | untenanted hnone => simp [htenant] at hnone
  | there hsame hcached' hpools =>
    obtain rfl := Except.ok.inj (htenant.symm.trans hsame)
    obtain rfl := Option.some.inj (hcached.symm.trans hcached')
    exact ⟨rfl, rfl, hpools⟩
  | nowhere hsame huncached =>
    obtain rfl := Except.ok.inj (htenant.symm.trans hsame)
    simp [hcached] at huncached
  | broken hsame huncached =>
    obtain rfl := Except.ok.inj (htenant.symm.trans hsame)
    simp [hcached] at huncached
  | built hsame huncached =>
    obtain rfl := Except.ok.inj (htenant.symm.trans hsame)
    simp [hcached] at huncached

theorem of_uncached (h : Obtained w p registry subscriber s s' result asked) (htenant : subscriber.tenant = .ok tenant)
    (huncached : s.pools.get? tenant = none) :
    registry.source? p.pipeline tenant = none ∧ asked = [] ∧ s'.pools = s.pools ∧
        result = .error (.config (.missingTenantSource p.pipeline tenant)) ∨
      ∃ source, registry.source? p.pipeline tenant = some source ∧
        ((∃ k < p.poolSize, ∃ e,
            asked = .created source.servers (p.clientId tenant k) false ::
              connected source.servers ((List.range k).map (p.clientId tenant)) ∧
            s'.pools = s.pools ∧ result = .error e) ∨
          asked = .counted ⟨"producer_pools_created_total", []⟩ 1 :: connected source.servers (p.clientIds tenant) ∧
            s'.pools = s.pools.insert tenant ⟨tenant, p.clientIds tenant⟩ ∧
            result = .ok ⟨tenant, p.clientIds tenant⟩) := by
  cases h with
  | untenanted hnone => simp [htenant] at hnone
  | there hsame hcached =>
    obtain rfl := Except.ok.inj (htenant.symm.trans hsame)
    simp [huncached] at hcached
  | nowhere hsame _ hsource hpools =>
    obtain rfl := Except.ok.inj (htenant.symm.trans hsame)
    exact .inl ⟨hsource, rfl, hpools, rfl⟩
  | broken hsame _ hsource hk _ hpools =>
    obtain rfl := Except.ok.inj (htenant.symm.trans hsame)
    exact .inr ⟨_, hsource, .inl ⟨_, hk, _, rfl, hpools, rfl⟩⟩
  | built hsame _ hsource hpools =>
    obtain rfl := Except.ok.inj (htenant.symm.trans hsame)
    exact .inr ⟨_, hsource, .inr ⟨rfl, hpools, rfl⟩⟩

/-- That a producer is missing is said by who should connect it. -/
theorem of_missingProducer
    (h : Obtained w p registry subscriber s s' (.error (.config (.missingProducer tenant))) asked) :
    ∃ source client world, (w.create source client world).1 = .error (.config (.missingProducer tenant)) := by
  cases h with
  | broken _ _ _ _ hrefused _ =>
    obtain ⟨world, hcreate⟩ := hrefused
    exact ⟨_, _, world, hcreate⟩

end Obtained

/-! ## Calls -/

/-- A producer is selected from the pool that is obtained. -/
theorem select_of_obtain (hp : p.check = .ok ()) (hs : s.Pooled p)
    (h : obtain w p registry subscriber s = (.ok pool, s')) (key : Bytes) :
    ∃ client ∈ pool.clients, ∃ world, select w p registry subscriber key s = (.ok client, { s' with world }) := by
  obtain ⟨asked, -, hobtained⟩ := obtain_spec h
  obtain ⟨tenant, rfl⟩ := hobtained.pooled hs
  obtain ⟨client, hclient, hselect⟩ := ProducerPool.exists_select hp tenant subscriber key
    (if subscriber.isSequential then (0, s'.world) else w.spread s'.world).1
  refine ⟨client, hclient, (if subscriber.isSequential then (0, s'.world) else w.spread s'.world).2, ?_⟩
  simp only [select, h, hselect, Except.mapError]

theorem select_of_error {e : PublishError} (h : obtain w p registry subscriber s = (.error e, s')) (key : Bytes) :
    select w p registry subscriber key s = (.error e, s') := by
  simp only [select, h]

/-- A call that obtains a pool uses it. -/
theorem uses_of_obtain (hp : p.check = .ok ()) (hs : s.Pooled p) (hc : c.subscriber? = some subscriber)
    (h : obtain w p registry subscriber s = (.ok pool, s')) :
    ∃ told, (answer w p registry c s).2.journal = told ++ s'.journal ∧
      (answer w p registry c s).2.pools = s'.pools ∧ c.Uses w p pool (answer w p registry c s).1 told := by
  cases c with
  | obtain x =>
    obtain rfl : x = subscriber := Option.some.inj hc
    have hanswer : answer w p registry (.obtain x) s = (.pool (.ok pool), s') := by simp [answer, h]
    rw [hanswer]
    exact ⟨[], rfl, rfl, rfl, rfl⟩
  | select x key =>
    obtain rfl : x = subscriber := Option.some.inj hc
    obtain ⟨client, hclient, world, hselect⟩ := select_of_obtain hp hs h key
    have hanswer : answer w p registry (.select x key) s = (.producer (.ok client), { s' with world }) := by
      simp [answer, hselect]
    rw [hanswer]
    exact ⟨[], rfl, rfl, ⟨client, hclient, rfl⟩, rfl⟩
  | send slot times r value =>
    obtain rfl : r.subscriber = subscriber := Option.some.inj hc
    obtain ⟨client, hclient, world, hselect⟩ := select_of_obtain hp hs h r.record.keyBytes
    simp only [answer, send, hselect]
    split
    · next hsend =>
      refine ⟨[.sent ⟨slot, times, client, r.message p.lead p.pipeline value⟩ (.ok ())], rfl, rfl, client, hclient,
        world, ?_, ?_⟩
      · rw [hsend]
        rfl
      · rw [hsend]
    · next e _ hsend =>
      refine ⟨[.sent ⟨slot, times, client, r.message p.lead p.pipeline value⟩ (.error e)], rfl, rfl, client, hclient,
        world, ?_, ?_⟩
      · rw [hsend]
        rfl
      · rw [hsend]
  | close => simp [Call.subscriber?] at hc

/-- A call that obtains no pool fails. -/
theorem fails_of_obtain {e : PublishError} (hc : c.subscriber? = some subscriber)
    (h : obtain w p registry subscriber s = (.error e, s')) :
    ∃ told, (answer w p registry c s).2.journal = told ++ s'.journal ∧
      (answer w p registry c s).2.pools = s'.pools ∧ c.Fails e (answer w p registry c s).1 told := by
  cases c with
  | obtain x =>
    obtain rfl : x = subscriber := Option.some.inj hc
    have hanswer : answer w p registry (.obtain x) s = (.pool (.error e), s') := by simp [answer, h]
    rw [hanswer]
    exact ⟨[], rfl, rfl, rfl, rfl⟩
  | select x key =>
    obtain rfl : x = subscriber := Option.some.inj hc
    have hanswer : answer w p registry (.select x key) s = (.producer (.error e), s') := by
      simp [answer, select_of_error h]
    rw [hanswer]
    exact ⟨[], rfl, rfl, rfl, rfl⟩
  | send slot times r value =>
    obtain rfl : r.subscriber = subscriber := Option.some.inj hc
    have hanswer : answer w p registry (.send slot times r value) s =
        (.shipment (.error e), s'.note (.unsent slot times e)) := by
      simp [answer, send, select_of_error h]
    rw [hanswer]
    exact ⟨[.unsent slot times e], rfl, rfl, rfl, rfl⟩
  | close => simp [Call.subscriber?] at hc

/-- A call obtains a pool first. It uses the pool that it obtains, and fails if there is none. -/
theorem answer_spec (w : World σ) (registry : Registry) (hp : p.check = .ok ()) (hs : s.Pooled p)
    (hc : c.subscriber? = some subscriber) :
    ∃ result asked told, (answer w p registry c s).2.journal = told ++ (asked ++ s.journal) ∧
      Obtained w p registry subscriber s (answer w p registry c s).2 result asked ∧
      match result with
      | .ok pool => c.Uses w p pool (answer w p registry c s).1 told
      | .error e => c.Fails e (answer w p registry c s).1 told := by
  rcases ho : obtain w p registry subscriber s with ⟨result, s₁⟩
  obtain ⟨asked, hjournal, hobtained⟩ := obtain_spec ho
  cases result with
  | ok pool =>
    obtain ⟨told, htold, hpools, huses⟩ := uses_of_obtain hp hs hc ho
    exact ⟨_, asked, told, hjournal ▸ htold, hobtained.congr hpools, huses⟩
  | error e =>
    obtain ⟨told, htold, hpools, hfails⟩ := fails_of_obtain hc ho
    exact ⟨_, asked, told, hjournal ▸ htold, hobtained.congr hpools, hfails⟩

theorem flushAll_spec (w : World σ) (clients : List String) (s : Session σ) :
    ∃ flushed, (flushAll w clients s).2.journal = flushed ++ s.journal ∧
      ∀ e ∈ flushed, ∃ client, e = .flushed client := by
  induction clients generalizing s with
  | nil => exact ⟨[], rfl, by simp⟩
  | cons client rest ih =>
    simp only [flushAll]
    split
    · exact ⟨[.flushed client], rfl, by simp⟩
    · next world _ _ =>
      obtain ⟨flushed, hjournal, hflushed⟩ := ih ({ s with world }.note (.flushed client))
      refine ⟨flushed ++ [.flushed client], ?_, fun e he => ?_⟩
      · rw [hjournal, List.append_assoc]
        rfl
      · rcases List.mem_append.1 he with he | he
        · exact hflushed e he
        · exact ⟨client, List.mem_singleton.1 he⟩

/-- Closing flushes producers, and drops all pools or none. -/
theorem close_spec (w : World σ) (s : Session σ) :
    ∃ flushed, (close w s).journal = flushed ++ s.journal ∧ (∀ e ∈ flushed, ∃ client, e = .flushed client) ∧
      ((close w s).pools = .empty ∨ (close w s).pools = s.pools) := by
  obtain ⟨flushed, hjournal, hflushed⟩ := flushAll_spec w (s.pools.values.flatMap (·.clients)) s
  have hpools := pools_flushAll w (s.pools.values.flatMap (·.clients)) s
  unfold close
  split
  · next heq =>
    rw [heq] at hjournal hpools
    exact ⟨flushed, hjournal, hflushed, .inr hpools⟩
  · next heq =>
    rw [heq] at hjournal
    exact ⟨flushed, hjournal, hflushed, .inl rfl⟩

theorem Call.Fails.error?_eq {e : PublishError} {reply : Reply} (h : c.Fails e reply told) : reply.error? = some e := by
  cases c with
  | obtain => rw [h.1]; rfl
  | select => rw [h.1]; rfl
  | send => rw [h.1]; rfl
  | close => exact h.elim

/-- A call that uses a pool fails only if a message is refused. -/
theorem Call.Uses.refused {e : PublishError} {reply : Reply} (h : c.Uses w p pool reply told)
    (he : reply.error? = some e) : ∃ shipment world, (w.send shipment world).1 = .error e := by
  cases c with
  | obtain =>
    rw [h.1] at he
    simp [Reply.error?] at he
  | select =>
    obtain ⟨⟨client, -, rfl⟩, -⟩ := h
    simp [Reply.error?] at he
  | send slot times r value =>
    obtain ⟨client, -, world, rfl, -⟩ := h
    refine ⟨⟨slot, times, client, r.message p.lead p.pipeline value⟩, world, ?_⟩
    cases hsend : (w.send ⟨slot, times, client, r.message p.lead p.pipeline value⟩ world).1 with
    | ok => simp [hsend, Reply.error?, Except.map] at he
    | error e' =>
      rw [hsend] at he
      exact congrArg Except.error (Option.some.inj he)
  | close => exact h.elim

end Publisher

end Relay
