import Relay.Proofs.PoolCalls

/-!
# Pools are built once

Whatever calls of a publisher come in whatever order, a pool that was built serves every later call for its tenant
until the pools are closed, a pool that could not be built leaves nothing behind, and as many pools are counted as were
built.
-/

namespace Relay

/-- By how much an event increases the number of pools that were created. -/
def Event.poolsCounted : Event → Nat
  | .counted series n => if series = ⟨"producer_pools_created_total", []⟩ then n else 0
  | _ => 0

/-- By how much events increase the number of pools that were created. -/
def Event.poolsCreated (events : List Event) : Nat := (events.map poolsCounted).sum

theorem Event.poolsCreated_append (events events' : List Event) :
    poolsCreated (events ++ events') = poolsCreated events + poolsCreated events' := by
  rw [poolsCreated, List.map_append, List.sum_append]
  rfl

theorem Event.poolsCreated_cons (e : Event) (events : List Event) :
    poolsCreated (e :: events) = e.poolsCounted + poolsCreated events := by
  rw [poolsCreated, List.map_cons, List.sum_cons]
  rfl

namespace Publisher

variable {σ : Type}

/-- The session after calls, one after the other. -/
def serve (w : World σ) (p : Publisher) (registry : Registry) : List Call → Session σ → Session σ
  | [], s => s
  | c :: rest, s => serve w p registry rest (answer w p registry c s).2

/-- Whether a call built a pool: its tenant had none before and has one afterwards. -/
def builds (w : World σ) (p : Publisher) (registry : Registry) (c : Call) (s : Session σ) : Bool :=
  match c.subscriber?.map Subscriber.tenant with
  | some (.ok tenant) =>
    (s.pools.get? tenant).isNone && ((answer w p registry c s).2.pools.get? tenant).isSome
  | _ => false

/-- The number of calls that built a pool. -/
def built (w : World σ) (p : Publisher) (registry : Registry) : List Call → Session σ → Nat
  | [], _ => 0
  | c :: rest, s => (builds w p registry c s).toNat + built w p registry rest (answer w p registry c s).2

variable {w : World σ} {p : Publisher} {registry : Registry} {tenant : String} {pool : ProducerPool} {c : Call}
  {s s' : Session σ} {told : List Event}

/-! ## What is counted -/

theorem poolsCreated_connected (servers : String) (clients : List String) :
    Event.poolsCreated (connected servers clients) = 0 := by
  refine List.sum_eq_zero fun n hn => ?_
  obtain ⟨e, he, rfl⟩ := List.mem_map.1 hn
  obtain ⟨client, -, rfl⟩ := List.mem_map.1 (List.mem_reverse.1 he)
  rfl

theorem poolsCreated_flushed {flushed : List Event} (h : ∀ e ∈ flushed, ∃ client, e = .flushed client) :
    Event.poolsCreated flushed = 0 := by
  refine List.sum_eq_zero fun n hn => ?_
  obtain ⟨e, he, rfl⟩ := List.mem_map.1 hn
  obtain ⟨client, rfl⟩ := h e he
  rfl

theorem Call.Uses.poolsCreated {reply : Reply} (h : c.Uses w p pool reply told) : Event.poolsCreated told = 0 := by
  cases c with
  | obtain => rw [h.2]; rfl
  | select => rw [h.2]; rfl
  | send =>
    obtain ⟨client, -, world, -, rfl⟩ := h
    rfl
  | close => exact h.elim

theorem Call.Fails.poolsCreated {e : PublishError} {reply : Reply} (h : c.Fails e reply told) :
    Event.poolsCreated told = 0 := by
  cases c with
  | obtain => rw [h.2]; rfl
  | select => rw [h.2]; rfl
  | send => rw [h.2]; rfl
  | close => exact h.elim

/-- A call that builds a pool counts one, and no other call counts any. -/
theorem poolsCreated_answer (hp : p.check = .ok ()) (hs : s.Pooled p) (c : Call) :
    Event.poolsCreated (answer w p registry c s).2.journal =
      (builds w p registry c s).toNat + Event.poolsCreated s.journal := by
  cases hc : c.subscriber? with
  | none =>
    cases c with
    | close =>
      obtain ⟨flushed, hjournal, hflushed, -⟩ := close_spec w s
      have hnone : builds w p registry .close s = false := rfl
      rw [answer, hjournal, Event.poolsCreated_append, poolsCreated_flushed hflushed, hnone]
      rfl
    | obtain | select | send => simp [Call.subscriber?] at hc
  | some subscriber =>
    obtain ⟨result, asked, told, hjournal, hobtained, hdone⟩ := answer_spec w registry hp hs hc
    have htold : Event.poolsCreated told = 0 := by
      cases result with
      | ok pool => exact hdone.poolsCreated
      | error e => exact hdone.poolsCreated
    -- on the way to a pool, only one that was built is counted
    have hasked : Event.poolsCreated asked = (builds w p registry c s).toNat := by
      unfold builds
      rw [hc, Option.map_some]
      cases hobtained with
      | untenanted htenant => rw [htenant]; rfl
      | there htenant hcached => simp [htenant, hcached, Event.poolsCreated]
      | nowhere htenant huncached _ hpools => simp [htenant, huncached, hpools, Event.poolsCreated]
      | broken htenant huncached _ _ _ hpools =>
        rw [Event.poolsCreated_cons, poolsCreated_connected, htenant]
        simp [huncached, hpools, Event.poolsCounted]
      | built htenant huncached _ hpools =>
        rw [Event.poolsCreated_cons, poolsCreated_connected, htenant]
        simp [huncached, hpools, Event.poolsCounted]
    rw [hjournal, Event.poolsCreated_append, Event.poolsCreated_append, htold, hasked, Nat.zero_add]

/-- No call says that a producer is missing, unless whoever connects producers or takes messages said so. -/
theorem missing_of_answer (hp : p.check = .ok ()) (hs : s.Pooled p) (w : World σ) (c : Call)
    (he : (answer w p registry c s).1.error? = some (.config (.missingProducer tenant))) :
    (∃ source client world, (w.create source client world).1 = .error (.config (.missingProducer tenant))) ∨
      ∃ shipment world, (w.send shipment world).1 = .error (.config (.missingProducer tenant)) := by
  cases hc : c.subscriber? with
  | none =>
    cases c with
    | close => simp [answer, Reply.error?] at he
    | obtain | select | send => simp [Call.subscriber?] at hc
  | some x =>
    obtain ⟨result, asked, told, -, hobtained, hdone⟩ := answer_spec w registry hp hs hc
    cases result with
    | ok pool => exact .inr (hdone.refused he)
    | error e =>
      obtain rfl := Option.some.inj (hdone.error?_eq.symm.trans he)
      exact .inl hobtained.of_missingProducer

/-! ## Runs -/

theorem wired_answer (h : s.Wired p registry) (w : World σ) (c : Call) :
    (answer w p registry c s).2.Wired p registry := by
  cases c with
  | obtain subscriber => exact h.obtain w subscriber
  | select subscriber key => exact h.select w subscriber key
  | send slot times r value => exact h.send w slot times r value
  | close => exact h.close w

/-- The producers of a tenant were connected one after the other, to the cluster of the tenant. -/
def Stocks (p : Publisher) (registry : Registry) (s : Session σ) (tenant : String) : Prop :=
  ∃ source newer older, registry.source? p.pipeline tenant = some source ∧
    s.journal = newer ++ (connected source.servers (p.clientIds tenant) ++ older)

/-- So were those of every pool that is kept. -/
def Stocked (p : Publisher) (registry : Registry) (s : Session σ) : Prop :=
  ∀ tenant pool, s.pools.get? tenant = some pool → p.Stocks registry s tenant

theorem Stocks.grow (h : p.Stocks registry s tenant) (hjournal : s'.journal = told ++ s.journal) :
    p.Stocks registry s' tenant := by
  obtain ⟨source, newer, older, hsource, hold⟩ := h
  exact ⟨source, told ++ newer, older, hsource, by rw [hjournal, hold, List.append_assoc]⟩

theorem Stocked.grow (h : p.Stocked registry s) (hpools : s'.pools = s.pools)
    (hjournal : s'.journal = told ++ s.journal) : p.Stocked registry s' := by
  intro tenant pool hpool
  rw [hpools] at hpool
  exact (h tenant pool hpool).grow hjournal

theorem stocked_answer (hp : p.check = .ok ()) (hs : s.Pooled p) (h : p.Stocked registry s) (w : World σ) (c : Call) :
    p.Stocked registry (answer w p registry c s).2 := by
  cases hc : c.subscriber? with
  | none =>
    cases c with
    | close =>
      obtain ⟨flushed, hjournal, -, hempty | hsame⟩ := close_spec w s
      · intro tenant pool hpool
        have hpool : (close w s).pools.get? tenant = some pool := hpool
        simp [hempty] at hpool
      · exact h.grow hsame hjournal
    | obtain | select | send => simp [Call.subscriber?] at hc
  | some subscriber =>
    obtain ⟨result, asked, told, hjournal, hobtained, -⟩ := answer_spec w registry hp hs hc
    rw [← List.append_assoc] at hjournal
    cases hobtained with
    | untenanted _ hpools => exact h.grow hpools hjournal
    | there _ _ hpools => exact h.grow hpools hjournal
    | nowhere _ _ _ hpools => exact h.grow hpools hjournal
    | broken _ _ _ _ _ hpools => exact h.grow hpools hjournal
    | @built tenant source _ _ hsource hpools =>
      intro tenant' pool hpool
      rw [hpools, SortedMap.get?_insert] at hpool
      split at hpool
      · next heq =>
        obtain rfl := Std.LawfulEqCmp.eq_of_compare heq
        refine ⟨source, told ++ [.counted ⟨"producer_pools_created_total", []⟩ 1], s.journal, hsource, ?_⟩
        rw [hjournal]
        simp
      · exact (h tenant' pool hpool).grow hjournal

theorem serve_spec (hp : p.check = .ok ()) (hwired : s.Wired p registry) (hstocked : p.Stocked registry s) (w : World σ)
    (calls : List Call) :
    (serve w p registry calls s).Wired p registry ∧ p.Stocked registry (serve w p registry calls s) ∧
      Event.poolsCreated (serve w p registry calls s).journal =
        built w p registry calls s + Event.poolsCreated s.journal := by
  induction calls generalizing s with
  | nil => exact ⟨hwired, hstocked, (Nat.zero_add _).symm⟩
  | cons c rest ih =>
    obtain ⟨hwired', hstocked', hcount⟩ :=
      ih (wired_answer hwired w c) (stocked_answer hp hwired.pooled hstocked w c)
    refine ⟨hwired', hstocked', ?_⟩
    rw [serve, hcount, poolsCreated_answer hp hwired.pooled, built]
    omega

/-- A pool stays until the pools are closed. -/
theorem serve_keeps (hp : p.check = .ok ()) (hwired : s.Wired p registry) (w : World σ) {calls : List Call}
    (hopen : .close ∉ calls) (hcached : s.pools.get? tenant = some pool) :
    (serve w p registry calls s).pools.get? tenant = some pool := by
  induction calls generalizing s with
  | nil => exact hcached
  | cons c rest ih =>
    rw [List.mem_cons, not_or] at hopen
    refine ih (wired_answer hwired w c) hopen.2 ?_
    cases hc : c.subscriber? with
    | none =>
      cases c with
      | close => exact absurd rfl hopen.1
      | obtain | select | send => simp [Call.subscriber?] at hc
    | some subscriber =>
      obtain ⟨result, asked, told, -, hobtained, -⟩ := answer_spec w registry hp hwired.pooled hc
      exact hobtained.keeps hcached

end Publisher

/-- A publisher keeps at most one pool for each tenant, with as many producers as it should have, numbered from zero,
which were connected to the cluster of the tenant. Until the pools are closed every call for the tenant uses this
pool, and the journal tells nothing else of it. A call for a subscriber without a tenant fails and changes nothing. If
a tenant has no pool, one is built, or the pools stay as they are: the tenant has no cluster, or the producers are
asked for one after the other up to the first that is refused. As many pools are counted as were built. No call says
that a producer is missing, unless whoever connects producers or takes messages said so. -/
theorem pools_built_once {σ : Type} (w : World σ) (p : Publisher) (registry : Registry) (hp : p.check = .ok ())
    (world : σ) (calls : List Publisher.Call) :
    let ids := fun tenant n => (List.range n).map (p.clientId tenant)
    let s := p.serve w registry calls (.start world)
    s.pools.keys.Nodup ∧
    (∀ tenant pool, s.pools.get? tenant = some pool →
      pool = ⟨tenant, ids tenant p.poolSize⟩ ∧ ∃ source newer older, registry.source? p.pipeline tenant = some source ∧
        s.journal = newer ++ (Publisher.connected source.servers (ids tenant p.poolSize) ++ older)) ∧
    (∀ tenant pool later (c : Publisher.Call) x, s.pools.get? tenant = some pool → .close ∉ later →
      c.subscriber? = some x → x.tenant = .ok tenant →
        let before := p.serve w registry later s
        let after := p.answer w registry c before
        after.2.pools = before.pools ∧
          ∃ told, after.2.journal = told ++ before.journal ∧ c.Uses w p pool after.1 told) ∧
    (∀ (c : Publisher.Call) x, c.subscriber? = some x → (∀ tenant, x.tenant ≠ .ok tenant) →
      let after := p.answer w registry c s
      after.2.pools = s.pools ∧ ∃ told, after.2.journal = told ++ s.journal ∧
        c.Fails (.config (.missingTenant x.id)) after.1 told) ∧
    (∀ (c : Publisher.Call) x tenant, c.subscriber? = some x → x.tenant = .ok tenant → s.pools.get? tenant = none →
      let after := p.answer w registry c s
      ∃ told asked, after.2.journal = told ++ (asked ++ s.journal) ∧
        (registry.source? p.pipeline tenant = none ∧ asked = [] ∧ after.2.pools = s.pools ∧
            c.Fails (.config (.missingTenantSource p.pipeline tenant)) after.1 told ∨
          ∃ source, registry.source? p.pipeline tenant = some source ∧
            ((∃ k < p.poolSize, ∃ e,
                asked = .created source.servers (p.clientId tenant k) false ::
                  Publisher.connected source.servers (ids tenant k) ∧
                after.2.pools = s.pools ∧ c.Fails e after.1 told) ∨
              asked = .counted ⟨"producer_pools_created_total", []⟩ 1 ::
                  Publisher.connected source.servers (ids tenant p.poolSize) ∧
                after.2.pools = s.pools.insert tenant ⟨tenant, ids tenant p.poolSize⟩ ∧
                c.Uses w p ⟨tenant, ids tenant p.poolSize⟩ after.1 told))) ∧
    Event.poolsCreated s.journal = p.built w registry calls (.start world) ∧
    ∀ (c : Publisher.Call) tenant, (p.answer w registry c s).1.error? = some (.config (.missingProducer tenant)) →
      (∃ source client world, (w.create source client world).1 = .error (.config (.missingProducer tenant))) ∨
        ∃ shipment world, (w.send shipment world).1 = .error (.config (.missingProducer tenant)) := by
  intro ids s
  have hstocked : p.Stocked registry (Session.start world) := by
    intro tenant pool hpool
    simp [Session.start] at hpool
  obtain ⟨hwired, hstocked, hcount⟩ := Publisher.serve_spec hp (.start p registry world) hstocked w calls
  refine ⟨s.pools.nodup_keys, fun tenant pool hpool => ⟨hwired.pooled tenant pool hpool, hstocked tenant pool hpool⟩,
    ?_, ?_, ?_, hcount, ?_⟩
  · intro tenant pool later c x hpool hopen hc htenant before after
    have hcached : before.pools.get? tenant = some pool := Publisher.serve_keeps hp hwired w hopen hpool
    obtain ⟨hwired', -, -⟩ := Publisher.serve_spec hp hwired hstocked w later
    obtain ⟨result, asked, told, hjournal, hobtained, hdone⟩ :=
      Publisher.answer_spec w registry hp hwired'.pooled hc
    obtain ⟨rfl, rfl, hpools⟩ := hobtained.of_cached htenant hcached
    exact ⟨hpools, told, hjournal, hdone⟩
  · intro c x hc htenant after
    obtain ⟨result, asked, told, hjournal, hobtained, hdone⟩ := Publisher.answer_spec w registry hp hwired.pooled hc
    obtain ⟨rfl, rfl, hpools⟩ := hobtained.of_untenanted htenant
    exact ⟨hpools, told, hjournal, hdone⟩
  · intro c x tenant hc htenant huncached after
    obtain ⟨result, asked, told, hjournal, hobtained, hdone⟩ := Publisher.answer_spec w registry hp hwired.pooled hc
    refine ⟨told, asked, hjournal, ?_⟩
    rcases hobtained.of_uncached htenant huncached with ⟨hsource, hasked, hpools, rfl⟩ |
      ⟨source, hsource, ⟨k, hk, e, hasked, hpools, rfl⟩ | ⟨hasked, hpools, rfl⟩⟩
    · exact .inl ⟨hsource, hasked, hpools, hdone⟩
    · exact .inr ⟨source, hsource, .inl ⟨k, hk, e, hasked, hpools, hdone⟩⟩
    · exact .inr ⟨source, hsource, .inr ⟨hasked, hpools, hdone⟩⟩
  · exact fun c tenant he => Publisher.missing_of_answer hp hwired.pooled w c he

namespace Faltering

/-- Surroundings that connect producers as they are told to beforehand. -/
def world : World (List Bool) where
  clock s := (0, s)
  refresh _ s := s
  submit _ s := (true, s)
  finish _ s := (.error .canceled, s)
  cancelAll s := s
  shutdown s := s
  next _ s := (some 0, s)
  create _ _ s := (if s.headD true then .ok () else .error (.creation "refused"), s.tail)
  spread s := (0, s)
  send _ s := (.ok (), s)
  deliver _ s := (.ok (), s)
  flush _ s := (.done, s)
  commit _ s := (.ok (), s)
  seek _ s := (.ok (), s)

def publisher : Publisher := ⟨"", "", 2, default⟩

def subscriber : Subscriber := ⟨"s", ⟨false, .all, [⟨"t", none, []⟩]⟩, .standard⟩

def registry : Registry := ⟨.ofList [("", ⟨[subscriber], .ofList [("t", ⟨"c"⟩)]⟩)]⟩

/-- The session after a number of calls, of which the first meets a producer that is refused. -/
def session (calls : Nat) : Session (List Bool) :=
  publisher.serve world registry (List.replicate calls (.obtain subscriber)) (.start [true, false])

/-- The first call leaves no pool, the second one builds a pool, and the next one uses it. -/
theorem built_at_second_call :
    (session 1).pools.get? "t" = none ∧ (publisher.answer world registry (.obtain subscriber) (session 0)).1.error? =
        some (.creation "refused") ∧
      (session 2).pools.get? "t" = some ⟨"t", ["checkpoint--t-0", "checkpoint--t-1"]⟩ ∧
      Event.poolsCreated (session 2).journal = 1 ∧
      ∃ told, (publisher.answer world registry (.select subscriber []) (session 2)).2.journal =
          told ++ (session 2).journal ∧
        Publisher.Call.Uses world publisher ⟨"t", ["checkpoint--t-0", "checkpoint--t-1"]⟩ (.select subscriber [])
          (publisher.answer world registry (.select subscriber []) (session 2)).1 told := by
  have hpool : (session 2).pools.get? "t" = some ⟨"t", ["checkpoint--t-0", "checkpoint--t-1"]⟩ := by decide +kernel
  obtain ⟨-, -, hlater, -, -, hcount, -⟩ := pools_built_once world publisher registry rfl [true, false]
    (List.replicate 2 (.obtain subscriber))
  obtain ⟨-, told, hjournal, huses⟩ := hlater "t" _ [] (.select subscriber []) subscriber hpool (by simp) rfl rfl
  have hbuilt : publisher.built world registry (List.replicate 2 (.obtain subscriber)) (.start [true, false]) = 1 := by
    decide +kernel
  exact ⟨by decide +kernel, by decide +kernel, hpool, hcount.trans hbuilt, told, hjournal, huses⟩

end Faltering

end Relay
