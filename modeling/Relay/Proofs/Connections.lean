import Relay.Proofs.Producers

/-!
# Where producers are connected

A publisher connects the producers of a tenant when the first message for it comes, one after the other, and keeps
the pool if all of them could be connected. As long as the registry says the same, every producer was asked for on the
cluster of its tenant and nowhere else, whatever failed on the way (`Session.Wired`). So a message is handed to a
producer on the cluster of its subscriber's tenant, or a producer could not be connected to this cluster
(`Publisher.Run.sends`).
-/

namespace Relay

variable {σ : Type} {w : World σ} {p : Publisher} {registry : Registry} {source : Source} {tenant : String}
  {s s' : Session σ}

namespace Publisher

/-! ## Building pools -/

/-- Producers were connected to a cluster one after the other, as the journal tells it. -/
def connected (servers : String) (clients : List String) : List Event :=
  (clients.map fun client => .created servers client true).reverse

theorem mem_connected {servers servers' client : String} {clients : List String} {ok : Bool} :
    .created servers' client ok ∈ connected servers clients ↔ servers' = servers ∧ client ∈ clients ∧ ok = true := by
  rw [connected, List.mem_reverse, List.mem_map]
  constructor
  · rintro ⟨client', hclient, heq⟩
    obtain ⟨rfl, rfl, rfl⟩ := Event.created.inj heq
    exact ⟨rfl, hclient, rfl⟩
  · rintro ⟨rfl, hclient, rfl⟩
    exact ⟨client, hclient, rfl⟩

theorem connected_cons (servers client : String) (clients : List String) :
    connected servers (client :: clients) = connected servers clients ++ [.created servers client true] := by
  rw [connected, List.map_cons, List.reverse_cons]
  rfl

theorem connect_ok {clients : List String} (h : connect w source clients s = (.ok (), s')) :
    s'.pools = s.pools ∧ s'.journal = connected source.servers clients ++ s.journal := by
  induction clients generalizing s with
  | nil =>
    obtain ⟨-, rfl⟩ := Prod.mk.inj h
    exact ⟨rfl, rfl⟩
  | cons client rest ih =>
    rw [connect] at h
    split at h
    · obtain ⟨hpools, hjournal⟩ := ih h
      refine ⟨hpools, ?_⟩
      rw [hjournal, connected_cons, List.append_assoc]
      rfl
    · simp at h

/-- After the first producer that cannot be connected none is asked for. -/
theorem connect_error {clients : List String} {e : PublishError} (h : connect w source clients s = (.error e, s')) :
    s'.pools = s.pools ∧ ∃ before client after, clients = before ++ client :: after ∧
      (∃ world, (w.create source client world).1 = .error e) ∧
      s'.journal = .created source.servers client false :: (connected source.servers before ++ s.journal) := by
  induction clients generalizing s with
  | nil => simp [connect] at h
  | cons client rest ih =>
    rw [connect] at h
    split at h
    · obtain ⟨hpools, before, failed, after, rfl, hrefused, hjournal⟩ := ih h
      refine ⟨hpools, client :: before, failed, after, rfl, hrefused, ?_⟩
      rw [hjournal, connected_cons, List.append_assoc]
      rfl
    · next e' world hcreate =>
      obtain ⟨he, rfl⟩ := Prod.mk.inj h
      obtain rfl := Except.error.inj he
      exact ⟨rfl, [], client, rest, rfl, ⟨s.world, by rw [hcreate]⟩, rfl⟩

theorem build_ok {pool : ProducerPool} (h : p.build w registry tenant s = (.ok pool, s')) :
    ∃ source, registry.source? p.pipeline tenant = some source ∧ pool = ⟨tenant, p.clientIds tenant⟩ ∧
      s'.pools = s.pools.insert tenant pool ∧
      s'.journal = .counted ⟨"producer_pools_created_total", []⟩ 1 ::
        (connected source.servers (p.clientIds tenant) ++ s.journal) := by
  unfold build at h
  split at h
  · simp at h
  · next source hsource =>
    split at h
    · simp at h
    · next s₁ hconnect =>
      obtain ⟨hpools, hjournal⟩ := connect_ok hconnect
      obtain ⟨hpool, rfl⟩ := Prod.mk.inj h
      obtain rfl := Except.ok.inj hpool
      refine ⟨source, hsource, rfl, ?_, ?_⟩
      · rw [← hpools]
      · rw [← hjournal]
        rfl

/-- A pool that cannot be built is not kept. Its tenant has no cluster, or one of its producers could not be
connected. -/
theorem build_error {e : PublishError} (h : p.build w registry tenant s = (.error e, s')) :
    s'.pools = s.pools ∧
      (registry.source? p.pipeline tenant = none ∧ e = .config (.missingTenantSource p.pipeline tenant) ∧ s' = s ∨
        ∃ source before client after, registry.source? p.pipeline tenant = some source ∧
          p.clientIds tenant = before ++ client :: after ∧
          (∃ world, (w.create source client world).1 = .error e) ∧
          s'.journal = .created source.servers client false :: (connected source.servers before ++ s.journal)) := by
  unfold build at h
  split at h
  · next hsource =>
    obtain ⟨he, rfl⟩ := Prod.mk.inj h
    exact ⟨rfl, .inl ⟨hsource, (Except.error.inj he).symm, rfl⟩⟩
  · next source hsource =>
    split at h
    · next hconnect =>
      obtain ⟨he, rfl⟩ := Prod.mk.inj h
      obtain rfl := Except.error.inj he
      obtain ⟨hpools, before, client, after, hclients, hrefused, hjournal⟩ := connect_error hconnect
      exact ⟨hpools, .inr ⟨source, before, client, after, hsource, hclients, hrefused, hjournal⟩⟩
    · simp at h

/-- Building a pool writes down nothing but the producers that were asked for, and a completed pool. -/
theorem writes_build {P : Event → Prop} (hcreated : ∀ servers client ok, P (.created servers client ok))
    (hcounted : P (.counted ⟨"producer_pools_created_total", []⟩ 1)) (w : World σ) (p : Publisher) (registry : Registry)
    (tenant : String) (s : Session σ) :
    ∃ added, (p.build w registry tenant s).2.journal = added ++ s.journal ∧ ∀ e ∈ added, P e := by
  have hconnected : ∀ {servers clients}, ∀ e ∈ connected servers clients, P e := by
    intro servers clients e he
    obtain ⟨client, -, rfl⟩ := List.mem_map.1 (List.mem_reverse.1 he)
    exact hcreated ..
  rcases hbuild : p.build w registry tenant s with ⟨e | pool, s'⟩
  · rcases build_error hbuild with ⟨-, ⟨-, -, rfl⟩ | ⟨source, before, client, after, -, -, -, hjournal⟩⟩
    · exact ⟨[], rfl, by simp⟩
    · exact ⟨.created source.servers client false :: connected source.servers before, hjournal,
        List.forall_mem_cons.2 ⟨hcreated .., hconnected⟩⟩
  · obtain ⟨source, -, -, -, hjournal⟩ := build_ok hbuild
    exact ⟨.counted ⟨"producer_pools_created_total", []⟩ 1 :: connected source.servers (p.clientIds tenant), hjournal,
      List.forall_mem_cons.2 ⟨hcounted, hconnected⟩⟩

/-- Nor does picking a producer. -/
theorem writes_select {P : Event → Prop} (hcreated : ∀ servers client ok, P (.created servers client ok))
    (hcounted : P (.counted ⟨"producer_pools_created_total", []⟩ 1)) (w : World σ) (p : Publisher) (registry : Registry)
    (subscriber : Subscriber) (key : Bytes) (s : Session σ) :
    ∃ added, (p.select w registry subscriber key s).2.journal = added ++ s.journal ∧ ∀ e ∈ added, P e := by
  have hobtain : ∃ added, (p.obtain w registry subscriber s).2.journal = added ++ s.journal ∧ ∀ e ∈ added, P e := by
    unfold obtain
    split
    · exact ⟨[], rfl, by simp⟩
    · split
      · exact ⟨[], rfl, by simp⟩
      · exact writes_build hcreated hcounted w p registry _ s
  unfold select
  split
  · next heq => rwa [heq] at hobtain
  · next heq =>
    rw [heq] at hobtain
    exact hobtain

theorem mem_clientIds {client : String} (h : client ∈ p.clientIds tenant) : ∃ i, client = p.clientId tenant i := by
  obtain ⟨i, -, rfl⟩ := List.mem_map.1 h
  exact ⟨i, rfl⟩

end Publisher

/-- The pool of a tenant has a producer for every record. -/
theorem ProducerPool.exists_select (hp : p.check = .ok ()) (tenant : String) (subscriber : Subscriber) (key : Bytes)
    (spread : Nat) : ∃ client ∈ p.clientIds tenant,
      ProducerPool.select ⟨tenant, p.clientIds tenant⟩ subscriber key spread = .ok client := by
  have hsize : 0 < p.poolSize := by
    unfold Publisher.check at hp
    split at hp
    · simp at hp
    · omega
  have hlength : (p.clientIds tenant).length = p.poolSize := by simp [Publisher.clientIds]
  have hlt : (if subscriber.isSequential then (crc32 key).toNat else spread) % (p.clientIds tenant).length <
      (p.clientIds tenant).length := Nat.mod_lt _ (by omega)
  refine ⟨_, List.getElem_mem hlt, ?_⟩
  simp only [ProducerPool.select, List.getElem?_eq_getElem hlt]

/-! ## The cluster of a tenant -/

/-- Every pool has the producers of its tenant, which are connected to its cluster, and a producer was asked for only
on the cluster of its tenant. -/
structure Session.Wired (p : Publisher) (registry : Registry) (s : Session σ) : Prop where
  pooled : s.Pooled p
  connected : ∀ tenant pool, s.pools.get? tenant = some pool →
    ∃ source, registry.source? p.pipeline tenant = some source ∧
      ∀ client ∈ p.clientIds tenant, .created source.servers client true ∈ s.journal
  nowhere_else : ∀ servers client ok, .created servers client ok ∈ s.journal →
    ∃ tenant source, registry.source? p.pipeline tenant = some source ∧ servers = source.servers ∧
      ∃ i, client = p.clientId tenant i

/-- A producer is connected to a cluster, and was asked for nowhere else. -/
def Session.ConnectedTo (servers client : String) (s : Session σ) : Prop :=
  .created servers client true ∈ s.journal ∧ ∀ other ok, .created other client ok ∈ s.journal → other = servers

namespace Session.Wired

/-- As client ids tell tenants apart, no producer is asked for on two clusters. -/
theorem connectedTo (h : s.Wired p registry) (hsource : registry.source? p.pipeline tenant = some source)
    {client : String} (hclient : client ∈ p.clientIds tenant) (hcreated : .created source.servers client true ∈ s.journal) :
    s.ConnectedTo source.servers client := by
  refine ⟨hcreated, fun other ok hother => ?_⟩
  obtain ⟨i, rfl⟩ := Publisher.mem_clientIds hclient
  obtain ⟨tenant', source', hsource', rfl, i', heq⟩ := h.nowhere_else other _ ok hother
  obtain ⟨rfl, -⟩ := p.clientId_inj heq
  obtain rfl := Option.some.inj (hsource.symm.trans hsource')
  rfl

theorem start (p : Publisher) (registry : Registry) (world : σ) : (Session.start world).Wired p registry := by
  constructor
  · intro tenant pool hpool
    simp [Session.start] at hpool
  · intro tenant pool hpool
    simp [Session.start] at hpool
  · intro servers client ok hcreated
    simp [Session.start] at hcreated

/-- Pools may be dropped. -/
theorem shrink (h : s.Wired p registry)
    (pools : ∀ tenant pool, s'.pools.get? tenant = some pool → s.pools.get? tenant = some pool)
    (created : ∀ servers client ok, .created servers client ok ∈ s'.journal ↔ .created servers client ok ∈ s.journal) :
    s'.Wired p registry := by
  constructor
  · exact fun tenant pool hpool => h.pooled tenant pool (pools tenant pool hpool)
  · intro tenant pool hpool
    obtain ⟨source, hsource, hclients⟩ := h.connected tenant pool (pools tenant pool hpool)
    exact ⟨source, hsource, fun client hclient => (created _ _ _).2 (hclients client hclient)⟩
  · exact fun servers client ok hcreated => h.nowhere_else servers client ok ((created _ _ _).1 hcreated)

/-- Producers of a tenant may be asked for on its cluster, and their pool kept if all of them are connected. -/
theorem grow (h : s.Wired p registry) (hsource : registry.source? p.pipeline tenant = some source) {asked : List Event}
    (journal : s'.journal = asked ++ s.journal)
    (created : ∀ servers client ok, .created servers client ok ∈ asked →
      servers = source.servers ∧ client ∈ p.clientIds tenant)
    (pools : ∀ tenant' pool, s'.pools.get? tenant' = some pool → s.pools.get? tenant' = some pool ∨
      tenant' = tenant ∧ pool = ⟨tenant, p.clientIds tenant⟩ ∧
        ∀ client ∈ p.clientIds tenant, .created source.servers client true ∈ asked) : s'.Wired p registry := by
  constructor
  · intro tenant' pool hpool
    rcases pools tenant' pool hpool with hold | ⟨rfl, rfl, -⟩
    · exact h.pooled tenant' pool hold
    · rfl
  · intro tenant' pool hpool
    rw [journal]
    rcases pools tenant' pool hpool with hold | ⟨rfl, -, hclients⟩
    · obtain ⟨source', hsource', hclients⟩ := h.connected tenant' pool hold
      exact ⟨source', hsource', fun client hclient => List.mem_append_right _ (hclients client hclient)⟩
    · exact ⟨source, hsource, fun client hclient => List.mem_append_left _ (hclients client hclient)⟩
  · intro servers client ok hcreated
    rw [journal] at hcreated
    rcases List.mem_append.1 hcreated with hnew | hold
    · obtain ⟨rfl, hclient⟩ := created servers client ok hnew
      exact ⟨tenant, source, hsource, rfl, Publisher.mem_clientIds hclient⟩
    · exact h.nowhere_else servers client ok hold

theorem build (h : s.Wired p registry) (w : World σ) (tenant : String) :
    (p.build w registry tenant s).2.Wired p registry := by
  rcases hbuild : p.build w registry tenant s with ⟨e | pool, s'⟩
  · rcases Publisher.build_error hbuild with
      ⟨hpools, ⟨-, -, rfl⟩ | ⟨source, before, client, after, hsource, hids, -, hjournal⟩⟩
    · exact h
    · have hasked : s'.journal =
          (.created source.servers client false :: Publisher.connected source.servers before) ++ s.journal := hjournal
      refine h.grow hsource hasked (fun servers client' ok hcreated => ?_) fun _ _ hpool => .inl (hpools ▸ hpool)
      rw [hids]
      rcases List.mem_cons.1 hcreated with heq | hbefore
      · obtain ⟨rfl, rfl, -⟩ := Event.created.inj heq
        exact ⟨rfl, by simp⟩
      · obtain ⟨rfl, hclient, -⟩ := Publisher.mem_connected.1 hbefore
        exact ⟨rfl, List.mem_append_left _ hclient⟩
  · obtain ⟨source, hsource, rfl, hpools, hjournal⟩ := Publisher.build_ok hbuild
    have hasked : s'.journal = (.counted ⟨"producer_pools_created_total", []⟩ 1 ::
        Publisher.connected source.servers (p.clientIds tenant)) ++ s.journal := hjournal
    refine h.grow hsource hasked (fun servers client ok hcreated => ?_) fun tenant' pool hpool => ?_
    · rcases List.mem_cons.1 hcreated with heq | hnew
      · simp at heq
      · obtain ⟨rfl, hclient, -⟩ := Publisher.mem_connected.1 hnew
        exact ⟨rfl, hclient⟩
    · rw [hpools, SortedMap.get?_insert] at hpool
      split at hpool
      · next heq =>
        refine .inr ⟨Std.LawfulEqCmp.eq_of_compare heq, (Option.some.inj hpool).symm, fun client hclient => ?_⟩
        exact List.mem_cons_of_mem _ (Publisher.mem_connected.2 ⟨rfl, hclient, rfl⟩)
      · exact .inl hpool

theorem obtain (h : s.Wired p registry) (w : World σ) (subscriber : Subscriber) :
    (p.obtain w registry subscriber s).2.Wired p registry := by
  unfold Publisher.obtain
  split
  · exact h
  · split
    · exact h
    · exact h.build w _

theorem select (h : s.Wired p registry) (w : World σ) (subscriber : Subscriber) (key : Bytes) :
    (p.select w registry subscriber key s).2.Wired p registry := by
  have hobtained := h.obtain w subscriber
  unfold Publisher.select
  split
  · next heq => rwa [heq] at hobtained
  · next heq =>
    rw [heq] at hobtained
    exact hobtained.shrink (fun _ _ hpool => hpool) fun _ _ _ => .rfl

theorem send (h : s.Wired p registry) (w : World σ) (slot : Nat) (times : UInt32) (r : Routed) (value : Json.Value) :
    (p.send w registry slot times r value s).2.Wired p registry := by
  have hselected := h.select w r.subscriber r.record.keyBytes
  unfold Publisher.send
  split
  · next heq =>
    rw [heq] at hselected
    exact hselected.shrink (fun _ _ hpool => hpool) fun _ _ _ => by simp [Session.note]
  · next heq =>
    rw [heq] at hselected
    simp only
    split
    · exact hselected.shrink (fun _ _ hpool => hpool) fun _ _ _ => by simp [Session.note]
    · exact hselected.shrink (fun _ _ hpool => hpool) fun _ _ _ => by simp [Session.note]

end Session.Wired

theorem Publisher.created_flushAll (w : World σ) (clients : List String) (s : Session σ) (servers client : String)
    (ok : Bool) :
    .created servers client ok ∈ (flushAll w clients s).2.journal ↔ .created servers client ok ∈ s.journal := by
  induction clients generalizing s with
  | nil => rfl
  | cons client' rest ih =>
    simp only [flushAll]
    split
    · simp [Session.note]
    · rw [ih]
      simp [Session.note]

theorem Session.Wired.close (h : s.Wired p registry) (w : World σ) : (Publisher.close w s).Wired p registry := by
  have hpools := Publisher.pools_flushAll w (s.pools.values.flatMap (·.clients)) s
  have hcreated := Publisher.created_flushAll w (s.pools.values.flatMap (·.clients)) s
  unfold Publisher.close
  split
  · next heq =>
    rw [heq] at hpools hcreated
    exact h.shrink (fun tenant pool hpool => hpools ▸ hpool) hcreated
  · next heq =>
    rw [heq] at hcreated
    exact h.shrink (fun tenant pool hpool => by simp at hpool) hcreated

/-! ## Runs of a publisher -/

/-- A session that a publisher has come to while the registry stayed the same: it obtains pools, selects producers,
hands over messages and closes its pools, in any surroundings, and nothing else touches its pools or connects
producers. -/
inductive Publisher.Run (p : Publisher) (registry : Registry) : Session σ → Prop where
  | start (world : σ) : Run p registry (.start world)
  | aside {s s' : Session σ} (h : Run p registry s) (pools : s'.pools = s.pools)
      (created : ∀ servers client ok,
        .created servers client ok ∈ s'.journal ↔ .created servers client ok ∈ s.journal) : Run p registry s'
  | obtain {s : Session σ} (h : Run p registry s) (w : World σ) (subscriber : Subscriber) :
      Run p registry (p.obtain w registry subscriber s).2
  | select {s : Session σ} (h : Run p registry s) (w : World σ) (subscriber : Subscriber) (key : Bytes) :
      Run p registry (p.select w registry subscriber key s).2
  | send {s : Session σ} (h : Run p registry s) (w : World σ) (slot : Nat) (times : UInt32) (r : Routed)
      (value : Json.Value) : Run p registry (p.send w registry slot times r value s).2
  | close {s : Session σ} (h : Run p registry s) (w : World σ) : Run p registry (Publisher.close w s)

namespace Publisher.Run

theorem wired (h : p.Run registry s) : s.Wired p registry := by
  induction h with
  | start world => exact .start p registry world
  | aside _ pools created ih => exact ih.shrink (fun _ _ hpool => pools ▸ hpool) created
  | obtain _ w subscriber ih => exact ih.obtain w subscriber
  | select _ w subscriber key ih => exact ih.select w subscriber key
  | send _ w slot times r value ih => exact ih.send w slot times r value
  | close _ w ih => exact ih.close w

/-- The pool of a tenant is there, or one of its producers could not be connected. -/
theorem obtains (h : p.Run registry s) {subscriber : Subscriber} (htenant : subscriber.tenant = .ok tenant)
    (hsource : registry.source? p.pipeline tenant = some source) {result : Except PublishError ProducerPool}
    (ho : p.obtain w registry subscriber s = (result, s')) :
    (result = .ok ⟨tenant, p.clientIds tenant⟩ ∧
      ∀ client ∈ p.clientIds tenant, .created source.servers client true ∈ s'.journal) ∨
    ∃ e client rest, result = .error e ∧ s'.journal = .created source.servers client false :: rest := by
  simp only [Publisher.obtain, htenant] at ho
  split at ho
  · next pool hpool =>
    obtain ⟨rfl, rfl⟩ := Prod.mk.inj ho
    obtain rfl := h.wired.pooled _ _ hpool
    obtain ⟨source', hsource', hclients⟩ := h.wired.connected _ _ hpool
    obtain rfl := Option.some.inj (hsource.symm.trans hsource')
    exact .inl ⟨rfl, hclients⟩
  · rcases result with e | pool
    · rcases build_error ho with ⟨-, ⟨hnone, -, -⟩ | ⟨source', before, client, after, hsource', -, -, hjournal⟩⟩
      · simp [hsource] at hnone
      · obtain rfl := Option.some.inj (hsource.symm.trans hsource')
        exact .inr ⟨e, client, _, rfl, hjournal⟩
    · obtain ⟨source', hsource', rfl, -, hjournal⟩ := build_ok ho
      obtain rfl := Option.some.inj (hsource.symm.trans hsource')
      refine .inl ⟨rfl, fun client hclient => ?_⟩
      rw [hjournal]
      exact List.mem_cons_of_mem _ (List.mem_append_left _ (mem_connected.2 ⟨rfl, hclient, rfl⟩))

/-- What becomes of a message for a subscriber whose tenant has a cluster: a producer gets it that is connected to this
cluster and to no other, or a producer could not be connected to this cluster. -/
theorem sends (h : p.Run registry s) (hp : p.check = .ok ()) {r : Routed} (htenant : r.subscriber.tenant = .ok tenant)
    (hsource : registry.source? p.pipeline tenant = some source) (w : World σ) (slot : Nat) (times : UInt32)
    (value : Json.Value) {result : Except PublishError Shipment}
    (hs : p.send w registry slot times r value s = (result, s')) :
    (∃ client outcome rest,
      s'.journal = .sent ⟨slot, times, client, r.message p.lead p.pipeline value⟩ outcome :: rest ∧
        s'.ConnectedTo source.servers client) ∨
    ∃ e client rest, result = .error e ∧
      s'.journal = .unsent slot times e :: .created source.servers client false :: rest := by
  -- the session afterwards is one that the publisher has come to as well, so nothing was asked for elsewhere
  have hwired := (h.send w slot times r value).wired
  rw [hs] at hwired
  simp only [Publisher.send, Publisher.select] at hs
  rcases ho : p.obtain w registry r.subscriber s with ⟨e | pool, s₁⟩
  · rw [ho] at hs
    obtain ⟨rfl, rfl⟩ := Prod.mk.inj hs
    rcases h.obtains htenant hsource ho with ⟨hcontra, -⟩ | ⟨e', client, rest, he, hjournal⟩
    · simp at hcontra
    · obtain rfl := Except.error.inj he
      exact .inr ⟨e, client, rest, rfl, by rw [← hjournal]; rfl⟩
  · rcases h.obtains htenant hsource ho with ⟨hpool, hclients⟩ | ⟨e', client, rest, he, -⟩
    · obtain rfl := Except.ok.inj hpool
      obtain ⟨client, hclient, hselect⟩ := ProducerPool.exists_select hp tenant r.subscriber r.record.keyBytes
        (if r.subscriber.isSequential then (0, s₁.world) else w.spread s₁.world).1
      rw [ho] at hs
      simp only [hselect, Except.mapError] at hs
      have hwritten : ∃ outcome, s'.journal =
          .sent ⟨slot, times, client, r.message p.lead p.pipeline value⟩ outcome :: s₁.journal := by
        split at hs
        · obtain ⟨-, rfl⟩ := Prod.mk.inj hs
          exact ⟨_, rfl⟩
        · obtain ⟨-, rfl⟩ := Prod.mk.inj hs
          exact ⟨_, rfl⟩
      obtain ⟨outcome, hjournal⟩ := hwritten
      refine .inl ⟨client, outcome, s₁.journal, hjournal, hwired.connectedTo hsource hclient ?_⟩
      rw [hjournal]
      exact List.mem_cons_of_mem _ (hclients client hclient)
    · simp at he

end Publisher.Run

end Relay
