import Mathlib.Data.Finset.Card
import Relay.Proofs.Connections
import Relay.Proofs.PoolRuns
import Relay.Proofs.Shards
import Relay.Proofs.Wiring

/-!
# Settings that are not refused

Settings are looked at once, before anything is made of them, and the parts of a service are made of them elsewhere,
each by rules of its own. What the look at them lets pass is good for all parts: names are known, no pool is without
workers or producers, the shards have somebody to go to, and this instance gets its share of them. One thing is not
looked at, whether the worker pools are too large to be made.
-/

namespace Relay

/-! ## Filters and mappers -/

theorem Mapper.exists_ofName (σ : Type) {name : String} {m : Mapper Unit} (h : Mapper.ofName name = .ok m) :
    ∃ m' : Mapper σ, Mapper.ofName name = .ok m' := by
  unfold ofName at h ⊢
  split
  · exact ⟨_, rfl⟩
  · next hkeep =>
    rw [if_neg hkeep] at h
    split
    · exact ⟨_, rfl⟩
    · next hmask =>
      rw [if_neg hmask] at h
      simp at h

/-- If every element has a value under one function whenever it has one under another, so do lists. -/
theorem exists_mapM_of_mapM {ε α β γ : Type} {f : α → Except ε β} {g : α → Except ε γ}
    (hfg : ∀ {a b}, f a = .ok b → ∃ c, g a = .ok c) :
    ∀ {xs : List α} {ys : List β}, xs.mapM f = .ok ys → ∃ zs, xs.mapM g = .ok zs := by
  intro xs
  induction xs with
  | nil => exact fun _ => ⟨[], rfl⟩
  | cons x xs ih =>
    intro ys h
    rw [List.mapM_cons] at h
    obtain ⟨b, hb, h⟩ := bind_ok h
    obtain ⟨bs, hbs, -⟩ := bind_ok h
    obtain ⟨c, hc⟩ := hfg hb
    obtain ⟨cs, hcs⟩ := ih hbs
    refine ⟨c :: cs, ?_⟩
    rw [List.mapM_cons, hc, hcs]
    rfl

namespace Settings

variable {s : Settings}

/-- What the filters and mappers are told about does not matter for whether their names are known. -/
theorem Valid.exists_chain (h : s.Valid) (σ : Type) : ∃ chain : Chain σ, s.chain = .ok chain := by
  obtain ⟨chain, hchain⟩ := h.chain
  obtain ⟨filters, hfilters, hchain⟩ := bind_ok hchain
  obtain ⟨_, hmappers, -⟩ := bind_ok hchain
  obtain ⟨mappers, hmappers⟩ := exists_mapM_of_mapM (Mapper.exists_ofName σ) hmappers
  refine ⟨⟨filters, mappers⟩, ?_⟩
  rw [Settings.chain, Chain.ofNames, hfilters, hmappers]
  rfl

end Settings

/-! ## Worker pools -/

namespace Executor

/-- There are single-worker pools, as many as the index of a key is taken from, and every record has a pool. -/
structure Housed (e : Executor) : Prop where
  some : e.settings.isolated ≠ 0
  all : e.isolated.length = e.settings.isolated
  pool : ∀ r, ∃ p, e.pool? (e.settings.lane r) = .some p

variable {limits : Limits} {s : ExecutorSettings} {e₀ e e' : Executor} {actions : List Action} {a : Action}

@[simp] theorem length_isolated_withPool {lane : Lane} {p : Pool} :
    (e.withPool p lane).isolated.length = e.isolated.length := by
  cases lane with
  | shared => rfl
  | isolated i => exact List.length_set

/-- No step adds a pool or takes one away. -/
theorem Step.length_isolated (h : e.Step a e') : e'.isolated.length = e.isolated.length := by
  cases h <;> simp

theorem housed_of_run (hstart : start limits s = .ok e₀) (hrun : e₀.run actions = .some e) : e.Housed := by
  have hsettings : e.settings = s := (orderly_of_run hstart hrun).recalls.settings
  obtain ⟨-, hsome, heq⟩ := eq_of_start hstart
  have hlength : e.isolated.length = s.isolated := by
    refine run_induction (P := fun _ e => e.isolated.length = s.isolated) ?_ ?_ hrun
    · simp [heq, ofSettings]
    · intro _ _ _ _ _ ih hstep
      exact hstep.length_isolated.trans ih
  refine ⟨?_, ?_, fun r => ?_⟩
  · rw [hsettings]
    exact Nat.ne_of_gt hsome
  · rw [hsettings, hlength]
  · rw [hsettings]
    exact exists_pool hstart hrun r

end Executor

theorem Settings.Valid.check_executor {s : Settings} (h : s.Valid) : s.executor.check = .ok () :=
  Executor.check_eq_ok_iff.2 ⟨h.workers, h.isolated⟩

/-! ## Producers -/

/-- There are producers, and one of them is picked for every record. -/
structure ProducerPool.Serves (pool : ProducerPool) : Prop where
  some : pool.clients.length ≠ 0
  picks : ∀ subscriber key spread, ∃ client ∈ pool.clients, pool.select subscriber key spread = .ok client

namespace Publisher

variable {σ : Type} {w : World σ} {p : Publisher} {registry : Registry} {subscriber : Subscriber}
  {pool : ProducerPool} {s s' : Session σ}

theorem serves_clientIds (hp : p.check = .ok ()) (tenant : String) :
    ProducerPool.Serves ⟨tenant, p.clientIds tenant⟩ := by
  refine ⟨?_, fun subscriber key spread => ProducerPool.exists_select hp tenant subscriber key spread⟩
  intro hnone
  have hsize : p.poolSize = 0 := by simpa [clientIds] using hnone
  rw [check, if_pos hsize] at hp
  simp at hp

/-- A pool that is asked for was kept, or is built now. -/
theorem serves_obtain (hp : p.check = .ok ()) (hs : s.Pooled p)
    (h : p.obtain w registry subscriber s = (.ok pool, s')) : pool.Serves := by
  unfold obtain at h
  split at h
  · simp at h
  · next tenant _ =>
    split at h
    · next kept hkept =>
      obtain ⟨hpool, -⟩ := Prod.mk.inj h
      obtain rfl := Except.ok.inj hpool
      obtain rfl := hs tenant kept hkept
      exact serves_clientIds hp tenant
    · obtain ⟨_, -, rfl, -, -⟩ := build_ok h
      exact serves_clientIds hp tenant

end Publisher

/-! ## Shards -/

namespace Coordinator

variable {total shard : UInt32} {id : String} {instances : List Instance} {x : Instance}

theorem length_distinct (h : instances.Nodup) : (distinct instances).length = instances.length := by
  have hperm : (distinct instances).Perm instances :=
    (List.perm_ext_iff_of_nodup (nodup_distinct instances) h).2 fun _ => mem_distinct
  exact hperm.length_eq

/-- Whose coordinator it is does not matter for what it knows of the others. -/
theorem mem_shardsFor_iff (hne : instances ≠ []) (hcount : (distinct instances).length < UInt32.size)
    (hx : x ∈ instances) :
    shard ∈ (start .average total id instances).current.shardsFor x.id ↔
      shard < total ∧ ownerOf total instances shard = x :=
  mem_owned_iff hne hcount hx

theorem lt_of_mem_shardsFor (hne : instances ≠ []) (hcount : (distinct instances).length < UInt32.size)
    {name : String} (h : shard ∈ (start .average total id instances).current.shardsFor name) : shard < total := by
  by_cases hlisted : ⟨name⟩ ∈ instances
  · exact ((mem_shardsFor_iff hne hcount hlisted).1 h).1
  · have hnone : (start .average total id instances).current.shardsFor name = [] :=
      Strategy.shardsFor_assign_of_not_mem (mt mem_distinct.1 hlisted)
    rw [hnone] at h
    simp at h

theorem existsUnique_owner (hne : instances ≠ []) (hcount : (distinct instances).length < UInt32.size)
    (h : shard < total) :
    ∃! x, x ∈ instances ∧ shard ∈ (start .average total id instances).current.shardsFor x.id := by
  refine ⟨ownerOf total instances shard, ⟨ownerOf_mem hne h, ?_⟩, ?_⟩
  · exact (mem_shardsFor_iff hne hcount (ownerOf_mem hne h)).2 ⟨h, rfl⟩
  · rintro y ⟨hlisted, hshard⟩
    exact ((mem_shardsFor_iff hne hcount hlisted).1 hshard).2.symm

/-- A listed instance has at least the shards of its block. -/
theorem share_le (hcount : (distinct instances).length < UInt32.size) (hx : ⟨id⟩ ∈ instances) :
    total.toNat / (distinct instances).length ≤ (start .average total id instances).owned.toFinset.card := by
  obtain ⟨i, hi, hget⟩ := List.getElem_of_mem (mem_distinct.2 hx)
  have hat : (distinct instances)[i]? = some ⟨id⟩ := by rw [List.getElem?_eq_getElem hi, hget]
  have howned : (start .average total id instances).owned =
      Strategy.averageShards total (UInt32.ofNat (distinct instances).length) (UInt32.ofNat i) :=
    Strategy.shardsFor_assign (nodup_distinct instances) hat
  let n := (distinct instances).length
  let block : Finset ℕ := Finset.Ico (i * (total.toNat / n)) ((i + 1) * (total.toNat / n))
  have hblock : ∀ k ∈ block, k < total.toNat ∧ Strategy.place total.toNat n k = i := by
    intro k hk
    exact (Strategy.place_eq_iff hi).2 (.inl (Finset.mem_Ico.1 hk))
  have hsmall : ∀ k ∈ block, (UInt32.ofNat k).toNat = k := by
    intro k hk
    exact UInt32.toNat_ofNat_of_lt' (Nat.lt_trans (hblock k hk).1 total.toNat_lt)
  have hsubset : block.image UInt32.ofNat ⊆ (start .average total id instances).owned.toFinset := by
    intro shard hshard
    obtain ⟨k, hk, rfl⟩ := Finset.mem_image.1 hshard
    obtain ⟨hlt, hplace⟩ := hblock k hk
    rw [List.mem_toFinset, howned, Strategy.mem_averageShards hi hcount, UInt32.lt_iff_toNat_lt, hsmall k hk]
    exact ⟨hlt, hplace⟩
  have hinj : Set.InjOn UInt32.ofNat block := by
    intro k hk k' hk' heq
    rw [← hsmall k hk, ← hsmall k' hk', heq]
  calc total.toNat / n = block.card := by rw [Nat.card_Ico, Nat.succ_mul, Nat.add_sub_cancel_left]
    _ = (block.image UInt32.ofNat).card := (Finset.card_image_of_injOn hinj).symm
    _ ≤ (start .average total id instances).owned.toFinset.card := Finset.card_le_card hsubset

end Coordinator

/-! ## Retries -/

theorem Environment.natural_lt {bits n : Nat} {text : String} (h : natural bits text = some n) : n < Nat.pow 2 bits := by
  obtain ⟨-, hlt⟩ := Option.filter_eq_some_iff.1 h
  exact of_decide_eq_true hlt

/-- Whatever is told of the longest wait, it is a number of milliseconds of at most 64 bits. -/
theorem Settings.exists_maximum_millis {env : Environment} {s : Settings} (h : ofEnvironment env = .ok s) :
    ∃ n < Nat.pow 2 64, s.retry.maximum = some (.ofMillis n) := by
  -- the settings that are read before it
  iterate 15 obtain ⟨_, -, h⟩ := bind_ok h
  obtain ⟨maximum, hread, h⟩ := bind_ok h
  iterate 18 obtain ⟨_, -, h⟩ := bind_ok h
  obtain rfl := Except.ok.inj h
  show ∃ n < Nat.pow 2 64, maximum = some (.ofMillis n)
  unfold Environment.read at hread
  split at hread
  · exact ⟨5000, by decide, (Except.ok.inj hread).symm⟩
  · next text _ =>
    rcases hnatural : Environment.natural 64 text with _ | n
    · simp [millis, hnatural] at hread
    · simp only [millis, hnatural, Option.map_some] at hread
      exact ⟨n, Environment.natural_lt hnatural, (Except.ok.inj hread).symm⟩

theorem Settings.exists_maximum {env : Environment} {s : Settings} (h : ofEnvironment env = .ok s) :
    ∃ m, s.retry.maximum = some m := by
  obtain ⟨n, -, hn⟩ := exists_maximum_millis h
  exact ⟨_, hn⟩

/-! ## What valid settings are good for -/

namespace Settings

/-- Nothing that is made of settings that are not refused fails, unless the worker pools are larger than can be made:
their sizes have no upper bound, and making them panics then. Nothing divides by zero: there is a single-worker pool for
the index of a key after whatever happens to the pools, a producer in whatever pool a publisher finds or builds in the
course of its life, a shard for a subscriber and an instance for the shards. The instances are counted in 32 bits; as
long as they can be, each shard is given to one of them, and this one has its share. The waits between retries do not
become shorter, and where the settings were read there is a longest one. -/
theorem sound_of_validate {s : Settings} (h : s.validate = .ok ()) :
    (∀ σ : Type, ∃ chain : Chain σ, s.chain = .ok chain) ∧
    (∃ level, ServiceLevel.ofName s.level = .ok level) ∧
    (∃ strategy, Strategy.ofName s.strategy = .ok strategy ∧
      let c := Coordinator.start strategy s.shards s.instanceId s.instances
      s.coordinator = .ok c ∧
      (s.instances.length < UInt32.size →
        UInt32.ofNat (Coordinator.distinct s.instances).length ≠ 0 ∧
        (∀ shard, shard < s.shards → ∃! x, x ∈ s.instances ∧ shard ∈ c.current.shardsFor x.id) ∧
        (∀ id, ∀ shard ∈ c.current.shardsFor id, shard < s.shards) ∧
        s.shards.toNat / s.instances.length ≤ c.owned.toFinset.card)) ∧
    (∀ limits : Executor.Limits,
      (s.executor.Within limits → ∃ e₀, Executor.start limits s.executor = .ok e₀ ∧
        ∀ actions e, e₀.run actions = some e → e.Housed) ∧
      (¬s.executor.Within limits → Executor.start limits s.executor = .error .panicked)) ∧
    s.publisher.check = .ok () ∧
    (∀ (σ : Type) (w : World σ) (fits : Nat → Routed → Prop) (session s₁ s₂ : Session σ)
      (sends : List (Routed × String)) (registry : Registry) (subscriber : Subscriber) (pool : ProducerPool),
      s.publisher.Life session sends → session.Moves w s.publisher fits s₁ →
      s.publisher.obtain w registry subscriber s₁ = (.ok pool, s₂) → pool.Serves) ∧
    s.shards ≠ 0 ∧
    1 ≤ s.retry.coefficient ∧
    ∀ env, ofEnvironment env = .ok s → ∃ maximum, s.retry.maximum = some maximum := by
  have hvalid := valid_of_validate h
  have hne : s.instances ≠ [] := List.ne_nil_of_mem hvalid.listed
  have hlength := Coordinator.length_distinct hvalid.distinct
  refine ⟨hvalid.exists_chain, hvalid.level, ?_, ?_, hvalid.check_publisher, ?_, ?_, ?_, fun _ => exists_maximum⟩
  · obtain ⟨⟨⟩, hstrategy⟩ := hvalid.strategy
    refine ⟨.average, hstrategy, ?_, fun hcount => ?_⟩
    · rw [Settings.coordinator, hstrategy]
      rfl
    · have hcount' : (Coordinator.distinct s.instances).length < UInt32.size := by rwa [hlength]
      refine ⟨?_, fun shard => Coordinator.existsUnique_owner hne hcount',
        fun id shard => Coordinator.lt_of_mem_shardsFor hne hcount', ?_⟩
      · intro hzero
        have hsome : 0 < s.instances.length := List.length_pos_iff.2 hne
        have hnat := congrArg UInt32.toNat hzero
        rw [UInt32.toNat_ofNat_of_lt' hcount', hlength] at hnat
        exact absurd hnat (Nat.ne_of_gt hsome)
      · rw [← hlength]
        exact Coordinator.share_le hcount' hvalid.listed
  · refine fun limits => ⟨fun hwithin => ?_, Executor.start_of_not_within hvalid.check_executor⟩
    have hstart := Executor.start_of_within hvalid.check_executor hwithin
    exact ⟨_, hstart, fun _ _ hrun => Executor.housed_of_run hstart hrun⟩
  · intro σ w fits session s₁ s₂ sends registry subscriber pool hlife hmoves hobtain
    exact Publisher.serves_obtain hvalid.check_publisher (hmoves.pooled hlife.pooled) hobtain
  · rintro hzero
    exact absurd hvalid.shards (by simp [hzero])
  · rw [UInt32.le_iff_toNat_le]
    exact Nat.pos_of_ne_zero fun hzero => hvalid.coefficient (UInt32.toNat_inj.1 hzero)

/-! ### Ten shards for three instances, and a queue that is too long -/

/-- What the second of three instances is told. -/
def toldOfThree : Environment :=
  .ofList [("SERVER_INSTANCES", " a, b,,c "), ("INSTANCE_ID", "b"), ("SHARDING_TOTAL_COUNT", "10")]

/-- Its settings. -/
def secondOfThree : Settings :=
  { standard with instances := [⟨"a"⟩, ⟨"b"⟩, ⟨"c"⟩], instanceId := "b", shards := 10 }

theorem ofEnvironment_toldOfThree : ofEnvironment toldOfThree = .ok secondOfThree := by rfl

theorem validate_secondOfThree : secondOfThree.validate = .ok () := by rfl

/-- What a machine of 64 bits can make: queues of 2 ^ 61 - 1 jobs, and lists of 2 ^ 63 - 1 bytes, of which a worker takes
8 and a pool at most 128. -/
def limits64 : Executor.Limits := ⟨2305843009213693951, 1152921504606846975, 72057594037927935⟩

/-- The longest queue that can be asked for. -/
def toldOverlong : Environment := .ofList [("SHARED_EXECUTOR_QUEUE_SIZE", "18446744073709551615")]

/-- With everything else as it is by default. -/
def overlong : Settings := { standard with executor := { standard.executor with queue := 18446744073709551615 } }

theorem ofEnvironment_toldOverlong : ofEnvironment toldOverlong = .ok overlong := by rfl

theorem validate_overlong : overlong.validate = .ok () := by rfl

/-- The second instance has at least three of the ten shards, the last of which is given to one instance. Its worker
pools start; those with a queue of 18446744073709551615 jobs are not refused either, and do not. -/
theorem sound_secondOfThree :
    secondOfThree.validate = .ok () ∧
      (∃ c, secondOfThree.coordinator = .ok c ∧ 3 ≤ c.owned.toFinset.card ∧
        ∃! x, x ∈ secondOfThree.instances ∧ 9 ∈ c.current.shardsFor x.id) ∧
      (∃ e₀, Executor.start limits64 secondOfThree.executor = .ok e₀ ∧ e₀.Housed) ∧
      (∃ maximum, secondOfThree.retry.maximum = some maximum) ∧
      ofEnvironment toldOverlong = .ok overlong ∧ overlong.validate = .ok () ∧
      Executor.start limits64 overlong.executor = .error .panicked := by
  obtain ⟨-, -, ⟨strategy, -, hcoordinator, hshards⟩, hexecutor, -, -, -, -, hmaximum⟩ :=
    sound_of_validate validate_secondOfThree
  obtain ⟨-, hone, -, hshare⟩ := hshards (by decide)
  have hwithin : secondOfThree.executor.Within limits64 := ⟨by decide, by decide, by decide, by decide⟩
  obtain ⟨e₀, hstart, hhoused⟩ := (hexecutor limits64).1 hwithin
  have hoverlong : ¬overlong.executor.Within limits64 := fun h => absurd h.queue (by decide)
  obtain ⟨-, -, -, hpanic, -⟩ := sound_of_validate validate_overlong
  exact ⟨validate_secondOfThree, ⟨_, hcoordinator, hshare, hone 9 (by decide)⟩, ⟨e₀, hstart, hhoused [] e₀ rfl⟩,
    hmaximum toldOfThree ofEnvironment_toldOfThree, ofEnvironment_toldOverlong, validate_overlong,
    (hpanic limits64).2 hoverlong⟩

end Settings

end Relay
