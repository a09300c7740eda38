import Relay.Proofs.Moves
import Relay.Service

/-!
# Services that start

A service starts only with settings that were found valid, and its parts are made from them: the instance is one of
those that share the subscribers, there is a shard to be shared and a producer for each tenant, and the names of the
topics that are provisioned start like those of the topics that are published to.
-/

namespace Relay

theorem bind_ok {ε α β : Type} {x : Except ε α} {f : α → Except ε β} {b : β} (h : (x >>= f) = .ok b) :
    ∃ a, x = .ok a ∧ f a = .ok b := by
  cases x with
  | error e => simp [bind, Except.bind] at h
  | ok a => exact ⟨a, rfl, h⟩

theorem throw_ne_ok {ε α : Type} {e : ε} {a : α} : (throw e : Except ε α) ≠ .ok a := by
  simp [throw, throwThe, MonadExceptOf.throw]

namespace Settings

/-- What holds of settings that are not refused. -/
structure Valid (s : Settings) : Prop where
  batchSize : 0 < s.batchSize
  workers : 0 < s.executor.workers
  queue : 0 < s.executor.queue
  isolated : 0 < s.executor.isolated
  isolatedQueue : 0 < s.executor.isolatedQueue
  poolSize : 0 < s.poolSize
  shards : 0 < s.shards.toNat
  partitions : 0 < s.partitions
  replication : 0 < s.replication
  coefficient : s.retry.coefficient ≠ 0
  distinct : s.instances.Nodup
  listed : ⟨s.instanceId⟩ ∈ s.instances
  level : ∃ level, ServiceLevel.ofName s.level = .ok level
  strategy : ∃ strategy, Strategy.ofName s.strategy = .ok strategy
  chain : ∃ chain : Chain Unit, s.chain = .ok chain

variable {s : Settings}

theorem checkInstances_ok (h : s.checkInstances = .ok ()) : s.instances.Nodup ∧ ⟨s.instanceId⟩ ∈ s.instances := by
  unfold checkInstances at h
  split at h
  · simp at h
  · split at h
    · simp at h
    · next hnone =>
      split at h
      · next hlisted => exact ⟨(duplicate?_eq_none.1 hnone).1, List.contains_iff_mem.1 hlisted⟩
      · simp at h

theorem valid_of_validate (h : s.validate = .ok ()) : s.Valid := by
  obtain ⟨_, hbatch, h⟩ := bind_ok h
  obtain ⟨_, hworkers, h⟩ := bind_ok h
  obtain ⟨_, hqueue, h⟩ := bind_ok h
  obtain ⟨_, hisolated, h⟩ := bind_ok h
  obtain ⟨_, hisolatedQueue, h⟩ := bind_ok h
  obtain ⟨_, hpool, h⟩ := bind_ok h
  obtain ⟨_, hshards, h⟩ := bind_ok h
  obtain ⟨_, hpartitions, h⟩ := bind_ok h
  obtain ⟨_, hreplication, h⟩ := bind_ok h
  simp only at h
  split at h
  · obtain ⟨_, hthrow, -⟩ := bind_ok h
    exact absurd hthrow throw_ne_ok
  · next hcoefficient =>
    obtain ⟨_, hinstances, h⟩ := bind_ok h
    obtain ⟨level, hlevel, h⟩ := bind_ok h
    obtain ⟨strategy, hstrategy, h⟩ := bind_ok h
    obtain ⟨chain, hchain, -⟩ := bind_ok h
    obtain ⟨hdistinct, hlisted⟩ := checkInstances_ok hinstances
    exact ⟨positive_eq_ok.1 hbatch, positive_eq_ok.1 hworkers, positive_eq_ok.1 hqueue, positive_eq_ok.1 hisolated,
      positive_eq_ok.1 hisolatedQueue, positive_eq_ok.1 hpool, positive_eq_ok.1 hshards,
      positiveInt_eq_ok.1 hpartitions, positiveInt_eq_ok.1 hreplication, hcoefficient, hdistinct, hlisted,
      ⟨level, hlevel⟩, ⟨strategy, hstrategy⟩, ⟨chain, hchain⟩⟩

theorem Valid.check_publisher (h : s.Valid) : s.publisher.check = .ok () :=
  if_neg (Nat.ne_of_gt h.poolSize)

end Settings

namespace Service

variable {settings : Settings} {registry : Registry} {contents : Option Bytes} {service : Service}

/-- The parts of a service are made from its settings. -/
theorem build_ok (h : build settings registry = .ok service) :
    service.registry = registry ∧ settings.coordinator = .ok service.coordinator ∧
      service.provisioner = settings.provisioner ∧ settings.dispatcher = .ok service.dispatcher := by
  obtain ⟨coordinator, hcoordinator, h⟩ := bind_ok h
  split at h
  · obtain ⟨_, -, h⟩ := bind_ok h
    obtain ⟨dispatcher, hdispatcher, h⟩ := bind_ok h
    split at h
    · obtain rfl := Except.ok.inj h
      exact ⟨rfl, ok_of_mapError hcoordinator, rfl, ok_of_mapError hdispatcher⟩
    · exact absurd h throw_ne_ok
  · exact absurd h throw_ne_ok

/-- A service that started shares the subscribers with the running instances, of which it is one, and provisions the
topics that it publishes to. -/
theorem start_ok (h : start settings contents = .ok service) :
    settings.Valid ∧ ⟨settings.instanceId⟩ ∈ settings.instances ∧ 1 ≤ settings.shards ∧
      service.coordinator = .start .average settings.shards settings.instanceId settings.instances ∧
      service.dispatcher.publisher.check = .ok () ∧
      service.provisioner.lead = service.dispatcher.publisher.lead := by
  obtain ⟨_, hvalidate, h⟩ := bind_ok h
  obtain ⟨registry, -, h⟩ := bind_ok h
  have hvalid := Settings.valid_of_validate (ok_of_mapError hvalidate)
  obtain ⟨-, hcoordinator, hprovisioner, hdispatcher⟩ := build_ok h
  obtain ⟨strategy, -, hcoordinator⟩ := bind_ok hcoordinator
  obtain ⟨_, -, hdispatcher⟩ := bind_ok hdispatcher
  obtain ⟨_, -, hdispatcher⟩ := bind_ok hdispatcher
  obtain ⟨level, -, hdispatcher⟩ := bind_ok hdispatcher
  have hpublisher : service.dispatcher.publisher = settings.publisher :=
    congrArg Dispatcher.publisher (Except.ok.inj hdispatcher).symm
  refine ⟨hvalid, hvalid.listed, UInt32.le_iff_toNat_le.2 hvalid.shards, ?_, ?_, ?_⟩
  · cases strategy
    exact (Except.ok.inj hcoordinator).symm
  · rw [hpublisher]
    exact hvalid.check_publisher
  · rw [hpublisher, hprovisioner]
    rfl

end Service

end Relay
