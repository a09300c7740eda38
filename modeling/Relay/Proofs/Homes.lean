import Mathlib.Logic.Relation
import Relay.Proofs.Connections
import Relay.Proofs.Convergence
import Relay.Proofs.FleetContract
import Relay.Proofs.Shards

/-!
# Records are published where topics were provisioned

Provisioning and publishing look up the cluster of a subscriber's tenant on their own, and each makes up the name of
the topic. They agree: if all instances could provision the subscribers that they are responsible for, every registered
subscriber has its topic on the cluster to which its messages are sent, whichever instance sends them. Nothing is
needed of the clusters but that topics which were created or listed exist, and that nobody deletes topics.
-/

namespace Relay

/-! ## Calls -/

/-- Clusters before and after a call. -/
inductive Admin.Asks {σ : Type} (a : Admin σ) (s : σ) : σ → Prop where
  | connect (source : Source) : a.Asks s (a.connect source s).2
  | list (servers : String) : a.Asks s (a.list servers s).2
  | create (servers : String) (topics : SortedMap String TopicSpec) : a.Asks s (a.create servers topics s).2
  | describe (servers : String) (names : List String) : a.Asks s (a.describe servers names s).2
  | revise (servers : String) (settings : SortedMap String Overrides) : a.Asks s (a.revise servers settings s).2
  | replace (servers : String) (settings : SortedMap String Overrides) : a.Asks s (a.replace servers settings s).2

/-- Topics that exist stay, whatever is asked for and whether or not it works; topics exist if they were listed or
created. -/
structure Admin.Retains {σ : Type} (a : Admin σ) (has : σ → String → String → Prop) : Prop where
  stays : ∀ {s s' servers topic}, a.Asks s s' → has s servers topic → has s' servers topic
  listed : ∀ {s s' servers names}, a.list servers s = (some (.ok names), s') → ∀ topic ∈ names, has s' servers topic
  created : ∀ {s s' servers topics}, a.create servers topics s = (some (.ok ()), s') →
    ∀ topic, topics.get? topic ≠ none → has s' servers topic

section Calls

variable {σ : Type} {a : Admin σ} {p : Provisioner} {registry : Registry} {servers : String} {s s' s'' : Provisioning σ}

/-- Nothing but calls was made between two states of provisioning. -/
def Provisioning.Asked (a : Admin σ) (s s' : Provisioning σ) : Prop :=
  Relation.ReflTransGen a.Asks s.clusters s'.clusters

namespace Provisioning.Asked

theorem refl (s : Provisioning σ) : s.Asked a s := Relation.ReflTransGen.refl

theorem trans (h : s.Asked a s') (h' : s'.Asked a s'') : s.Asked a s'' := Relation.ReflTransGen.trans h h'

theorem connect {source : Source} {result : Except AdminError Unit}
    (h : Provisioner.connect a source s = (result, s')) : s.Asked a s' := by
  unfold Provisioner.connect at h
  split at h
  · obtain ⟨-, rfl⟩ := Prod.mk.inj h
    exact refl s
  · have hasked : a.Asks s.clusters (a.connect source s.clusters).2 := .connect source
    split at h
    · next heq =>
      rw [heq] at hasked
      obtain ⟨-, rfl⟩ := Prod.mk.inj h
      exact Relation.ReflTransGen.single hasked
    · next heq =>
      rw [heq] at hasked
      obtain ⟨-, rfl⟩ := Prod.mk.inj h
      exact Relation.ReflTransGen.single hasked

theorem list {result : Except AdminError (List String)} (h : Provisioner.list a p servers s = (result, s')) :
    s.Asked a s' := by
  obtain ⟨-, rfl⟩ := Prod.mk.inj h
  exact Relation.ReflTransGen.single (.list servers)

theorem create {topics : SortedMap String TopicSpec} {result : Except AdminError Unit}
    (h : Provisioner.create a p servers topics s = (result, s')) : s.Asked a s' := by
  unfold Provisioner.create at h
  split at h
  · obtain ⟨-, rfl⟩ := Prod.mk.inj h
    exact refl s
  · obtain ⟨-, rfl⟩ := Prod.mk.inj h
    exact Relation.ReflTransGen.single (.create servers topics)

theorem describe {names : List String} {result : Except AdminError (SortedMap String (List TopicSetting))}
    (h : Provisioner.describe a p servers names s = (result, s')) : s.Asked a s' := by
  obtain ⟨-, rfl⟩ := Prod.mk.inj h
  exact Relation.ReflTransGen.single (.describe servers names)

theorem revise {settings : SortedMap String Overrides} {result : Except AdminError Unit}
    (h : Provisioner.revise a p servers settings s = (result, s')) : s.Asked a s' := by
  obtain ⟨-, rfl⟩ := Prod.mk.inj h
  exact Relation.ReflTransGen.single (.revise servers settings)

theorem replace {settings : SortedMap String Overrides} {result : Except AdminError Unit}
    (h : Provisioner.replace a p servers settings s = (result, s')) : s.Asked a s' := by
  obtain ⟨-, rfl⟩ := Prod.mk.inj h
  exact Relation.ReflTransGen.single (.replace servers settings)

theorem alter {settings : SortedMap String Overrides} {described : SortedMap String (List TopicSetting)}
    {result : Except AdminError Unit} (h : Provisioner.alter a p servers settings described s = (result, s')) :
    s.Asked a s' := by
  unfold Provisioner.alter at h
  split at h
  · obtain ⟨-, rfl⟩ := Prod.mk.inj h
    exact refl s
  · split at h
    · next hrevise => exact (revise hrevise).trans (replace h)
    · next hrevise =>
      obtain ⟨-, rfl⟩ := Prod.mk.inj h
      exact revise hrevise

theorem converge {topics : SortedMap String TopicSpec} {report : ProvisionReport}
    {result : Except AdminError ProvisionReport}
    (h : Provisioner.converge a p servers topics report s = (result, s')) : s.Asked a s' := by
  unfold Provisioner.converge at h
  split at h
  · obtain ⟨-, rfl⟩ := Prod.mk.inj h
    exact refl s
  · split at h
    · next hdescribe =>
      obtain ⟨-, rfl⟩ := Prod.mk.inj h
      exact describe hdescribe
    · next hdescribe =>
      simp only at h
      split at h
      · next halter =>
        obtain ⟨-, rfl⟩ := Prod.mk.inj h
        exact (describe hdescribe).trans (alter halter)
      · next halter =>
        obtain ⟨-, rfl⟩ := Prod.mk.inj h
        exact (describe hdescribe).trans (alter halter)

theorem provisionOn {topics : SortedMap String TopicSpec} {report : ProvisionReport}
    {result : Except AdminError ProvisionReport}
    (h : Provisioner.provisionOn a p servers topics report s = (result, s')) : s.Asked a s' := by
  unfold Provisioner.provisionOn at h
  split at h
  · obtain ⟨-, rfl⟩ := Prod.mk.inj h
    exact refl s
  · split at h
    · next hlist =>
      obtain ⟨-, rfl⟩ := Prod.mk.inj h
      exact list hlist
    · next hlist =>
      simp only at h
      split at h
      · next hcreate =>
        obtain ⟨-, rfl⟩ := Prod.mk.inj h
        exact (list hlist).trans (create hcreate)
      · next hcreate => exact ((list hlist).trans (create hcreate)).trans (converge h)

theorem provisionShares {shares : List Share} {report : ProvisionReport} {result : Except AdminError ProvisionReport}
    (h : Provisioner.provisionShares a p shares report s = (result, s')) : s.Asked a s' := by
  induction shares generalizing s report with
  | nil =>
    obtain ⟨-, rfl⟩ := Prod.mk.inj h
    exact refl s
  | cons share rest ih =>
    rw [Provisioner.provisionShares] at h
    split at h
    · next hconnect =>
      obtain ⟨-, rfl⟩ := Prod.mk.inj h
      exact connect hconnect
    · next hconnect =>
      split at h
      · next hon =>
        obtain ⟨-, rfl⟩ := Prod.mk.inj h
        exact (connect hconnect).trans (provisionOn hon)
      · next hon => exact ((connect hconnect).trans (provisionOn hon)).trans (ih h)

theorem provision {pipeline : String} {subscribers : List Subscriber} {result : Except AdminError ProvisionReport}
    (h : p.provision a registry pipeline subscribers s = (result, s')) : s.Asked a s' := by
  unfold Provisioner.provision at h
  split at h
  · obtain ⟨-, rfl⟩ := Prod.mk.inj h
    exact refl s
  · exact provisionShares h

theorem tally (pipeline : String) (result : Except AdminError ProvisionReport) (s : Provisioning σ) :
    s.Asked a (Provisioner.tally pipeline result s) := by
  cases result <;> exact refl s

theorem provisionEach (a : Admin σ) (p : Provisioner) (registry : Registry) (pipelines : List (String × List Subscriber))
    (s : Provisioning σ) : s.Asked a (p.provisionEach a registry pipelines s).2 := by
  induction pipelines generalizing s with
  | nil => exact refl s
  | cons e rest ih => exact ((provision rfl).trans (tally e.1 _ _)).trans (ih _)

end Provisioning.Asked

/-! ## Topics that exist -/

namespace Admin.Retains

variable {has : σ → String → String → Prop}

theorem asked (ha : a.Retains has) (h : s.Asked a s') {topic : String} (hhas : has s.clusters servers topic) :
    has s'.clusters servers topic := by
  unfold Provisioning.Asked at h
  generalize s'.clusters = after at h ⊢
  induction h with
  | refl => exact hhas
  | tail _ hcall ih => exact ha.stays hcall ih

/-- A topic is listed or created, if provisioning it works. -/
theorem provisionOn (ha : a.Retains has) {topics : SortedMap String TopicSpec} {report report' : ProvisionReport}
    (h : Provisioner.provisionOn a p servers topics report s = (.ok report', s')) {topic : String}
    (ht : topics.get? topic ≠ none) : has s'.clusters servers topic := by
  rcases Provisioner.provisionOn_ok h with ⟨hempty, -, -⟩ | ⟨existing, s₁, s₂, hlist, hcreate, hconverge⟩
  · exact absurd ((SortedMap.isEmpty_iff topics).1 hempty topic) ht
  · by_cases hin : topic ∈ existing
    · obtain ⟨clusters, hcall, rfl⟩ := Provisioner.list_ok hlist
      have hlisted : has (s.log servers .list clusters).clusters servers topic := ha.listed hcall topic hin
      exact ha.asked ((Provisioning.Asked.create hcreate).trans (.converge hconverge)) hlisted
    · have hmissing : (topics.filter fun topic _ => !existing.contains topic).get? topic ≠ none := by
        rwa [Provisioner.get?_missing, if_neg hin]
      refine ha.asked (.converge hconverge) ?_
      rcases Provisioner.create_ok hcreate with ⟨hempty, -⟩ | ⟨-, clusters, hcall, rfl⟩
      · exact absurd ((SortedMap.isEmpty_iff _).1 hempty topic) hmissing
      · exact ha.created hcall topic hmissing

theorem provisionShares (ha : a.Retains has) {shares : List Share} {report report' : ProvisionReport}
    (h : Provisioner.provisionShares a p shares report s = (.ok report', s')) :
    ∀ share ∈ shares, ∀ topic, share.topics.get? topic ≠ none → has s'.clusters share.source.servers topic := by
  induction shares generalizing s report with
  | nil => simp
  | cons share rest ih =>
    rw [Provisioner.provisionShares] at h
    split at h
    · simp at h
    · split at h
      · simp at h
      · next hon =>
        exact List.forall_mem_cons.2
          ⟨fun topic ht => ha.asked (.provisionShares h) (ha.provisionOn hon ht), ih h⟩

/-- If a pipeline could be provisioned, its subscribers have clusters, and their topics exist there. -/
theorem provision (ha : a.Retains has) {pipeline : String} {subscribers : List Subscriber} {report : ProvisionReport}
    (h : p.provision a registry pipeline subscribers s = (.ok report, s')) :
    ∀ x ∈ subscribers, ∃ source, Provisioner.source registry pipeline x = .ok source ∧
      has s'.clusters source.servers (checkpointTopic p.lead pipeline x.id) := by
  unfold Provisioner.provision at h
  split at h
  · simp at h
  · next d hd =>
    obtain ⟨haddressed, hsources, hwanted⟩ := Provisioner.desired_ok hd
    intro x hx
    obtain ⟨source, hsource⟩ := hsources x hx
    have hplace : p.place? registry pipeline x = some (source.servers, checkpointTopic p.lead pipeline x.id) := by
      simp [Provisioner.place?, hsource]
    obtain ⟨y, hy⟩ := Provisioner.exists_keeper hx hplace
    have hspec := hwanted source.servers (checkpointTopic p.lead pipeline x.id)
    rw [hy, Option.map_some, Desired.wanted?] at hspec
    obtain ⟨share, hshare, htopic⟩ := Option.bind_eq_some_iff.1 hspec
    have hmem : share ∈ d.values := List.mem_map_of_mem ((SortedMap.get?_eq_some_iff d).1 hshare)
    have hhas := ha.provisionShares h share hmem _ (Option.ne_none_iff_exists'.2 ⟨_, htopic⟩)
    rw [haddressed _ _ hshare] at hhas
    exact ⟨source, hsource, hhas⟩

theorem provisionEach (ha : a.Retains has) {pipelines : List (String × List Subscriber)}
    (hok : ∀ r ∈ (p.provisionEach a registry pipelines s).1, ∃ report, r.2 = .ok report) :
    ∀ e ∈ pipelines, ∀ x ∈ e.2, ∃ source, Provisioner.source registry e.1 x = .ok source ∧
      has (p.provisionEach a registry pipelines s).2.clusters source.servers (checkpointTopic p.lead e.1 x.id) := by
  induction pipelines generalizing s with
  | nil => simp
  | cons e rest ih =>
    obtain ⟨⟨report, hreport⟩, hrest⟩ := List.forall_mem_cons.1 hok
    refine List.forall_mem_cons.2 ⟨fun x hx => ?_, ih hrest⟩
    obtain ⟨source, hsource, hhas⟩ := ha.provision (Prod.ext hreport rfl) x hx
    exact ⟨source, hsource, ha.asked ((Provisioning.Asked.tally e.1 _ _).trans (.provisionEach a p registry rest _)) hhas⟩

end Admin.Retains

end Calls

/-! ## Owners -/

/-- Every shard is one of some instance, however many instances there are: if their number does not fit its type,
those at the first places have the shards. -/
theorem Coordinator.exists_owned {total shard : UInt32} {instances : List Instance} (hne : instances ≠ [])
    (h : shard < total) : ∃ x ∈ instances, shard ∈ (start .average total x.id instances).owned := by
  have hpos : 0 < (distinct instances).length := List.length_pos_iff.2 (distinct_ne_nil hne)
  have howned : ∀ i (hi : i < (distinct instances).length),
      shard ∈ Strategy.averageShards total (UInt32.ofNat (distinct instances).length) (UInt32.ofNat i) →
        ∃ x ∈ instances, shard ∈ (start .average total x.id instances).owned := by
    intro i hi hshard
    refine ⟨(distinct instances)[i], mem_distinct.1 (List.getElem_mem hi), ?_⟩
    have hx := List.getElem?_eq_getElem hi
    have heq : (start .average total (distinct instances)[i].id instances).owned = _ :=
      Strategy.shardsFor_assign (nodup_distinct instances) hx
    rwa [heq]
  have hcount : UInt32.ofNat ((distinct instances).length % UInt32.size) = UInt32.ofNat (distinct instances).length :=
    UInt32.ofNat_mod_size
  have hmod : (distinct instances).length % UInt32.size < UInt32.size := Nat.mod_lt _ (by decide)
  have hle : (distinct instances).length % UInt32.size ≤ (distinct instances).length := Nat.mod_le ..
  rw [← hcount] at howned
  by_cases hzero : (distinct instances).length % UInt32.size = 0
  -- the share of an instance is then zero, and every shard is left over
  · have hlarge : UInt32.size ≤ (distinct instances).length := Nat.le_of_dvd hpos (Nat.dvd_of_mod_eq_zero hzero)
    have hlt : shard.toNat < (distinct instances).length := Nat.lt_of_lt_of_le shard.toNat_lt hlarge
    refine howned shard.toNat hlt ?_
    rw [hzero]
    simp [Strategy.averageShards, h]
  · have hplace : Strategy.place total.toNat ((distinct instances).length % UInt32.size) shard.toNat <
        (distinct instances).length % UInt32.size :=
      Strategy.place_lt (Nat.pos_of_ne_zero hzero) (UInt32.lt_iff_toNat_lt.1 h)
    exact howned _ (Nat.lt_of_lt_of_le hplace hle) ((Strategy.mem_averageShards hplace hmod).2 ⟨h, rfl⟩)

/-- A registered subscriber is provisioned with its pipeline by the instance that has its shard. -/
theorem Registry.mem_owned {registry : Registry} {pipeline : String} {x : Subscriber}
    (hx : x ∈ registry.subscribers pipeline) {c : Coordinator} (howns : c.owns x.id = true) :
    ∃ e ∈ (registry.owned c).entries, e.1 = pipeline ∧ x ∈ e.2 := by
  unfold Registry.subscribers at hx
  cases hget : registry.pipelines.get? pipeline with
  | none => simp [hget] at hx
  | some content =>
    rw [hget] at hx
    have howned : (registry.owned c).get? pipeline = some (content.subscribers.filter fun s => c.owns s.id) := by
      simp [Registry.owned, Directory.sharded, Registry.directory, Registry.all, SortedMap.get?_map, hget]
    exact ⟨_, (SortedMap.get?_eq_some_iff _).1 howned, rfl, List.mem_filter.2 ⟨hx, howns⟩⟩

theorem Provisioner.source_ok {registry : Registry} {pipeline : String} {x : Subscriber} {source : Source}
    (h : Provisioner.source registry pipeline x = .ok source) :
    ∃ tenant, x.tenant = .ok tenant ∧ registry.source? pipeline tenant = some source := by
  unfold Provisioner.source at h
  split at h
  · simp at h
  · next tenant htenant =>
    split at h
    · simp at h
    · next source' hsource =>
      obtain rfl := Except.ok.inj h
      exact ⟨tenant, htenant, hsource⟩

/-! ## Agreement -/

/-- An instance provisions every pipeline for the subscribers that it is responsible for among the running instances. -/
def Provisioner.provisionOwned {σ : Type} (a : Admin σ) (p : Provisioner) (registry : Registry) (total : UInt32)
    (instances : List Instance) (x : Instance) (s : Provisioning σ) :
    List (String × Except AdminError ProvisionReport) × Provisioning σ :=
  p.provisionAll a registry (registry.owned (.start .average total x.id instances)) s

/-- Let every running instance provision the subscribers that it is responsible for, each at a time of its own, with
success for every pipeline, and let what existed then exist now. Then every registered subscriber of a publisher's
pipeline has a tenant with a cluster, and on this cluster the topic exists to which the publisher, which runs at one of
the instances, sends the records of the subscriber. Whatever the publisher did before, such a record goes to this topic
through a producer that was created for this cluster and never for another one, unless it goes nowhere because a
producer could not be created for this cluster. -/
theorem published_where_provisioned {σ τ : Type} {a : Instance → Admin σ} {has : σ → String → String → Prop}
    (ha : ∀ x, (a x).Retains has) (registry : Registry) {total : UInt32} (htotal : 1 ≤ total)
    {instances : List Instance} {host : Instance} (hhost : host ∈ instances) (p : Instance → Provisioner)
    (s : Instance → Provisioning σ) (q : Publisher) (hq : q.check = .ok ())
    (hlead : ∀ x ∈ instances, (p x).lead = q.lead)
    (hok : ∀ x ∈ instances, ∀ r ∈ ((p x).provisionOwned (a x) registry total instances x (s x)).1,
      ∃ report, r.2 = .ok report) {now : String → String → Prop}
    (hnow : ∀ x ∈ instances, ∀ servers topic,
      has ((p x).provisionOwned (a x) registry total instances x (s x)).2.clusters servers topic →
        now servers topic) :
    ∀ subscriber ∈ registry.subscribers q.pipeline, ∃ tenant source,
      subscriber.tenant = .ok tenant ∧ registry.source? q.pipeline tenant = some source ∧
      now source.servers (q.topic subscriber) ∧
      ∀ t : Session τ, q.Run registry t → ∀ (w : World τ) (slot : Nat) (times : UInt32) (r : Routed)
        (value : Json.Value), r.subscriber = subscriber →
          let (result, t') := q.send w registry slot times r value t
          (∃ x outcome rest, t'.journal = .sent x outcome :: rest ∧ x.message.topic = q.topic subscriber ∧
            t'.ConnectedTo source.servers x.client) ∨
          ∃ e client rest, result = .error e ∧
            t'.journal = .unsent slot times e :: .created source.servers client false :: rest := by
  intro subscriber hsubscriber
  -- the subscriber was provisioned by the instance that has its shard
  obtain ⟨x, hx, hshard⟩ := Coordinator.exists_owned (List.ne_nil_of_mem hhost)
    (subscriberShard_lt htotal subscriber.id)
  have howns : (Coordinator.start .average total x.id instances).owns subscriber.id = true :=
    List.contains_iff_mem.2 hshard
  obtain ⟨e, he, hpipeline, hmem⟩ := Registry.mem_owned hsubscriber howns
  obtain ⟨source, hsource, hhas⟩ := (ha x).provisionEach (hok x hx) e he subscriber hmem
  rw [hpipeline] at hsource hhas
  rw [hlead x hx] at hhas
  obtain ⟨tenant, htenant, hregistered⟩ := Provisioner.source_ok hsource
  refine ⟨tenant, source, htenant, hregistered, hnow x hx _ _ hhas, ?_⟩
  rintro t ht w slot times r value rfl
  rcases ht.sends hq htenant hregistered w slot times value rfl with
    ⟨client, outcome, rest, hjournal, hconnected⟩ | hfailed
  · exact .inl ⟨_, outcome, rest, hjournal, rfl, hconnected⟩
  · exact .inr hfailed

namespace Fleet

/-- Whether a topic exists on a cluster of a fleet. -/
def Has (fleet : Fleet) (servers topic : String) : Prop := view fleet servers topic ≠ none

section Kept

variable {fleet fleet' : Fleet} {servers topic : String} {c : Cluster}

theorem has_insert (hc : fleet.get? servers = some c) {c' : Cluster}
    (hkept : ∀ topic, c.topics.get? topic ≠ none → c'.topics.get? topic ≠ none) {other : String}
    (h : fleet.Has other topic) : Has (fleet.insert servers c') other topic := by
  unfold Has at h ⊢
  rw [view_insert]
  split
  · next heq =>
    simp only [view, heq, hc, Option.bind_some, ne_eq, Option.map_eq_none_iff] at h ⊢
    exact hkept topic h
  · exact h

/-- A cluster that is asked for something keeps its topics, if the clusters do. -/
theorem has_ask {α : Type} {f : Cluster → Reply α × Cluster}
    (hkept : ∀ (c : Cluster) topic, c.topics.get? topic ≠ none → (f c).2.topics.get? topic ≠ none) {other : String}
    (h : fleet.Has other topic) : Has (ask servers f fleet).2 other topic := by
  unfold ask
  split
  · exact h
  · next c hc => exact has_insert hc (hkept c) h

theorem reply_kept {α : Type} (c : Cluster) (task : AdminTask) (result : Except AdminError α) {after : Cluster}
    (hkept : ∀ topic, c.topics.get? topic ≠ none → after.topics.get? topic ≠ none) (topic : String)
    (h : c.topics.get? topic ≠ none) : (c.reply task result after).2.topics.get? topic ≠ none := by
  unfold Cluster.reply
  split
  · exact h
  · exact h
  · exact hkept topic h

theorem create_kept (c : Cluster) (topics : SortedMap String TopicSpec) (topic : String)
    (h : c.topics.get? topic ≠ none) : (c.create topics).topics.get? topic ≠ none := by
  rw [get?_create]
  exact fun hnone => h (Option.or_eq_none_iff.1 hnone).1

theorem change_kept (f : ClusterTopic → Overrides → ClusterTopic) (settings : SortedMap String Overrides)
    (c : Cluster) (topic : String) (h : c.topics.get? topic ≠ none) :
    (c.change f settings).topics.get? topic ≠ none := by
  rw [get?_change]
  exact fun hnone => h (Option.map_eq_none_iff.1 hnone)

end Kept

/-- Nothing that can be asked of a fleet deletes a topic. -/
theorem retains : Fleet.admin.Retains Has where
  stays := by
    intro fleet fleet' servers topic hcall h
    cases hcall with
    | connect source => exact h
    | list servers => exact has_ask (fun c => reply_kept c .list _ fun _ h => h) h
    | create servers topics => exact has_ask (fun c => reply_kept c .create _ (create_kept c topics)) h
    | describe servers names => exact has_ask (fun c => reply_kept c .describe _ fun _ h => h) h
    | revise servers settings =>
      refine has_ask (f := fun c =>
        if c.revisable then c.reply .revise (.ok ()) (c.change ClusterTopic.revise settings)
        else c.reply .revise (.error (.unsupported "IncrementalAlterConfigs")) c) (fun c topic hc => ?_) h
      split
      · exact reply_kept c .revise _ (change_kept ClusterTopic.revise settings c) topic hc
      · exact reply_kept c .revise _ (fun _ h => h) topic hc
    | replace servers settings =>
      exact has_ask (fun c => reply_kept c .replace _ (change_kept ClusterTopic.replace settings c)) h
  listed := by
    intro fleet fleet' servers names h topic htopic
    obtain ⟨c, c', hc, hreply, rfl⟩ := ask_eq h
    obtain ⟨hnames, rfl⟩ := reply_ok hreply
    obtain rfl := Except.ok.inj hnames
    rw [Has, view_insert, if_pos rfl, Ne, Option.map_eq_none_iff]
    exact (SortedMap.mem_keys_iff _ _).1 htopic
  created := by
    intro fleet fleet' servers topics h topic htopic
    obtain ⟨c, c', hc, hreply, rfl⟩ := ask_eq h
    obtain ⟨-, rfl⟩ := reply_ok hreply
    rw [Has, view_insert, if_pos rfl, Ne, Option.map_eq_none_iff, get?_create, Option.or_eq_none_iff,
      Option.map_eq_none_iff]
    exact fun hnone => htopic hnone.2

/-- Topics that existed when an instance began to provision still exist afterwards. -/
theorem has_provisionOwned (p : Provisioner) (registry : Registry) (total : UInt32) (instances : List Instance)
    (x : Instance) (fleet : Fleet) (servers topic : String) (h : fleet.Has servers topic) :
    Has (p.provisionOwned Fleet.admin registry total instances x (.start fleet)).2.clusters servers topic :=
  retains.asked (.provisionEach Fleet.admin p registry _ (.start fleet)) h

end Fleet

namespace Homes

/-- Two clusters, of which one has a topic already. -/
def fleet : Fleet := .ofList [("c", ⟨true, .empty, [], []⟩), ("d", ⟨true, .ofList [("topic-s1", ⟨3, 1, []⟩)], [], []⟩)]

/-- A subscriber of a tenant. -/
def subscriber (id tenant : String) : Subscriber := ⟨id, ⟨false, .all, [⟨tenant, none, []⟩]⟩, .standard⟩

def registry : Registry :=
  ⟨.ofList [("", ⟨[subscriber "s1" "u", subscriber "x" "t"], .ofList [("t", ⟨"c"⟩), ("u", ⟨"d"⟩)]⟩)]⟩

def instances : List Instance := [⟨"a"⟩, ⟨"b"⟩]

def provisioner : Provisioner := ⟨"topic-", 10, 2, default⟩

def publisher : Publisher := ⟨"", "topic-", 2, default⟩

/-- One instance provisions. -/
def first : List (String × Except AdminError ProvisionReport) × Provisioning Fleet :=
  provisioner.provisionOwned Fleet.admin registry 2 instances ⟨"a"⟩ (.start fleet)

/-- The other one provisions after it. -/
def second : List (String × Except AdminError ProvisionReport) × Provisioning Fleet :=
  provisioner.provisionOwned Fleet.admin registry 2 instances ⟨"b"⟩ (.start first.2.clusters)

/-- What an instance starts with. -/
def begun (x : Instance) : Provisioning Fleet := if x.id = "a" then .start fleet else .start first.2.clusters

/-- A record for the subscriber of the second instance. -/
def routed : Routed := ⟨subscriber "x" "t", ⟨⟨⟨"", 0⟩, 0⟩, none, [], .null⟩⟩

def sent : Except PublishError Shipment × Session Unit :=
  publisher.send Orders.oldest registry 0 0 routed .null (.start ())

theorem runs {x : Instance} (hx : x ∈ instances) :
    provisioner.provisionOwned Fleet.admin registry 2 instances x (begun x) = first ∨
      provisioner.provisionOwned Fleet.admin registry 2 instances x (begun x) = second := by
  rcases List.mem_pair.1 hx with rfl | rfl
  · left
    rw [begun, if_pos rfl, first]
  · right
    rw [begun, if_neg (by decide), second]

/-- One instance finds a topic and the other one makes one, and a record goes to the cluster where that was made. -/
theorem sent_home :
    first.1 = [("", .ok ⟨[], ["topic-s1"], []⟩)] ∧ second.1 = [("", .ok ⟨["topic-x"], [], []⟩)] ∧
      Fleet.Has second.2.clusters "d" "topic-s1" ∧ Fleet.Has second.2.clusters "c" "topic-x" ∧
      ∃ x outcome rest, sent.2.journal = .sent x outcome :: rest ∧ x.message.topic = "topic-x" ∧
        sent.2.ConnectedTo "c" x.client := by
  have hfirst : first.1 = [("", .ok ⟨[], ["topic-s1"], []⟩)] := by decide +kernel
  have hsecond : second.1 = [("", .ok ⟨["topic-x"], [], []⟩)] := by decide +kernel
  have hok : ∀ x ∈ instances, ∀ r ∈ (provisioner.provisionOwned Fleet.admin registry 2 instances x (begun x)).1,
      ∃ report, r.2 = .ok report := by
    intro x hx
    rcases runs hx with hrun | hrun
    · rw [hrun, hfirst]
      exact List.forall_mem_singleton.2 ⟨_, rfl⟩
    · rw [hrun, hsecond]
      exact List.forall_mem_singleton.2 ⟨_, rfl⟩
  have hnow : ∀ x ∈ instances, ∀ servers topic,
      Fleet.Has (provisioner.provisionOwned Fleet.admin registry 2 instances x (begun x)).2.clusters servers topic →
        Fleet.Has second.2.clusters servers topic := by
    intro x hx servers topic
    rcases runs hx with hrun | hrun
    · rw [hrun, second]
      exact Fleet.has_provisionOwned provisioner registry 2 instances ⟨"b"⟩ first.2.clusters servers topic
    · rw [hrun]
      exact fun hhas => hhas
  have hagree := @published_where_provisioned Fleet Unit _ _ (fun _ => Fleet.retains) registry 2 (by decide) instances ⟨"a"⟩
    (by decide) (fun _ => provisioner) begun publisher rfl (fun _ _ => rfl) hok _ hnow
  obtain ⟨tenant, source, htenant, hsource, hhas, -⟩ := hagree (subscriber "s1" "u") List.mem_cons_self
  obtain ⟨tenant', source', htenant', hsource', hhas', hsends⟩ :=
    hagree (subscriber "x" "t") (List.mem_cons_of_mem _ List.mem_cons_self)
  obtain rfl : "u" = tenant := Except.ok.inj htenant
  obtain rfl : "t" = tenant' := Except.ok.inj htenant'
  have hu : registry.source? "" "u" = some ⟨"d"⟩ := rfl
  have ht : registry.source? "" "t" = some ⟨"c"⟩ := rfl
  obtain rfl := Option.some.inj (hu.symm.trans hsource)
  obtain rfl := Option.some.inj (ht.symm.trans hsource')
  refine ⟨hfirst, hsecond, hhas, hhas', ?_⟩
  rcases hsends (.start ()) (.start ()) Orders.oldest 0 0 routed .null rfl with hsent | ⟨e, client, rest, hfailed, -⟩
  · exact hsent
  · have hworks : sent.1.isOk = true := rfl
    have hcontra : sent.1 = .error e := hfailed
    rw [hcontra] at hworks
    simp [Except.isOk, Except.toBool] at hworks

end Homes

end Relay
