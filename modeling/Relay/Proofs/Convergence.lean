import Relay.Proofs.FleetContract

/-!
# Provisioning converges

What is wanted for a list of subscribers is, for every cluster and topic, what the last of them with that topic on that
cluster wants (`desired_ok`). A run over what is wanted leaves every cluster provisioned. So after a run that succeeds
the topic of every subscriber is there, with the retention of the last subscriber that has it, and everything else is
as it was before, from whatever state the run started.
-/

namespace Relay

/-- What is wanted of a topic of a cluster. -/
def Desired.wanted? (d : Desired) (servers topic : String) : Option TopicSpec :=
  (d.get? servers).bind fun share => share.topics.get? topic

/-- The topics that are wanted of a cluster. -/
def Desired.topics (d : Desired) (servers : String) : SortedMap String TopicSpec :=
  ((d.get? servers).map (·.topics)).getD .empty

theorem Desired.get?_topics (d : Desired) (servers topic : String) :
    (d.topics servers).get? topic = d.wanted? servers topic := by
  unfold topics wanted?
  cases d.get? servers <;> rfl

/-- Every cluster is listed under its addresses. -/
def Desired.Addressed (d : Desired) : Prop := ∀ servers share, d.get? servers = some share → share.source.servers = servers

namespace Provisioner

variable {p : Provisioner} {registry : Registry} {pipeline : String} {subscribers : List Subscriber} {d d' : Desired}

/-- The cluster and the topic of a subscriber. -/
def place? (p : Provisioner) (registry : Registry) (pipeline : String) (s : Subscriber) : Option (String × String) :=
  match source registry pipeline s with
  | .error _ => none
  | .ok source => some (source.servers, checkpointTopic p.lead pipeline s.id)

/-- The last of several subscribers with a topic on a cluster. -/
def keeper? (p : Provisioner) (registry : Registry) (pipeline : String) (subscribers : List Subscriber)
    (servers topic : String) : Option Subscriber :=
  subscribers.reverse.find? fun s => p.place? registry pipeline s == some (servers, topic)

theorem place?_of_keeper? {servers topic : String} {y : Subscriber}
    (h : p.keeper? registry pipeline subscribers servers topic = some y) :
    y ∈ subscribers ∧ p.place? registry pipeline y = some (servers, topic) :=
  ⟨List.mem_reverse.1 (List.mem_of_find?_eq_some h), by simpa using List.find?_some h⟩

theorem exists_keeper {s : Subscriber} (hs : s ∈ subscribers) {servers topic : String}
    (h : p.place? registry pipeline s = some (servers, topic)) :
    ∃ y, p.keeper? registry pipeline subscribers servers topic = some y := by
  rw [← Option.isSome_iff_exists, keeper?, List.find?_isSome]
  exact ⟨s, List.mem_reverse.2 hs, by simp [h]⟩

/-- The topic of one more subscriber is wanted as the subscriber wants it. -/
theorem wanted?_place (s : Subscriber) (source : Source) (d : Desired) (servers topic : String) :
    (p.place pipeline s source d).wanted? servers topic =
      if servers = source.servers ∧ topic = checkpointTopic p.lead pipeline s.id then some (p.spec s)
      else d.wanted? servers topic := by
  simp only [place, Desired.wanted?, SortedMap.get?_insert, Std.compare_eq_iff_eq]
  by_cases hservers : servers = source.servers
  · by_cases htopic : topic = checkpointTopic p.lead pipeline s.id
    · simp [hservers, htopic]
    · subst hservers
      cases hd : d.get? source.servers <;> simp [htopic]
  · simp [hservers]

theorem addressed_place (hd : d.Addressed) (s : Subscriber) (source : Source) :
    (p.place pipeline s source d).Addressed := by
  intro servers share hshare
  simp only [place, SortedMap.get?_insert, Std.compare_eq_iff_eq] at hshare
  split at hshare
  · next heq =>
    obtain rfl := Option.some.inj hshare
    cases hget : d.get? source.servers with
    | none => exact heq.symm
    | some share => exact (hd _ _ hget).trans heq.symm
  · exact hd _ _ hshare

theorem placeAll_ok (hd : d.Addressed) (h : p.placeAll registry pipeline subscribers d = .ok d') :
    d'.Addressed ∧ (∀ s ∈ subscribers, ∃ source, Provisioner.source registry pipeline s = .ok source) ∧
      ∀ servers topic, d'.wanted? servers topic =
        ((p.keeper? registry pipeline subscribers servers topic).map p.spec).or (d.wanted? servers topic) := by
  induction subscribers generalizing d with
  | nil =>
    obtain rfl := Except.ok.inj h
    exact ⟨hd, by simp, fun _ _ => rfl⟩
  | cons s rest ih =>
    rw [placeAll] at h
    split at h
    · simp at h
    · next source hsource =>
      obtain ⟨haddressed, hsources, hwanted⟩ := ih (addressed_place hd s source) h
      refine ⟨haddressed, List.forall_mem_cons.2 ⟨⟨source, hsource⟩, hsources⟩, fun servers topic => ?_⟩
      have hkeeper : p.keeper? registry pipeline (s :: rest) servers topic =
          (p.keeper? registry pipeline rest servers topic).or
            (if servers = source.servers ∧ topic = checkpointTopic p.lead pipeline s.id then some s else none) := by
        have hplace : p.place? registry pipeline s =
            some (source.servers, checkpointTopic p.lead pipeline s.id) := by simp [place?, hsource]
        rw [keeper?, List.reverse_cons, List.find?_append, ← keeper?]
        congr 1
        rw [List.find?_singleton, hplace]
        by_cases heq : servers = source.servers ∧ topic = checkpointTopic p.lead pipeline s.id
        · simp [heq.1, heq.2]
        · have hne : (source.servers, checkpointTopic p.lead pipeline s.id) ≠ (servers, topic) :=
            fun he => heq ⟨(congrArg Prod.fst he).symm, (congrArg Prod.snd he).symm⟩
          simp [heq, hne]
      rw [hwanted, wanted?_place, hkeeper]
      cases p.keeper? registry pipeline rest servers topic with
      | some y => rfl
      | none => split <;> rfl

/-- What is wanted is what the last subscriber with a topic on a cluster wants, and every subscriber has a cluster. -/
theorem desired_ok (h : p.desired registry pipeline subscribers = .ok d) :
    d.Addressed ∧ (∀ s ∈ subscribers, ∃ source, Provisioner.source registry pipeline s = .ok source) ∧
      ∀ servers topic, d.wanted? servers topic =
        (p.keeper? registry pipeline subscribers servers topic).map p.spec := by
  have hempty : Desired.Addressed .empty := by
    intro servers share hshare
    simp at hshare
  obtain ⟨haddressed, hsources, hwanted⟩ := placeAll_ok hempty h
  refine ⟨haddressed, hsources, fun servers topic => ?_⟩
  rw [hwanted]
  cases p.keeper? registry pipeline subscribers servers topic <;> rfl

end Provisioner

/-! ## Clusters one after the other -/

namespace Admin.Honours

variable {σ : Type} {a : Admin σ} {Sound : σ → Prop} {view : σ → Topics} {p : Provisioner} {s s' : Provisioning σ}
  {exact : Prop}

theorem connected (ha : a.Honours Sound view) (hs : Sound s.clusters) {source : Source}
    (h : Provisioner.connect a source s = (.ok (), s')) : Sound s'.clusters ∧ view s'.clusters = view s.clusters := by
  rcases Provisioner.connect_ok h with ⟨-, rfl⟩ | ⟨clusters, hcall, rfl⟩
  · exact ⟨hs, rfl⟩
  · have hconnect := ha.connect source hs
    rw [hcall] at hconnect
    exact hconnect

/-- Every cluster of a list is provisioned, and no other one is touched. -/
theorem provisionShares (ha : a.Honours Sound view) (hexact : exact → a.MarksExactly Sound view)
    {shares : List (String × Share)} (hservers : ∀ e ∈ shares, e.2.source.servers = e.1)
    (hdistinct : (shares.map (·.1)).Nodup) {report report' : ProvisionReport} (hs : Sound s.clusters)
    (h : Provisioner.provisionShares a p (shares.map (·.2)) report s = (.ok report', s')) :
    Sound s'.clusters ∧
      (∀ other, other ∉ shares.map (·.1) → view s'.clusters other = view s.clusters other) ∧
      ∀ e ∈ shares, Provisioned exact e.2.topics (view s.clusters e.1) (view s'.clusters e.1) := by
  induction shares generalizing s report with
  | nil =>
    obtain ⟨-, rfl⟩ := Prod.mk.inj h
    exact ⟨hs, fun _ _ => rfl, by simp⟩
  | cons e rest ih =>
    obtain ⟨he, hservers⟩ := List.forall_mem_cons.1 hservers
    obtain ⟨hfresh, hdistinct⟩ := List.nodup_cons.1 hdistinct
    rw [List.map_cons, Provisioner.provisionShares] at h
    split at h
    · simp at h
    · next s₁ hconnect =>
      split at h
      · simp at h
      · next report₁ s₂ hon =>
        obtain ⟨hsound₁, hsame⟩ := ha.connected hs hconnect
        obtain ⟨hsound₂, hothers, hprovisioned⟩ := ha.provisionOn hexact hsound₁ hon
        obtain ⟨hsound₃, hframe, hall⟩ := ih hservers hdistinct hsound₂ h
        rw [hsame, he] at hprovisioned
        rw [hsame, he] at hothers
        refine ⟨hsound₃, fun other hother => ?_, List.forall_mem_cons.2 ⟨?_, fun e' he' => ?_⟩⟩
        · rw [List.map_cons, List.mem_cons, not_or] at hother
          rw [hframe other hother.2, hothers other hother.1]
        · rwa [hframe e.1 hfresh]
        · have hne : e'.1 ≠ e.1 := by
            intro heq
            have hmem : e'.1 ∈ rest.map (·.1) := List.mem_map_of_mem he'
            rw [heq] at hmem
            exact hfresh hmem
          rw [← hothers e'.1 hne]
          exact hall e' he'

/-- After a run that succeeds, what is wanted of any cluster is provisioned on it. -/
theorem provision (ha : a.Honours Sound view) (hexact : exact → a.MarksExactly Sound view) {registry : Registry}
    {pipeline : String} {subscribers : List Subscriber} {report : ProvisionReport} (hs : Sound s.clusters)
    (h : p.provision a registry pipeline subscribers s = (.ok report, s')) :
    Sound s'.clusters ∧ ∃ d, p.desired registry pipeline subscribers = .ok d ∧
      ∀ servers, Provisioned exact (d.topics servers) (view s.clusters servers) (view s'.clusters servers) := by
  unfold Provisioner.provision at h
  split at h
  · simp at h
  · next d hd =>
    obtain ⟨haddressed, -, -⟩ := Provisioner.desired_ok hd
    have hservers : ∀ e ∈ d.entries, e.2.source.servers = e.1 := fun e he =>
      haddressed e.1 e.2 ((SortedMap.get?_eq_some_iff d).2 he)
    obtain ⟨hsound, hframe, hall⟩ := ha.provisionShares hexact hservers d.nodup_keys hs h
    refine ⟨hsound, d, hd, fun servers => ?_⟩
    unfold Desired.topics
    cases hshare : d.get? servers with
    | some share => exact hall _ ((SortedMap.get?_eq_some_iff d).1 hshare)
    | none =>
      have hother : servers ∉ d.entries.map (·.1) := fun hmem => (SortedMap.mem_keys_iff d servers).1 hmem hshare
      rw [hframe servers hother]
      exact ⟨by simp, by simp, fun topic t ht => ⟨t, ht, .inl rfl⟩, fun _ _ => rfl⟩

end Admin.Honours

/-- If provisioning the subscribers of a pipeline succeeds, the topic of each is on the cluster of its tenant, and the
retention of the last subscriber with this topic on this cluster holds for it. What was created has the partitions and
replicas it should have. Every topic that existed is still there with its partitions, its replicas and every other
setting that was made for it, and nothing is done to topics that belong to no subscriber. -/
theorem provision_converges {σ : Type} {a : Admin σ} {Sound : σ → Prop} {view : σ → Topics}
    (ha : a.Honours Sound view) (p : Provisioner) (registry : Registry) (pipeline : String)
    (subscribers : List Subscriber) {s s' : Provisioning σ} {report : ProvisionReport} (hs : Sound s.clusters)
    (h : p.provision a registry pipeline subscribers s = (.ok report, s')) :
    let before := view s.clusters
    let after := view s'.clusters
    (∀ x ∈ subscribers, ∃ source y t, Provisioner.source registry pipeline x = .ok source ∧
      p.keeper? registry pipeline subscribers source.servers (checkpointTopic p.lead pipeline x.id) = some y ∧
      after source.servers (checkpointTopic p.lead pipeline x.id) = some t ∧
      t.effective? "retention.ms" = some (toString y.retention.millis) ∧
      t.effective? "retention.bytes" = some (toString y.retention.bytes)) ∧
    (∀ servers topic t, before servers topic = none → after servers topic = some t →
      t.partitions = p.partitions ∧ t.replication = p.replication) ∧
    (∀ servers topic t, before servers topic = some t →
      ∃ t', after servers topic = some t' ∧ t'.partitions = t.partitions ∧ t'.replication = t.replication ∧
        ∀ name, name ≠ "retention.ms" → name ≠ "retention.bytes" →
          (∀ v, t.overrides.get? name = some v → t'.overrides.get? name = some v) ∧
          (a.MarksExactly Sound view → t'.overrides.get? name = t.overrides.get? name)) ∧
    ∀ servers topic, (∀ x ∈ subscribers, p.place? registry pipeline x ≠ some (servers, topic)) →
      after servers topic = before servers topic := by
  intro before after
  have hexact : a.MarksExactly Sound view → a.MarksExactly Sound view := fun h => h
  obtain ⟨-, d, hd, hprovisioned⟩ := ha.provision hexact hs h
  obtain ⟨-, hsources, hwanted⟩ := Provisioner.desired_ok hd
  have htopics : ∀ servers topic, (d.topics servers).get? topic =
      (p.keeper? registry pipeline subscribers servers topic).map p.spec :=
    fun servers topic => (d.get?_topics servers topic).trans (hwanted servers topic)
  refine ⟨fun x hx => ?_, fun servers topic t hbefore hafter => ?_, fun servers topic t hbefore => ?_,
    fun servers topic hnobody => ?_⟩
  · obtain ⟨source, hsource⟩ := hsources x hx
    have hplace : p.place? registry pipeline x = some (source.servers, checkpointTopic p.lead pipeline x.id) := by
      simp [Provisioner.place?, hsource]
    obtain ⟨y, hy⟩ := Provisioner.exists_keeper hx hplace
    obtain ⟨t, ht, hshows⟩ := (hprovisioned source.servers).wanted _ (p.spec y) (by rw [htopics, hy]; rfl)
    refine ⟨source, y, t, hsource, hy, ht, hshows _ _ ?_, hshows _ _ ?_⟩
    · rw [TopicSpec.get?_overrides, if_neg (by decide), if_pos rfl]
      rfl
    · rw [TopicSpec.get?_overrides, if_pos rfl]
      rfl
  · cases hkeeper : p.keeper? registry pipeline subscribers servers topic with
    | none =>
      have huntouched := (hprovisioned servers).untouched topic (by rw [htopics, hkeeper]; rfl)
      have hcontra := hbefore.symm.trans (huntouched.symm.trans hafter)
      simp at hcontra
    | some y => exact (hprovisioned servers).created topic (p.spec y) t (by rw [htopics, hkeeper]; rfl) hbefore hafter
  · obtain ⟨t', ht', rfl | ⟨spec, -, hamends⟩⟩ := (hprovisioned servers).kept topic t hbefore
    · exact ⟨t', ht', rfl, rfl, fun name _ _ => ⟨fun _ hv => hv, fun _ => rfl⟩⟩
    · refine ⟨t', ht', hamends.partitions, hamends.replication, fun name hmillis hbytes => ?_⟩
      have hother : spec.overrides.get? name = none := by
        rw [TopicSpec.get?_overrides, if_neg hbytes, if_neg hmillis]
      exact ⟨fun v hv => hamends.kept name v hother hv, fun hexact => hamends.nothing_else hexact name hother⟩
  · refine (hprovisioned servers).untouched topic ?_
    cases hkeeper : p.keeper? registry pipeline subscribers servers topic with
    | none => rw [htopics, hkeeper]; rfl
    | some y =>
      obtain ⟨hy, hplace⟩ := Provisioner.place?_of_keeper? hkeeper
      exact absurd hplace (hnobody y hy)

namespace HalfDone

/-- A cluster that cannot make single settings has the topic of one of two subscribers, with another retention. -/
def fleet : Fleet :=
  .ofList [("c", ⟨false,
    .ofList [("topic-a", ⟨3, 1, [⟨"cleanup.policy", some "compact", false, false⟩,
      ⟨"retention.bytes", some "-1", true, false⟩, ⟨"retention.ms", some "5", false, false⟩,
      ⟨"segment.ms", some "9", true, false⟩]⟩)], [], []⟩)]

/-- A subscriber of the one tenant. -/
def subscriber (id : String) : Subscriber := ⟨id, ⟨false, .all, [⟨"t", none, []⟩]⟩, ⟨7, 100⟩⟩

def registry : Registry := ⟨.ofList [("", ⟨[subscriber "a", subscriber "b"], .ofList [("t", ⟨"c"⟩)]⟩)]⟩

def provisioner : Provisioner := ⟨"topic-", 10, 2, default⟩

def provisioned : Except AdminError ProvisionReport × Provisioning Fleet :=
  provisioner.provision Fleet.admin registry "" [subscriber "a", subscriber "b"] (.start fleet)

theorem sound_fleet : fleet.Sound := by
  intro servers c hc
  simp only [fleet, SortedMap.get?_ofList, List.reverse_singleton, SortedMap.find?, Std.compare_eq_iff_eq] at hc
  split at hc
  · obtain rfl := Option.some.inj hc
    refine ⟨rfl, fun topic t ht => ?_⟩
    simp only [SortedMap.get?_ofList, List.reverse_singleton, SortedMap.find?, Std.compare_eq_iff_eq] at ht
    split at ht
    · obtain rfl := Option.some.inj ht
      decide
    · simp at ht
  · simp at hc

/-- One topic is created. The other one keeps its partitions and the setting that nobody wants changed, and gets the
retention that is wanted. What held for it by default is not made a setting of its own. -/
theorem converges_half_done :
    provisioned.1 = .ok ⟨["topic-b"], ["topic-a"], []⟩ ∧
      ∃ a b, Fleet.view provisioned.2.clusters "c" "topic-a" = some a ∧
        Fleet.view provisioned.2.clusters "c" "topic-b" = some b ∧
        a.effective? "retention.ms" = some "7" ∧ a.effective? "retention.bytes" = some "100" ∧
        a.partitions = 3 ∧ a.overrides.get? "cleanup.policy" = some "compact" ∧
        a.overrides.get? "segment.ms" = none ∧
        b.effective? "retention.ms" = some "7" ∧ b.partitions = 10 ∧ b.replication = 2 := by
  have hrun : provisioned.1 = .ok ⟨["topic-b"], ["topic-a"], []⟩ := by decide +kernel
  obtain ⟨hretention, hcreated, hkept, -⟩ := provision_converges Fleet.honours provisioner registry ""
    [subscriber "a", subscriber "b"] sound_fleet (Prod.ext hrun rfl : provisioned = _)
  have hold : ∃ t, Fleet.view fleet "c" "topic-a" = some t ∧ t.partitions = 3 ∧
      t.overrides.get? "cleanup.policy" = some "compact" ∧ t.overrides.get? "segment.ms" = none :=
    ⟨_, rfl, rfl, by decide +kernel, by decide +kernel⟩
  obtain ⟨t, ht, hpartitions, hpolicy, hsegment⟩ := hold
  obtain ⟨a, ha, hsame, -, hothers⟩ := hkept "c" "topic-a" t ht
  obtain ⟨hpolicy', -⟩ := hothers "cleanup.policy" (by decide) (by decide)
  obtain ⟨-, hsegment'⟩ := hothers "segment.ms" (by decide) (by decide)
  obtain ⟨source, y, a', hsource, hy, ha', hmillis, hbytes⟩ := hretention (subscriber "a") List.mem_cons_self
  obtain ⟨source', y', b, hsource', hy', hb, hmillis', -⟩ :=
    hretention (subscriber "b") (List.mem_cons_of_mem _ List.mem_cons_self)
  have hc : ∀ id source, Provisioner.source registry "" (subscriber id) = .ok source → source = ⟨"c"⟩ := by
    intro id source hsource
    have hknown : Provisioner.source registry "" (subscriber id) = .ok ⟨"c"⟩ := rfl
    exact (Except.ok.inj (hknown.symm.trans hsource)).symm
  obtain rfl := hc _ _ hsource
  obtain rfl := hc _ _ hsource'
  obtain rfl : a = a' := Option.some.inj (ha.symm.trans ha')
  obtain ⟨hb₁, hb₂⟩ := hcreated "c" "topic-b" b (by decide +kernel) hb
  have hseven : ∀ y : Subscriber, y ∈ [subscriber "a", subscriber "b"] → y.retention = ⟨7, 100⟩ := by
    simp [subscriber]
  rw [hseven y (Provisioner.place?_of_keeper? hy).1] at hmillis hbytes
  rw [hseven y' (Provisioner.place?_of_keeper? hy').1] at hmillis'
  exact ⟨hrun, a, b, ha, hb, hmillis, hbytes, hsame.trans hpartitions, hpolicy' "compact" hpolicy,
    (hsegment' Fleet.marksExactly).trans hsegment, hmillis', hb₁, hb₂⟩

end HalfDone

end Relay
