import Relay.Topics.Provision

/-!
# What provisioning does to a cluster

The parts of a provisioning run are taken apart by what they ask of a cluster (`list_ok`, `create_ok`, `alter_ok`,
`converge_ok`, `provisionOn_ok`). What the cluster does with it is a contract (`Admin.Honours`), in terms of a view of
the topics that exist. Under the contract, a run over the topics that are wanted of one cluster leaves them as wanted
and everything else as it was (`Provisioned`).
-/

namespace Relay

/-- A topic of a cluster, as its administration describes what it does to it. -/
structure TopicState where
  /-- The number of partitions. -/
  partitions : Int
  /-- The number of replicas. -/
  replication : Int
  /-- The settings that were made for the topic. -/
  overrides : Overrides
  /-- The settings that hold where none was made. -/
  inherited : String → Option String

/-- The topics of every cluster, by its addresses. -/
abbrev Topics := String → String → Option TopicState

namespace TopicState

/-- The value of a setting that holds for a topic. -/
def effective? (t : TopicState) (name : String) : Option String := (t.overrides.get? name).or (t.inherited name)

/-- Settings hold for a topic. -/
def Shows (t : TopicState) (wanted : Overrides) : Prop := ∀ name v, wanted.get? name = some v → t.effective? name = some v

/-- Settings were made for a topic, and others stay. If it is known exactly which ones were made before, there are no
new ones besides. -/
structure Amends (exact : Prop) (wanted : Overrides) (t t' : TopicState) : Prop where
  partitions : t'.partitions = t.partitions
  replication : t'.replication = t.replication
  made : ∀ name v, wanted.get? name = some v → t'.overrides.get? name = some v
  kept : ∀ name v, wanted.get? name = none → t.overrides.get? name = some v → t'.overrides.get? name = some v
  nothing_else : exact → ∀ name, wanted.get? name = none → t'.overrides.get? name = t.overrides.get? name

theorem Amends.refl (exact : Prop) (t : TopicState) : Amends exact .empty t t := by
  constructor
  · rfl
  · rfl
  · simp
  · exact fun _ _ _ h => h
  · exact fun _ _ _ => rfl

theorem Amends.shows {exact : Prop} {wanted : Overrides} {t t' : TopicState} (h : Amends exact wanted t t') :
    t'.Shows wanted := by
  intro name v hv
  rw [effective?, h.made name v hv, Option.some_or]

/-- A description of a topic: no name twice, the values that hold, and a mark on every setting that was made. -/
structure DescribedBy (t : TopicState) (settings : List TopicSetting) : Prop where
  distinct : (settings.map (·.name)).Nodup
  shown : ∀ x ∈ settings, ∀ v, x.value = some v → t.effective? x.name = some v
  marked : ∀ name v, t.overrides.get? name = some v → ∃ x ∈ settings, x.override? = some (name, v)

/-- A description marks no setting but those that were made. -/
def MarkedBy (t : TopicState) (settings : List TopicSetting) : Prop :=
  ∀ x ∈ settings, ∀ name v, x.override? = some (name, v) → t.overrides.get? name = some v

end TopicState

/-- What administration does to the topics of clusters, in states that are sound. -/
structure Admin.Honours {σ : Type} (a : Admin σ) (Sound : σ → Prop) (view : σ → Topics) : Prop where
  connect : ∀ {s} source, Sound s → Sound (a.connect source s).2 ∧ view (a.connect source s).2 = view s
  list : ∀ {s s' servers names}, Sound s → a.list servers s = (some (.ok names), s') →
    Sound s' ∧ view s' = view s ∧ ∀ topic, topic ∈ names ↔ view s servers topic ≠ none
  create : ∀ {s s' servers topics}, Sound s → a.create servers topics s = (some (.ok ()), s') →
    Sound s' ∧
      (∀ other topic, other ≠ servers ∨ topics.get? topic = none ∨ view s other topic ≠ none →
        view s' other topic = view s other topic) ∧
      ∀ topic spec, topics.get? topic = some spec → view s servers topic = none →
        ∃ t, view s' servers topic = some t ∧ t.partitions = spec.partitions ∧ t.replication = spec.replication ∧
          t.overrides = spec.overrides
  describe : ∀ {s s' servers names described}, Sound s → a.describe servers names s = (some (.ok described), s') →
    Sound s' ∧ view s' = view s ∧ ∀ topic ∈ names, ∀ t, view s servers topic = some t →
      ∃ settings, described.get? topic = some settings ∧ t.DescribedBy settings
  revise : ∀ {s s' servers settings}, Sound s → a.revise servers settings s = (some (.ok ()), s') →
    Sound s' ∧
      (∀ other topic, other ≠ servers ∨ settings.get? topic = none → view s' other topic = view s other topic) ∧
      ∀ topic wanted t, settings.get? topic = some wanted → view s servers topic = some t →
        ∃ t', view s' servers topic = some t' ∧ t'.partitions = t.partitions ∧ t'.replication = t.replication ∧
          ∀ name, t'.overrides.get? name = (wanted.get? name).or (t.overrides.get? name)
  refused : ∀ {s s' servers settings operation}, Sound s →
    a.revise servers settings s = (some (.error (.unsupported operation)), s') → Sound s' ∧ view s' = view s
  replace : ∀ {s s' servers settings}, Sound s → a.replace servers settings s = (some (.ok ()), s') →
    Sound s' ∧
      (∀ other topic, other ≠ servers ∨ settings.get? topic = none → view s' other topic = view s other topic) ∧
      ∀ topic wanted t, settings.get? topic = some wanted → view s servers topic = some t →
        ∃ t', view s' servers topic = some t' ∧ t'.partitions = t.partitions ∧ t'.replication = t.replication ∧
          t'.overrides = wanted

/-- Descriptions mark no setting but those that were made for a topic. -/
def Admin.MarksExactly {σ : Type} (a : Admin σ) (Sound : σ → Prop) (view : σ → Topics) : Prop :=
  ∀ {s s' servers names described}, Sound s → a.describe servers names s = (some (.ok described), s') →
    ∀ topic ∈ names, ∀ t settings, view s servers topic = some t → described.get? topic = some settings →
      t.MarkedBy settings

/-! ## The settings that are wanted -/

namespace TopicSpec

variable {spec : TopicSpec} {name v : String}

theorem get?_overrides (spec : TopicSpec) (name : String) :
    spec.overrides.get? name =
      if name = "retention.bytes" then some (toString spec.retention.bytes)
      else if name = "retention.ms" then some (toString spec.retention.millis) else none := by
  simp only [SortedMap.get?, entries_overrides, SortedMap.find?, Std.compare_eq_iff_eq]

end TopicSpec

namespace Provisioner

section Settings

variable {wanted : Overrides} {current : List TopicSetting} {t : TopicState} {name v : String}

/-- Settings that are seen as converged hold. -/
theorem shows_of_isConverged (hd : t.DescribedBy current) (h : isConverged wanted current = true) : t.Shows wanted := by
  intro name v hv
  have hmem : (name, v) ∈ wanted.entries := (SortedMap.get?_eq_some_iff wanted).1 hv
  have hany := List.all_eq_true.1 h _ hmem
  obtain ⟨x, hx, heq⟩ := List.any_eq_true.1 hany
  obtain ⟨hname, hvalue⟩ := (Bool.and_eq_true _ _).mp heq
  obtain rfl : x.name = name := by simpa using hname
  exact hd.shown x hx v (by simpa using hvalue)

theorem override?_name {x : TopicSetting} (h : x.override? = some (name, v)) : x.name = name := by
  unfold TopicSetting.override? at h
  split at h
  · obtain ⟨w, -, heq⟩ := Option.map_eq_some_iff.1 h
    exact congrArg Prod.fst heq
  · simp at h

theorem nodup_overrides (h : (current.map (·.name)).Nodup) :
    ((current.filterMap TopicSetting.override?).map (·.1)).Nodup := by
  have hsub : ((current.filterMap TopicSetting.override?).map (·.1)).Sublist (current.map (·.name)) := by
    clear h
    induction current with
    | nil => exact .slnil
    | cons x rest ih =>
      rw [List.filterMap_cons]
      split
      · exact ih.cons _
      · next e he =>
        rw [List.map_cons, List.map_cons, override?_name he]
        exact ih.cons_cons _
  exact hsub.nodup h

/-- The last setting of a name that was made is the only one. -/
theorem find?_overrides_reverse (h : (current.map (·.name)).Nodup) :
    SortedMap.find? name (current.filterMap TopicSetting.override?).reverse = some v ↔
      ∃ x ∈ current, x.override? = some (name, v) := by
  have hnodup : ((current.filterMap TopicSetting.override?).reverse.map (·.1)).Nodup := by
    rw [List.map_reverse]
    exact (List.reverse_perm _).nodup_iff.2 (nodup_overrides h)
  rw [SortedMap.find?_eq_some_iff_mem hnodup, List.mem_reverse, List.mem_filterMap]

/-- What replaces all settings of a topic has the wanted value of a setting, or the one that was made for it. -/
theorem get?_merged (h : (current.map (·.name)).Nodup) :
    (merged wanted current).get? name = some v ↔
      wanted.get? name = some v ∨
        wanted.get? name = none ∧ ∃ x ∈ current, x.override? = some (name, v) := by
  rw [merged, SortedMap.get?_ofList, List.reverse_append, SortedMap.find?_append, SortedMap.find?_reverse]
  cases wanted.get? name with
  | none => simpa using find?_overrides_reverse h
  | some u => simp

/-- Replacing all settings by what was made before and what is wanted makes the wanted settings and keeps the others. -/
theorem amends_merged {exact : Prop} {t' : TopicState} (hd : t.DescribedBy current)
    (hexact : exact → t.MarkedBy current) (hpartitions : t'.partitions = t.partitions)
    (hreplication : t'.replication = t.replication) (h : t'.overrides = merged wanted current) :
    t.Amends exact wanted t' := by
  constructor
  · exact hpartitions
  · exact hreplication
  · intro name v hv
    rw [h, get?_merged hd.distinct]
    exact .inl hv
  · intro name v hnone hv
    rw [h, get?_merged hd.distinct]
    exact .inr ⟨hnone, hd.marked name v hv⟩
  · intro hex name hnone
    apply Option.ext
    intro v
    rw [h, get?_merged hd.distinct]
    constructor
    · rintro (hv | ⟨-, x, hx, hv⟩)
      · simp [hnone] at hv
      · exact hexact hex x hx name v hv
    · exact fun hv => .inr ⟨hnone, hd.marked name v hv⟩

end Settings

/-! ## Calls -/

section Calls

variable {σ : Type} {a : Admin σ} {p : Provisioner} {servers : String} {s s' : Provisioning σ}

theorem reply_of_within {α : Type} {timeout : Duration} {r : Reply α} {x : α} (h : r.within timeout = .ok x) :
    r = some (.ok x) := by
  cases r with
  | none => simp [Reply.within] at h
  | some r => exact congrArg some h

theorem list_ok {names : List String} (h : list a p servers s = (.ok names, s')) :
    ∃ clusters, a.list servers s.clusters = (some (.ok names), clusters) ∧ s' = s.log servers .list clusters := by
  obtain ⟨hreply, rfl⟩ := Prod.mk.inj h
  exact ⟨_, Prod.ext (reply_of_within hreply) rfl, rfl⟩

theorem create_ok {topics : SortedMap String TopicSpec} (h : create a p servers topics s = (.ok (), s')) :
    topics.isEmpty = true ∧ s' = s ∨
      topics.isEmpty = false ∧ ∃ clusters, a.create servers topics s.clusters = (some (.ok ()), clusters) ∧
        s' = s.log servers (.create topics) clusters := by
  unfold create at h
  split at h
  · next hempty => exact .inl ⟨hempty, (Prod.mk.inj h).2.symm⟩
  · next hempty =>
    obtain ⟨hreply, rfl⟩ := Prod.mk.inj h
    exact .inr ⟨by simpa using hempty, _, Prod.ext (reply_of_within hreply) rfl, rfl⟩

theorem describe_ok {names : List String} {described : SortedMap String (List TopicSetting)}
    (h : describe a p servers names s = (.ok described, s')) :
    ∃ clusters, a.describe servers names s.clusters = (some (.ok described), clusters) ∧
      s' = s.log servers (.describe names) clusters := by
  obtain ⟨hreply, rfl⟩ := Prod.mk.inj h
  exact ⟨_, Prod.ext (reply_of_within hreply) rfl, rfl⟩

theorem replace_ok {settings : SortedMap String Overrides} (h : replace a p servers settings s = (.ok (), s')) :
    ∃ clusters, a.replace servers settings s.clusters = (some (.ok ()), clusters) ∧
      s' = s.log servers (.replace settings) clusters := by
  obtain ⟨hreply, rfl⟩ := Prod.mk.inj h
  exact ⟨_, Prod.ext (reply_of_within hreply) rfl, rfl⟩

/-- The settings that replace those of topics with the given descriptions. -/
def replacement (settings : SortedMap String Overrides) (described : SortedMap String (List TopicSetting)) :
    SortedMap String Overrides :=
  settings.map fun topic wanted => merged wanted ((described.get? topic).getD [])

/-- Altering topics is making the settings, or replacing all of them where that is refused. -/
theorem alter_ok {settings : SortedMap String Overrides} {described : SortedMap String (List TopicSetting)}
    (h : alter a p servers settings described s = (.ok (), s')) :
    settings.isEmpty = true ∧ s' = s ∨
      (∃ clusters, a.revise servers settings s.clusters = (some (.ok ()), clusters) ∧
        s' = s.log servers (.revise settings) clusters) ∨
      ∃ operation between clusters,
        a.revise servers settings s.clusters = (some (.error (.unsupported operation)), between) ∧
        a.replace servers (replacement settings described) between = (some (.ok ()), clusters) ∧
        s' = (s.log servers (.revise settings) between).log servers (.replace (replacement settings described))
          clusters := by
  unfold alter at h
  split at h
  · next hempty => exact .inl ⟨hempty, (Prod.mk.inj h).2.symm⟩
  · split at h
    · next operation s₁ hrevise =>
      obtain ⟨hreply, rfl⟩ := Prod.mk.inj hrevise
      obtain ⟨clusters, hreplace, rfl⟩ := replace_ok h
      refine .inr (.inr ⟨operation, _, clusters, Prod.ext ?_ rfl, hreplace, rfl⟩)
      cases hr : (a.revise servers settings s.clusters).1 with
      | none => simp [hr, Reply.within] at hreply
      | some r =>
        rw [hr] at hreply
        exact congrArg some hreply
    · next hrevise =>
      obtain ⟨rfl, rfl⟩ := Prod.mk.inj h
      obtain ⟨hreply, rfl⟩ := Prod.mk.inj hrevise
      exact .inr (.inl ⟨_, Prod.ext (reply_of_within hreply) rfl, rfl⟩)

/-- Topics with other settings than the wanted ones. -/
def drifted (described : SortedMap String (List TopicSetting)) (topics : SortedMap String TopicSpec) :
    SortedMap String TopicSpec :=
  topics.filter fun topic spec => !isConverged spec.overrides ((described.get? topic).getD [])

/-- What is altered of a topic: what is wanted of it, unless its description shows that. -/
theorem get?_drifted (described : SortedMap String (List TopicSetting)) (topics : SortedMap String TopicSpec)
    (topic : String) : ((drifted described topics).map fun _ spec => spec.overrides).get? topic =
      ((topics.get? topic).filter fun spec =>
        !isConverged spec.overrides ((described.get? topic).getD [])).map (·.overrides) := by
  rw [SortedMap.get?_map, drifted, SortedMap.get?_filter]

theorem get?_missing (topics : SortedMap String TopicSpec) (existing : List String) (topic : String) :
    (topics.filter fun topic _ => !existing.contains topic).get? topic =
      if topic ∈ existing then none else topics.get? topic := by
  rw [SortedMap.get?_filter]
  by_cases h : topic ∈ existing
  · cases topics.get? topic <;> simp [Option.filter, h]
  · cases topics.get? topic <;> simp [Option.filter, h]

theorem get?_present (topics : SortedMap String TopicSpec) (existing : List String) (topic : String) :
    (topics.filter fun topic _ => existing.contains topic).get? topic =
      if topic ∈ existing then topics.get? topic else none := by
  rw [SortedMap.get?_filter]
  by_cases h : topic ∈ existing
  · cases topics.get? topic <;> simp [Option.filter, h]
  · cases topics.get? topic <;> simp [Option.filter, h]

theorem converge_ok {topics : SortedMap String TopicSpec} {report report' : ProvisionReport}
    (h : converge a p servers topics report s = (.ok report', s')) :
    topics.isEmpty = true ∧ report' = report ∧ s' = s ∨
      ∃ described s₁, describe a p servers topics.keys s = (.ok described, s₁) ∧
        alter a p servers ((drifted described topics).map fun _ spec => spec.overrides) described s₁ = (.ok (), s') ∧
        report' = { report with
          altered := report.altered ++ (drifted described topics).keys
          unchanged := report.unchanged ++ (topics.filter fun topic spec =>
            isConverged spec.overrides ((described.get? topic).getD [])).keys } := by
  unfold converge at h
  split at h
  · next hempty =>
    obtain ⟨hreport, rfl⟩ := Prod.mk.inj h
    exact .inl ⟨hempty, (Except.ok.inj hreport).symm, rfl⟩
  · split at h
    · simp at h
    · next described s₁ hdescribe =>
      simp only at h
      split at h
      · simp at h
      · next s₂ halter =>
        obtain ⟨hreport, rfl⟩ := Prod.mk.inj h
        exact .inr ⟨described, s₁, hdescribe, halter, (Except.ok.inj hreport).symm⟩

theorem provisionOn_ok {topics : SortedMap String TopicSpec} {report report' : ProvisionReport}
    (h : provisionOn a p servers topics report s = (.ok report', s')) :
    topics.isEmpty = true ∧ report' = report ∧ s' = s ∨
      ∃ existing s₁ s₂, list a p servers s = (.ok existing, s₁) ∧
        create a p servers (topics.filter fun topic _ => !existing.contains topic) s₁ = (.ok (), s₂) ∧
        converge a p servers (topics.filter fun topic _ => existing.contains topic)
          { report with created :=
              report.created ++ (topics.filter fun topic _ => !existing.contains topic).keys } s₂ =
          (.ok report', s') := by
  unfold provisionOn at h
  split at h
  · next hempty =>
    obtain ⟨hreport, rfl⟩ := Prod.mk.inj h
    exact .inl ⟨hempty, (Except.ok.inj hreport).symm, rfl⟩
  · split at h
    · simp at h
    · next existing s₁ hlist =>
      simp only at h
      split at h
      · simp at h
      · next s₂ hcreate => exact .inr ⟨existing, s₁, s₂, hlist, hcreate, h⟩

theorem connect_ok {source : Source} (h : connect a source s = (.ok (), s')) :
    s.connected.contains source.servers = true ∧ s' = s ∨
      ∃ clusters, a.connect source s.clusters = (.ok (), clusters) ∧
        s' = { s.log source.servers .connect clusters with connected := source.servers :: s.connected } := by
  unfold connect at h
  split at h
  · next hconnected => exact .inl ⟨hconnected, (Prod.mk.inj h).2.symm⟩
  · split at h
    · simp at h
    · next clusters hconnect => exact .inr ⟨clusters, hconnect, (Prod.mk.inj h).2.symm⟩

end Calls

end Provisioner

/-! ## What is left behind -/

/-- Topics of a cluster were provisioned: the wanted ones show their settings, those among them that were missing have
the partitions and replicas they should have, what was there before is still there and at most amended, and all else is
untouched. -/
structure Provisioned (exact : Prop) (topics : SortedMap String TopicSpec) (before after : String → Option TopicState) :
    Prop where
  wanted : ∀ topic spec, topics.get? topic = some spec → ∃ t, after topic = some t ∧ t.Shows spec.overrides
  created : ∀ topic spec t, topics.get? topic = some spec → before topic = none → after topic = some t →
    t.partitions = spec.partitions ∧ t.replication = spec.replication
  kept : ∀ topic t, before topic = some t →
    ∃ t', after topic = some t' ∧
      (t' = t ∨ ∃ spec, topics.get? topic = some spec ∧ t.Amends exact spec.overrides t')
  untouched : ∀ topic, topics.get? topic = none → after topic = before topic

namespace Admin.Honours

variable {σ : Type} {a : Admin σ} {Sound : σ → Prop} {view : σ → Topics} {p : Provisioner} {servers : String}
  {s s' : Provisioning σ} {exact : Prop}

/-- Topics that were described are amended, in the one way or in the other. -/
theorem alter (ha : a.Honours Sound view) (hs : Sound s.clusters) {settings : SortedMap String Overrides}
    {described : SortedMap String (List TopicSetting)}
    (h : Provisioner.alter a p servers settings described s = (.ok (), s'))
    (hd : ∀ topic wanted t, settings.get? topic = some wanted → view s.clusters servers topic = some t →
      ∃ current, described.get? topic = some current ∧ t.DescribedBy current ∧ (exact → t.MarkedBy current)) :
    Sound s'.clusters ∧
      (∀ other topic, other ≠ servers ∨ settings.get? topic = none →
        view s'.clusters other topic = view s.clusters other topic) ∧
      ∀ topic wanted t, settings.get? topic = some wanted → view s.clusters servers topic = some t →
        ∃ t', view s'.clusters servers topic = some t' ∧ t.Amends exact wanted t' := by
  rcases Provisioner.alter_ok h with ⟨hempty, rfl⟩ | ⟨clusters, hrevise, rfl⟩ |
    ⟨operation, between, clusters, hrefused, hreplace, rfl⟩
  · refine ⟨hs, fun _ _ _ => rfl, fun topic wanted t hwanted => ?_⟩
    rw [(SortedMap.isEmpty_iff settings).1 hempty] at hwanted
    simp at hwanted
  · obtain ⟨hsound, hframe, hmade⟩ := ha.revise hs hrevise
    refine ⟨hsound, hframe, fun topic wanted t hwanted ht => ?_⟩
    obtain ⟨t', ht', hpartitions, hreplication, hoverrides⟩ := hmade topic wanted t hwanted ht
    refine ⟨t', ht', hpartitions, hreplication, fun name v hv => ?_, fun name v hnone hv => ?_, fun _ name hnone => ?_⟩
    · rw [hoverrides, hv, Option.some_or]
    · rw [hoverrides, hnone, Option.none_or, hv]
    · rw [hoverrides, hnone, Option.none_or]
  · obtain ⟨hsound, hsame⟩ := ha.refused hs hrefused
    obtain ⟨hsound', hframe, hmade⟩ := ha.replace hsound hreplace
    have hreplacement : ∀ topic, (Provisioner.replacement settings described).get? topic =
        (settings.get? topic).map fun wanted => Provisioner.merged wanted ((described.get? topic).getD []) :=
      fun topic => SortedMap.get?_map _ settings topic
    rw [hsame] at hframe hmade
    refine ⟨hsound', fun other topic hother => hframe other topic ?_, fun topic wanted t hwanted ht => ?_⟩
    · rw [hreplacement]
      exact hother.imp_right fun hnone => by rw [hnone]; rfl
    · obtain ⟨current, hcurrent, hdescribed, hmarked⟩ := hd topic wanted t hwanted ht
      have hfull : (Provisioner.replacement settings described).get? topic =
          some (Provisioner.merged wanted current) := by
        rw [hreplacement, hwanted, hcurrent]
        rfl
      obtain ⟨t', ht', hpartitions, hreplication, hoverrides⟩ := hmade topic _ t hfull ht
      exact ⟨t', ht', Provisioner.amends_merged hdescribed hmarked hpartitions hreplication hoverrides⟩

/-- Existing topics are brought in line. -/
theorem converge (ha : a.Honours Sound view) (hexact : exact → a.MarksExactly Sound view) (hs : Sound s.clusters)
    {topics : SortedMap String TopicSpec} {report report' : ProvisionReport}
    (h : Provisioner.converge a p servers topics report s = (.ok report', s')) :
    Sound s'.clusters ∧
      (∀ other topic, other ≠ servers ∨ topics.get? topic = none →
        view s'.clusters other topic = view s.clusters other topic) ∧
      ∀ topic spec t, topics.get? topic = some spec → view s.clusters servers topic = some t →
        ∃ t', view s'.clusters servers topic = some t' ∧ t'.Shows spec.overrides ∧
          (t' = t ∨ t.Amends exact spec.overrides t') := by
  rcases Provisioner.converge_ok h with ⟨hempty, rfl, rfl⟩ | ⟨described, s₁, hdescribe, halter, rfl⟩
  · refine ⟨hs, fun _ _ _ => rfl, fun topic spec t hspec => ?_⟩
    rw [(SortedMap.isEmpty_iff topics).1 hempty] at hspec
    simp at hspec
  · obtain ⟨clusters, hcall, rfl⟩ := Provisioner.describe_ok hdescribe
    obtain ⟨hsound, hsame, hdescribed⟩ := ha.describe hs hcall
    have hview : view (s.log servers (.describe topics.keys) clusters).clusters = view s.clusters := hsame
    have hdescription : ∀ topic spec t, topics.get? topic = some spec → view s.clusters servers topic = some t →
        ∃ current, described.get? topic = some current ∧ t.DescribedBy current ∧ (exact → t.MarkedBy current) := by
      intro topic spec t hspec ht
      have hasked : topic ∈ topics.keys := (SortedMap.mem_keys_iff topics topic).2 (by simp [hspec])
      obtain ⟨current, hcurrent, hd⟩ := hdescribed topic hasked t ht
      exact ⟨current, hcurrent, hd, fun hex => hexact hex hs hcall topic hasked t current ht hcurrent⟩
    have hwhose : ∀ topic wanted,
        ((Provisioner.drifted described topics).map fun _ spec => spec.overrides).get? topic = some wanted →
          ∃ spec, topics.get? topic = some spec := by
      intro topic wanted hwanted
      rw [Provisioner.get?_drifted] at hwanted
      obtain ⟨spec, hspec, -⟩ := Option.map_eq_some_iff.1 hwanted
      exact ⟨spec, (Option.filter_eq_some_iff.1 hspec).1⟩
    have hcurrent : ∀ topic wanted t,
        ((Provisioner.drifted described topics).map fun _ spec => spec.overrides).get? topic = some wanted →
          view (s.log servers (.describe topics.keys) clusters).clusters servers topic = some t →
            ∃ current, described.get? topic = some current ∧ t.DescribedBy current ∧ (exact → t.MarkedBy current) := by
      intro topic wanted t hwanted ht
      obtain ⟨spec, hspec⟩ := hwhose topic wanted hwanted
      exact hdescription topic spec t hspec (hview ▸ ht)
    obtain ⟨hsound', hframe, hamended⟩ := ha.alter hsound halter hcurrent
    rw [hview] at hframe hamended
    refine ⟨hsound', fun other topic hother => hframe other topic (hother.imp_right fun hnone => ?_),
      fun topic spec t hspec ht => ?_⟩
    · rw [Provisioner.get?_drifted, hnone]
      rfl
    · obtain ⟨current, hcurrent, hd, -⟩ := hdescription topic spec t hspec ht
      cases hconverged : Provisioner.isConverged spec.overrides current with
      | true =>
        have hnone : ((Provisioner.drifted described topics).map fun _ spec => spec.overrides).get? topic = none := by
          simp [Provisioner.get?_drifted, hspec, hcurrent, hconverged, Option.filter]
        refine ⟨t, ?_, Provisioner.shows_of_isConverged hd hconverged, .inl rfl⟩
        rw [hframe servers topic (.inr hnone), ht]
      | false =>
        have hsome : ((Provisioner.drifted described topics).map fun _ spec => spec.overrides).get? topic =
            some spec.overrides := by
          simp [Provisioner.get?_drifted, hspec, hcurrent, hconverged, Option.filter]
        obtain ⟨t', ht', hamends⟩ := hamended topic spec.overrides t hsome ht
        exact ⟨t', ht', hamends.shows, .inr hamends⟩

/-- Missing topics are created. -/
theorem created (ha : a.Honours Sound view) (hs : Sound s.clusters) {topics : SortedMap String TopicSpec}
    (h : Provisioner.create a p servers topics s = (.ok (), s')) :
    Sound s'.clusters ∧
      (∀ other topic, other ≠ servers ∨ topics.get? topic = none ∨ view s.clusters other topic ≠ none →
        view s'.clusters other topic = view s.clusters other topic) ∧
      ∀ topic spec, topics.get? topic = some spec → view s.clusters servers topic = none →
        ∃ t, view s'.clusters servers topic = some t ∧ t.partitions = spec.partitions ∧
          t.replication = spec.replication ∧ t.overrides = spec.overrides := by
  rcases Provisioner.create_ok h with ⟨hempty, rfl⟩ | ⟨-, clusters, hcall, rfl⟩
  · refine ⟨hs, fun _ _ _ => rfl, fun topic spec hspec => ?_⟩
    rw [(SortedMap.isEmpty_iff topics).1 hempty] at hspec
    simp at hspec
  · exact ha.create hs hcall

/-- Provisioning topics on a cluster leaves them provisioned, and the other clusters alone. -/
theorem provisionOn (ha : a.Honours Sound view) (hexact : exact → a.MarksExactly Sound view) (hs : Sound s.clusters)
    {topics : SortedMap String TopicSpec} {report report' : ProvisionReport}
    (h : Provisioner.provisionOn a p servers topics report s = (.ok report', s')) :
    Sound s'.clusters ∧ (∀ other, other ≠ servers → view s'.clusters other = view s.clusters other) ∧
      Provisioned exact topics (view s.clusters servers) (view s'.clusters servers) := by
  rcases Provisioner.provisionOn_ok h with ⟨hempty, rfl, rfl⟩ | ⟨existing, s₁, s₂, hlist, hcreate, hconverge⟩
  · have hnone := (SortedMap.isEmpty_iff topics).1 hempty
    exact ⟨hs, fun _ _ => rfl, by simp [hnone], by simp [hnone], fun topic t ht => ⟨t, ht, .inl rfl⟩, fun _ _ => rfl⟩
  · obtain ⟨listed, hcall, rfl⟩ := Provisioner.list_ok hlist
    obtain ⟨hsound₁, hsame, hexisting⟩ := ha.list hs hcall
    have hview : view (s.log servers .list listed).clusters = view s.clusters := hsame
    have hmissing : ∀ topic, (topics.filter fun topic _ => !existing.contains topic).get? topic =
        if view s.clusters servers topic = none then topics.get? topic else none := by
      intro topic
      rw [Provisioner.get?_missing]
      simp only [hexisting, ne_eq, ite_not]
    have hpresent : ∀ topic, (topics.filter fun topic _ => existing.contains topic).get? topic =
        if view s.clusters servers topic = none then none else topics.get? topic := by
      intro topic
      rw [Provisioner.get?_present]
      simp only [hexisting, ne_eq, ite_not]
    obtain ⟨hsound₂, hframe₂, hcreated⟩ := ha.created hsound₁ hcreate
    obtain ⟨hsound₃, hframe₃, hconverged⟩ := ha.converge hexact hsound₂ hconverge
    rw [hview] at hframe₂ hcreated
    simp only [hmissing] at hframe₂ hcreated
    simp only [hpresent] at hframe₃ hconverged
    -- a topic that was there before is not touched when the missing ones are created
    have hbetween : ∀ topic t, view s.clusters servers topic = some t → view s₂.clusters servers topic = some t := by
      intro topic t ht
      rw [hframe₂ servers topic (.inr (.inr (by simp [ht]))), ht]
    -- and a topic that was missing is not touched when the others are brought in line
    have hnew : ∀ topic, view s.clusters servers topic = none →
        view s'.clusters servers topic = view s₂.clusters servers topic := by
      intro topic hnone
      exact hframe₃ servers topic (.inr (by simp [hnone]))
    refine ⟨hsound₃, fun other hother => ?_, ?_, ?_, ?_, ?_⟩
    · funext topic
      rw [hframe₃ other topic (.inl hother), hframe₂ other topic (.inl hother)]
    · intro topic spec hspec
      cases ht : view s.clusters servers topic with
      | none =>
        obtain ⟨t, ht', -, -, hoverrides⟩ := hcreated topic spec (by simp [ht, hspec]) ht
        refine ⟨t, (hnew topic ht).trans ht', fun name v hv => ?_⟩
        rw [TopicState.effective?, hoverrides, hv, Option.some_or]
      | some t =>
        obtain ⟨t', ht', hshows, -⟩ := hconverged topic spec t (by simp [ht, hspec]) (hbetween topic t ht)
        exact ⟨t', ht', hshows⟩
    · intro topic spec t hspec hnone ht
      obtain ⟨t', ht', hpartitions, hreplication, -⟩ := hcreated topic spec (by simp [hnone, hspec]) hnone
      rw [hnew topic hnone, ht'] at ht
      obtain rfl := Option.some.inj ht
      exact ⟨hpartitions, hreplication⟩
    · intro topic t ht
      cases hspec : topics.get? topic with
      | none =>
        refine ⟨t, ?_, .inl rfl⟩
        rw [hframe₃ servers topic (.inr (by simp [hspec])), hbetween topic t ht]
      | some spec =>
        obtain ⟨t', ht', -, hcases⟩ := hconverged topic spec t (by simp [ht, hspec]) (hbetween topic t ht)
        exact ⟨t', ht', hcases.imp_right fun hamends => ⟨spec, rfl, hamends⟩⟩
    · intro topic hnone
      rw [hframe₃ servers topic (.inr (by simp [hnone])), hframe₂ servers topic (.inr (.inl (by simp [hnone])))]

end Admin.Honours

end Relay
