import Relay.Proofs.SharedTopics

/-!
# Two ways to alter topics

Settings can be made one by one, or all settings of a topic can be replaced by those that were made for it before and
the wanted ones. What was made before is read off the description of the topic, among whatever else its cluster shows.
Both ways come to the same (`Admin.Revises.alters`, `Admin.Replaces.alters`), so provisioning does the same and reports
the same with either, as a function of what was made for which topic (`Holdings.settle`, `Holdings.tell`). Clusters may
have any number of addresses, and the same cluster may be provisioned under several of them.
-/

namespace Relay

/-! ## Settings that were made -/

/-- What a cluster shows of a topic: the settings that were made for it, and others. -/
def shown (others : List TopicSetting) (made : Overrides) : List TopicSetting :=
  made.entries.map ClusterTopic.made ++ others

section Shown

variable {current others : List TopicSetting} {made wanted : Overrides}

theorem mem_overrides_of_shown (hothers : ∀ x ∈ others, x.isDefault = true ∨ x.isReadOnly = true)
    (h : ∀ x, x ∈ current ↔ x ∈ shown others made) (e : String × String) :
    e ∈ current.filterMap TopicSetting.override? ↔ e ∈ made.entries := by
  have hnothing : others.filterMap TopicSetting.override? = [] := by
    refine List.filterMap_eq_nil_iff.2 fun x hx => if_neg ?_
    rcases hothers x hx with hdefault | hreadonly
    · simp [TopicSetting.isOverride, hdefault]
    · simp [TopicSetting.isOverride, hreadonly]
  have hsame : e ∈ current.filterMap TopicSetting.override? ↔
      e ∈ (shown others made).filterMap TopicSetting.override? := by
    simp only [List.mem_filterMap, h]
  rw [hsame, shown, List.filterMap_append, ClusterTopic.filterMap_made, hnothing, List.append_nil]

/-- Replacing all settings by what a description marks and what is wanted comes to making the wanted ones. -/
theorem Provisioner.merged_eq_amend (hothers : ∀ x ∈ others, x.isDefault = true ∨ x.isReadOnly = true)
    (h : ∀ x, x ∈ current ↔ x ∈ shown others made) : merged wanted current = made.amend wanted := by
  refine SortedMap.ext_get? fun name => ?_
  have hmarked : ∀ e, e ∈ (current.filterMap TopicSetting.override?).reverse ↔ e ∈ made.entries := by
    intro e
    rw [List.mem_reverse]
    exact mem_overrides_of_shown hothers h e
  rw [merged, SortedMap.get?_ofList, List.reverse_append, SortedMap.find?_append, SortedMap.find?_reverse,
    SortedMap.find?_eq_get? hmarked, SortedMap.get?_amend]

theorem Provisioner.isConverged_congr {settings : List TopicSetting} (h : ∀ x, x ∈ current ↔ x ∈ settings) :
    isConverged wanted current = isConverged wanted settings := by
  have hany : ∀ f : TopicSetting → Bool, current.any f = settings.any f := by
    intro f
    rw [Bool.eq_iff_iff, List.any_eq_true, List.any_eq_true]
    exact exists_congr fun x => and_congr_left fun _ => h x
  simp only [isConverged, hany]

end Shown

/-! ## What is made for the topics of clusters -/

/-- The settings that were made for the topics of clusters. -/
abbrev Holdings (κ : Type) := κ → String → Option Overrides

namespace Holdings

variable {κ : Type} [DecidableEq κ]

/-- Topics are created with the settings that are wanted of them, unless they exist. -/
def create (held : Holdings κ) (k : κ) (topics : SortedMap String TopicSpec) : Holdings κ := fun k' topic =>
  if k' = k then (held k topic).or ((topics.get? topic).map (·.overrides)) else held k' topic

/-- Settings are made and others stay. -/
def revise (held : Holdings κ) (k : κ) (settings : SortedMap String Overrides) : Holdings κ := fun k' topic =>
  if k' = k then (held k topic).map fun made => ((settings.get? topic).map made.amend).getD made else held k' topic

/-- All settings of topics are replaced. -/
def replace (held : Holdings κ) (k : κ) (settings : SortedMap String Overrides) : Holdings κ := fun k' topic =>
  if k' = k then (held k topic).map fun made => (settings.get? topic).getD made else held k' topic

/-- The wanted topics that a cluster does not have. -/
def missing (held : Holdings κ) (k : κ) (topics : SortedMap String TopicSpec) : SortedMap String TopicSpec :=
  topics.filter fun topic _ => (held k topic).isNone

/-- The wanted topics that a cluster has and that show every wanted value, or those that do not. -/
def present (held : Holdings κ) (others : κ → String → Overrides → List TopicSetting) (k : κ)
    (topics : SortedMap String TopicSpec) (converged : Bool) : SortedMap String TopicSpec :=
  topics.filter fun topic spec =>
    (held k topic).any fun made =>
      Provisioner.isConverged spec.overrides (shown (others k topic made) made) == converged

/-- What provisioning topics leaves behind. -/
def settle (held : Holdings κ) (others : κ → String → Overrides → List TopicSetting) (k : κ)
    (topics : SortedMap String TopicSpec) : Holdings κ :=
  (held.create k (held.missing k topics)).revise k
    ((held.present others k topics false).map fun _ spec => spec.overrides)

/-- What provisioning topics adds to a report. -/
def tell (held : Holdings κ) (others : κ → String → Overrides → List TopicSetting) (k : κ)
    (topics : SortedMap String TopicSpec) (report : ProvisionReport) : ProvisionReport where
  created := report.created ++ (held.missing k topics).keys
  altered := report.altered ++ (held.present others k topics false).keys
  unchanged := report.unchanged ++ (held.present others k topics true).keys

/-- What provisioning shares comes to, one after the other. -/
def settleAll (home : String → κ) (others : κ → String → Overrides → List TopicSetting) :
    List Share → Holdings κ → ProvisionReport → ProvisionReport × Holdings κ
  | [], held, report => (report, held)
  | share :: rest, held, report =>
    let k := home share.source.servers
    settleAll home others rest (held.settle others k share.topics) (held.tell others k share.topics report)

theorem create_of_isEmpty {topics : SortedMap String TopicSpec} (h : topics.isEmpty = true) (held : Holdings κ)
    (k : κ) : held.create k topics = held := by
  funext k' topic
  rw [create, (SortedMap.isEmpty_iff topics).1 h, Option.map_none, Option.or_none]
  split
  · next heq => rw [heq]
  · rfl

theorem revise_of_isEmpty {settings : SortedMap String Overrides} (h : settings.isEmpty = true) (held : Holdings κ)
    (k : κ) : held.revise k settings = held := by
  funext k' topic
  simp only [revise, (SortedMap.isEmpty_iff settings).1 h, Option.map_none, Option.getD_none, Option.map_id']
  split
  · next heq => rw [heq]
  · rfl

end Holdings

/-! ## Clusters that hold settings -/

section Hosts

variable {κ σ : Type} [DecidableEq κ]

/-- Clusters hold settings for their topics. Every call is carried out, under any of the addresses of a cluster, and a
description shows the settings that were made for a topic, defaults and settings that cannot be changed. -/
structure Admin.Hosts (a : Admin σ) (home : String → κ) (others : κ → String → Overrides → List TopicSetting)
    (held : σ → Holdings κ) : Prop where
  defaults : ∀ k topic made, ∀ x ∈ others k topic made, x.isDefault = true ∨ x.isReadOnly = true
  connect : ∀ source s, (a.connect source s).1 = .ok () ∧ held (a.connect source s).2 = held s
  list : ∀ servers s, held (a.list servers s).2 = held s ∧
    ∃ names, (a.list servers s).1 = some (.ok names) ∧ ∀ topic, topic ∈ names ↔ held s (home servers) topic ≠ none
  create : ∀ servers topics s, (a.create servers topics s).1 = some (.ok ()) ∧
    held (a.create servers topics s).2 = (held s).create (home servers) topics
  describe : ∀ servers names s, (∀ topic ∈ names, held s (home servers) topic ≠ none) →
    held (a.describe servers names s).2 = held s ∧
      ∃ described, (a.describe servers names s).1 = some (.ok described) ∧
        ∀ topic ∈ names, ∀ made, held s (home servers) topic = some made →
          ∃ current, described.get? topic = some current ∧
            ∀ x, x ∈ current ↔ x ∈ shown (others (home servers) topic made) made

/-- Clusters make single settings. -/
structure Admin.Revises (a : Admin σ) (home : String → κ) (others : κ → String → Overrides → List TopicSetting)
    (held : σ → Holdings κ) : Prop extends a.Hosts home others held where
  revise : ∀ servers settings s, (∀ topic, settings.get? topic ≠ none → held s (home servers) topic ≠ none) →
    (a.revise servers settings s).1 = some (.ok ()) ∧
      held (a.revise servers settings s).2 = (held s).revise (home servers) settings

/-- Clusters cannot make single settings, and replace all settings of a topic. -/
structure Admin.Replaces (a : Admin σ) (home : String → κ) (others : κ → String → Overrides → List TopicSetting)
    (held : σ → Holdings κ) : Prop extends a.Hosts home others held where
  refused : ∀ servers settings s, held (a.revise servers settings s).2 = held s ∧
    ∃ operation, (a.revise servers settings s).1 = some (.error (.unsupported operation))
  replace : ∀ servers settings s, (∀ topic, settings.get? topic ≠ none → held s (home servers) topic ≠ none) →
    (a.replace servers settings s).1 = some (.ok ()) ∧
      held (a.replace servers settings s).2 = (held s).replace (home servers) settings

/-- Topics that were described can be altered, and then the wanted settings are made. -/
def Admin.Alters (a : Admin σ) (home : String → κ) (others : κ → String → Overrides → List TopicSetting)
    (held : σ → Holdings κ) : Prop :=
  ∀ (p : Provisioner) servers settings described (s : Provisioning σ),
    (∀ topic, settings.get? topic ≠ none → ∃ made current, held s.clusters (home servers) topic = some made ∧
      described.get? topic = some current ∧ ∀ x, x ∈ current ↔ x ∈ shown (others (home servers) topic made) made) →
    ∃ s', Provisioner.alter a p servers settings described s = (.ok (), s') ∧
      held s'.clusters = (held s.clusters).revise (home servers) settings

variable {a : Admin σ} {home : String → κ} {others : κ → String → Overrides → List TopicSetting}
  {held : σ → Holdings κ} {p : Provisioner} {servers : String} {s : Provisioning σ}

theorem Admin.Revises.alters (ha : a.Revises home others held) : a.Alters home others held := by
  intro p servers settings described s hdescribed
  unfold Provisioner.alter
  split
  · next hempty => exact ⟨s, rfl, (Holdings.revise_of_isEmpty hempty _ _).symm⟩
  · have hexist : ∀ topic, settings.get? topic ≠ none → held s.clusters (home servers) topic ≠ none := by
      intro topic hwanted
      obtain ⟨made, -, hmade, -⟩ := hdescribed topic hwanted
      simp [hmade]
    obtain ⟨hreply, hheld⟩ := ha.revise servers settings s.clusters hexist
    have hrevise : Provisioner.revise a p servers settings s =
        (.ok (), s.log servers (.revise settings) (a.revise servers settings s.clusters).2) := by
      simp only [Provisioner.revise, hreply]
      rfl
    rw [hrevise]
    exact ⟨_, rfl, hheld⟩

/-- Replacing everything that was made before, and what is wanted with it, makes what is wanted. -/
theorem Holdings.replace_replacement {held : Holdings κ} {k : κ} {settings : SortedMap String Overrides}
    {described : SortedMap String (List TopicSetting)}
    (hothers : ∀ k topic made, ∀ x ∈ others k topic made, x.isDefault = true ∨ x.isReadOnly = true)
    (h : ∀ topic, settings.get? topic ≠ none → ∃ made current, held k topic = some made ∧
      described.get? topic = some current ∧ ∀ x, x ∈ current ↔ x ∈ shown (others k topic made) made) :
    held.replace k (Provisioner.replacement settings described) = held.revise k settings := by
  funext k' topic
  unfold replace revise
  split
  · cases hwanted : settings.get? topic with
    | none => simp [Provisioner.replacement, SortedMap.get?_map, hwanted]
    | some wanted =>
      obtain ⟨made, current, hmade, hcurrent, hshown⟩ := h topic (by simp [hwanted])
      have hmerged : Provisioner.merged wanted current = made.amend wanted :=
        Provisioner.merged_eq_amend (hothers k topic made) hshown
      simp [Provisioner.replacement, SortedMap.get?_map, hwanted, hmade, hcurrent, hmerged]
  · rfl

theorem Admin.Replaces.alters (ha : a.Replaces home others held) : a.Alters home others held := by
  intro p servers settings described s hdescribed
  unfold Provisioner.alter
  split
  · next hempty => exact ⟨s, rfl, (Holdings.revise_of_isEmpty hempty _ _).symm⟩
  · obtain ⟨hsame, operation, hrefused⟩ := ha.refused servers settings s.clusters
    have hrevise : Provisioner.revise a p servers settings s = (.error (.unsupported operation),
        s.log servers (.revise settings) (a.revise servers settings s.clusters).2) := by
      simp only [Provisioner.revise, hrefused]
      rfl
    rw [hrevise]
    generalize a.revise servers settings s.clusters = between at hsame
    have hexist : ∀ topic, (Provisioner.replacement settings described).get? topic ≠ none →
        held between.2 (home servers) topic ≠ none := by
      intro topic hwanted
      rw [Provisioner.replacement, SortedMap.get?_map, Ne, Option.map_eq_none_iff] at hwanted
      obtain ⟨made, -, hmade, -⟩ := hdescribed topic hwanted
      simp [hsame, hmade]
    obtain ⟨hreply, hheld⟩ := ha.replace servers (Provisioner.replacement settings described) between.2 hexist
    rw [hsame, Holdings.replace_replacement ha.defaults hdescribed] at hheld
    refine ⟨_, Prod.ext (?_ : Reply.within p.timeout _ = _) rfl, hheld⟩
    exact congrArg _ hreply

/-! ## Runs -/

namespace Admin.Hosts

theorem connect_eq (ha : a.Hosts home others held) (source : Source) (s : Provisioning σ) :
    ∃ s', Provisioner.connect a source s = (.ok (), s') ∧ held s'.clusters = held s.clusters := by
  unfold Provisioner.connect
  split
  · exact ⟨s, rfl, rfl⟩
  · obtain ⟨hok, hsame⟩ := ha.connect source s.clusters
    rw [show a.connect source s.clusters = (.ok (), (a.connect source s.clusters).2) from Prod.ext hok rfl]
    exact ⟨_, rfl, hsame⟩

theorem list_eq (ha : a.Hosts home others held) (p : Provisioner) (servers : String) (s : Provisioning σ) :
    ∃ names s', Provisioner.list a p servers s = (.ok names, s') ∧ held s'.clusters = held s.clusters ∧
      ∀ topic, topic ∈ names ↔ held s.clusters (home servers) topic ≠ none := by
  obtain ⟨hsame, names, hreply, hnames⟩ := ha.list servers s.clusters
  refine ⟨names, _, Prod.ext (?_ : Reply.within p.timeout _ = _) rfl, hsame, hnames⟩
  rw [hreply]
  rfl

theorem create_eq (ha : a.Hosts home others held) (p : Provisioner) (servers : String)
    (topics : SortedMap String TopicSpec) (s : Provisioning σ) :
    ∃ s', Provisioner.create a p servers topics s = (.ok (), s') ∧
      held s'.clusters = (held s.clusters).create (home servers) topics := by
  unfold Provisioner.create
  split
  · next hempty => exact ⟨s, rfl, (Holdings.create_of_isEmpty hempty _ _).symm⟩
  · obtain ⟨hreply, hheld⟩ := ha.create servers topics s.clusters
    refine ⟨_, Prod.ext (?_ : Reply.within p.timeout _ = _) rfl, hheld⟩
    rw [hreply]
    rfl

theorem describe_eq (ha : a.Hosts home others held) (p : Provisioner) {names : List String}
    (hexist : ∀ topic ∈ names, held s.clusters (home servers) topic ≠ none) :
    ∃ described s', Provisioner.describe a p servers names s = (.ok described, s') ∧
      held s'.clusters = held s.clusters ∧
      ∀ topic ∈ names, ∀ made, held s.clusters (home servers) topic = some made →
        ∃ current, described.get? topic = some current ∧
          ∀ x, x ∈ current ↔ x ∈ shown (others (home servers) topic made) made := by
  obtain ⟨hsame, described, hreply, hdescribed⟩ := ha.describe servers names s.clusters hexist
  refine ⟨described, _, Prod.ext (?_ : Reply.within p.timeout _ = _) rfl, hsame, hdescribed⟩
  rw [hreply]
  rfl

/-- Topics that exist are altered where they do not show what is wanted. -/
theorem converge_eq (ha : a.Hosts home others held) (halters : a.Alters home others held) (p : Provisioner)
    {topics : SortedMap String TopicSpec} (report : ProvisionReport)
    (hexist : ∀ topic, topics.get? topic ≠ none → held s.clusters (home servers) topic ≠ none) :
    ∃ s', Provisioner.converge a p servers topics report s =
        (.ok { report with
          altered := report.altered ++ ((held s.clusters).present others (home servers) topics false).keys
          unchanged := report.unchanged ++ ((held s.clusters).present others (home servers) topics true).keys }, s') ∧
      held s'.clusters = (held s.clusters).revise (home servers)
        (((held s.clusters).present others (home servers) topics false).map fun _ spec => spec.overrides) := by
  have hkeys : ∀ topic ∈ topics.keys, held s.clusters (home servers) topic ≠ none := fun topic htopic =>
    hexist topic ((SortedMap.mem_keys_iff topics topic).1 htopic)
  unfold Provisioner.converge
  split
  · next hempty =>
    have hnothing : ∀ converged, ((held s.clusters).present others (home servers) topics converged).isEmpty = true :=
      fun _ => SortedMap.isEmpty_filter hempty _
    refine ⟨s, ?_, (Holdings.revise_of_isEmpty (SortedMap.isEmpty_map (hnothing false) _) _ _).symm⟩
    rw [SortedMap.keys_of_isEmpty (hnothing false), SortedMap.keys_of_isEmpty (hnothing true), List.append_nil,
      List.append_nil]
  · obtain ⟨described, s₁, hdescribe, hsame, hdescribed⟩ := ha.describe_eq p hkeys
    -- a description shows as converged what the cluster shows as converged
    have hseen : ∀ topic spec, topics.get? topic = some spec →
        ∃ made, held s.clusters (home servers) topic = some made ∧
        Provisioner.isConverged spec.overrides ((described.get? topic).getD []) =
          Provisioner.isConverged spec.overrides (shown (others (home servers) topic made) made) := by
      intro topic spec hspec
      have hmem : topic ∈ topics.keys := (SortedMap.mem_keys_iff topics topic).2 (by simp [hspec])
      obtain ⟨made, hmade⟩ := Option.ne_none_iff_exists'.1 (hkeys topic hmem)
      obtain ⟨current, hcurrent, hshown⟩ := hdescribed topic hmem made hmade
      refine ⟨made, hmade, ?_⟩
      rw [hcurrent, Option.getD_some]
      exact Provisioner.isConverged_congr hshown
    have hkept : (topics.filter fun topic spec =>
        Provisioner.isConverged spec.overrides ((described.get? topic).getD [])) =
          (held s.clusters).present others (home servers) topics true :=
      SortedMap.filter_congr fun topic spec hspec => by
        obtain ⟨made, hmade, hsame⟩ := hseen topic spec hspec
        rw [hmade, hsame, Option.any_some, beq_true]
    have hdrifted : (topics.filter fun topic spec =>
        !Provisioner.isConverged spec.overrides ((described.get? topic).getD [])) =
          (held s.clusters).present others (home servers) topics false :=
      SortedMap.filter_congr fun topic spec hspec => by
        obtain ⟨made, hmade, hsame⟩ := hseen topic spec hspec
        rw [hmade, hsame, Option.any_some, beq_false]
    simp only [hdescribe, hkept, hdrifted]
    have hwanted : ∀ topic, (((held s.clusters).present others (home servers) topics false).map
        fun _ spec => spec.overrides).get? topic ≠ none → ∃ made current,
          held s₁.clusters (home servers) topic = some made ∧ described.get? topic = some current ∧
            ∀ x, x ∈ current ↔ x ∈ shown (others (home servers) topic made) made := by
      intro topic hne
      rw [SortedMap.get?_map, Ne, Option.map_eq_none_iff, Holdings.present, SortedMap.get?_filter] at hne
      obtain ⟨spec, hspec⟩ := Option.ne_none_iff_exists'.1 hne
      have hmem : topic ∈ topics.keys :=
        (SortedMap.mem_keys_iff topics topic).2 (by simp [(Option.filter_eq_some_iff.1 hspec).1])
      obtain ⟨made, hmade⟩ := Option.ne_none_iff_exists'.1 (hkeys topic hmem)
      obtain ⟨current, hcurrent, hshown⟩ := hdescribed topic hmem made hmade
      exact ⟨made, current, by rw [hsame, hmade], hcurrent, hshown⟩
    obtain ⟨s₂, halter, hheld⟩ := halters p servers _ described s₁ hwanted
    rw [halter]
    rw [hsame] at hheld
    exact ⟨s₂, rfl, hheld⟩

/-- Provisioning topics on a cluster is told by what it holds. -/
theorem provisionOn_eq (ha : a.Hosts home others held) (halters : a.Alters home others held) (p : Provisioner)
    (servers : String) (topics : SortedMap String TopicSpec) (report : ProvisionReport) (s : Provisioning σ) :
    ∃ s', Provisioner.provisionOn a p servers topics report s =
        (.ok ((held s.clusters).tell others (home servers) topics report), s') ∧
      held s'.clusters = (held s.clusters).settle others (home servers) topics := by
  have hnothing : topics.isEmpty = true → ∀ f, (topics.filter f).isEmpty = true := fun hempty f =>
    SortedMap.isEmpty_filter hempty f
  unfold Provisioner.provisionOn
  split
  · next hempty =>
    refine ⟨s, ?_, ?_⟩
    · simp only [Holdings.tell, Holdings.missing, Holdings.present, SortedMap.keys_of_isEmpty (hnothing hempty _),
        List.append_nil]
    · rw [Holdings.settle, Holdings.missing, Holdings.create_of_isEmpty (hnothing hempty _), Holdings.present,
        Holdings.revise_of_isEmpty (SortedMap.isEmpty_map (hnothing hempty _) _)]
  · obtain ⟨existing, s₁, hlist, hsame, hexisting⟩ := ha.list_eq p servers s
    have hmissing : (topics.filter fun topic _ => !existing.contains topic) =
        (held s.clusters).missing (home servers) topics :=
      SortedMap.filter_congr fun topic spec _ => by
        rw [Bool.eq_iff_iff, Bool.not_eq_true', ← Bool.not_eq_true, List.contains_iff_mem, hexisting, not_not,
          Option.isNone_iff_eq_none]
    obtain ⟨s₂, hcreate, hcreated⟩ := ha.create_eq p servers ((held s.clusters).missing (home servers) topics) s₁
    rw [hsame] at hcreated
    -- creating topics leaves those that exist
    have hkept : ∀ topic, held s.clusters (home servers) topic ≠ none →
        held s₂.clusters (home servers) topic = held s.clusters (home servers) topic := by
      intro topic hexists
      obtain ⟨made, hmade⟩ := Option.ne_none_iff_exists'.1 hexists
      rw [hcreated, Holdings.create, if_pos rfl, hmade, Option.some_or]
    have hexist : ∀ topic, (topics.filter fun topic _ => existing.contains topic).get? topic ≠ none →
        held s₂.clusters (home servers) topic ≠ none := by
      intro topic hwanted
      rw [Provisioner.get?_present] at hwanted
      split at hwanted
      · next hmem =>
        rw [hkept topic ((hexisting topic).1 hmem)]
        exact (hexisting topic).1 hmem
      · exact absurd rfl hwanted
    have hpresent : ∀ converged, (held s₂.clusters).present others (home servers)
        (topics.filter fun topic _ => existing.contains topic) converged =
          (held s.clusters).present others (home servers) topics converged := by
      intro converged
      refine SortedMap.ext_get? fun topic => ?_
      rw [Holdings.present, SortedMap.get?_filter, Provisioner.get?_present, Holdings.present, SortedMap.get?_filter]
      by_cases hmem : topic ∈ existing
      · rw [if_pos hmem, hkept topic ((hexisting topic).1 hmem)]
      · have hnone : held s.clusters (home servers) topic = none := by
          by_contra hexists
          exact hmem ((hexisting topic).2 hexists)
        rw [if_neg hmem, hnone]
        cases topics.get? topic <;> rfl
    obtain ⟨s₃, hconverge, hheld⟩ := ha.converge_eq halters p
      { report with created := report.created ++ ((held s.clusters).missing (home servers) topics).keys } hexist
    simp only [hlist, hmissing, hcreate, hconverge, hpresent]
    rw [hcreated] at hheld
    refine ⟨s₃, rfl, ?_⟩
    rw [hheld, ← hcreated, hpresent]
    rw [hcreated]
    rfl

/-- So is provisioning shares of several clusters. -/
theorem provisionShares_eq (ha : a.Hosts home others held) (halters : a.Alters home others held) (p : Provisioner)
    (shares : List Share) (report : ProvisionReport) (s : Provisioning σ) :
    ∃ s', Provisioner.provisionShares a p shares report s =
        (.ok (Holdings.settleAll home others shares (held s.clusters) report).1, s') ∧
      held s'.clusters = (Holdings.settleAll home others shares (held s.clusters) report).2 := by
  induction shares generalizing s report with
  | nil => exact ⟨s, rfl, rfl⟩
  | cons share rest ih =>
    obtain ⟨s₁, hconnect, hsame⟩ := ha.connect_eq share.source s
    obtain ⟨s₂, hon, hheld⟩ := ha.provisionOn_eq halters p share.source.servers share.topics report s₁
    rw [hsame] at hon hheld
    obtain ⟨s₃, hrest, hafter⟩ := ih ((held s.clusters).tell others (home share.source.servers) share.topics report) s₂
    rw [hheld] at hrest hafter
    refine ⟨s₃, ?_, hafter⟩
    rw [Provisioner.provisionShares, hconnect]
    simp only [hon]
    exact hrest

end Admin.Hosts

end Hosts

/-! ## Clusters in memory with several addresses -/

/-- The settings that were made for the topics of clusters in memory. -/
abbrev Shelf (κ : Type) := κ → SortedMap String Overrides

namespace Shelf

variable {κ : Type} [DecidableEq κ]

/-- What clusters in memory hold. -/
def held (s : Shelf κ) : Holdings κ := fun k topic => (s k).get? topic

/-- Change what one cluster holds. -/
def change (k : κ) (f : SortedMap String Overrides → SortedMap String Overrides) (s : Shelf κ) : Shelf κ := fun k' =>
  if k' = k then f (s k) else s k'

/-- The administration of clusters in memory, which can make single settings or cannot. -/
def admin (home : String → κ) (others : κ → String → Overrides → List TopicSetting) (revisable : Bool) :
    Admin (Shelf κ) where
  connect _ s := (.ok (), s)
  list servers s := (some (.ok (s (home servers)).keys), s)
  create servers topics s :=
    (some (.ok ()), s.change (home servers) fun existing => (topics.map fun _ spec => spec.overrides).amend existing)
  describe servers names s :=
    let described := ((s (home servers)).filter fun topic _ => names.contains topic).map fun topic made =>
      shown (others (home servers) topic made) made
    (some (.ok described), s)
  revise servers settings s :=
    if revisable then
      (some (.ok ()), s.change (home servers) fun existing =>
        existing.map fun topic made => ((settings.get? topic).map made.amend).getD made)
    else (some (.error (.unsupported "IncrementalAlterConfigs")), s)
  replace servers settings s :=
    (some (.ok ()), s.change (home servers) fun existing =>
      existing.map fun topic made => (settings.get? topic).getD made)

variable {home : String → κ} {others : κ → String → Overrides → List TopicSetting}

theorem held_change (k : κ) (f : SortedMap String Overrides → SortedMap String Overrides) (s : Shelf κ) (k' : κ)
    (topic : String) : (s.change k f).held k' topic = if k' = k then (f (s k)).get? topic else s.held k' topic := by
  unfold held change
  split <;> rfl

theorem hosts (hothers : ∀ k topic made, ∀ x ∈ others k topic made, x.isDefault = true ∨ x.isReadOnly = true)
    (revisable : Bool) : (admin home others revisable).Hosts home others held where
  defaults := hothers
  connect _ _ := ⟨rfl, rfl⟩
  list servers s := ⟨rfl, _, rfl, fun topic => SortedMap.mem_keys_iff (s (home servers)) topic⟩
  create servers topics s := by
    refine ⟨rfl, ?_⟩
    funext k topic
    refine (held_change _ _ s k topic).trans ?_
    rw [SortedMap.get?_amend, SortedMap.get?_map]
    rfl
  describe servers names s _ := by
    refine ⟨rfl, _, rfl, fun topic htopic made hmade => ⟨_, ?_, fun _ => Iff.rfl⟩⟩
    have hget : (s (home servers)).get? topic = some made := hmade
    rw [SortedMap.get?_map, SortedMap.get?_filter, hget]
    simp [Option.filter, htopic]

theorem revises (hothers : ∀ k topic made, ∀ x ∈ others k topic made, x.isDefault = true ∨ x.isReadOnly = true) :
    (admin home others true).Revises home others held where
  toHosts := hosts hothers true
  revise servers settings s _ := by
    refine ⟨rfl, ?_⟩
    funext k topic
    refine (held_change _ _ s k topic).trans ?_
    rw [SortedMap.get?_map]
    rfl

theorem replaces (hothers : ∀ k topic made, ∀ x ∈ others k topic made, x.isDefault = true ∨ x.isReadOnly = true) :
    (admin home others false).Replaces home others held where
  toHosts := hosts hothers false
  refused _ _ _ := ⟨rfl, _, rfl⟩
  replace servers settings s _ := by
    refine ⟨rfl, ?_⟩
    funext k topic
    refine (held_change _ _ s k topic).trans ?_
    rw [SortedMap.get?_map]
    rfl

end Shelf

/-- Provisioning a pipeline comes to the same whether single settings can be made or all settings of a topic have to be
replaced: if the same settings were made for the same topics before, the same settings are made for the same topics
afterwards, and the reports are the same. There are reports if the subscribers have clusters. -/
theorem alter_paths_agree {κ σ τ : Type} [DecidableEq κ] {home : String → κ}
    {others : κ → String → Overrides → List TopicSetting} {a : Admin σ} {b : Admin τ} {held : σ → Holdings κ}
    {held' : τ → Holdings κ} (ha : a.Revises home others held) (hb : b.Replaces home others held') (p : Provisioner)
    (registry : Registry) (pipeline : String) (subscribers : List Subscriber) {s : Provisioning σ} {t : Provisioning τ}
    (h : held s.clusters = held' t.clusters) :
    let revised := p.provision a registry pipeline subscribers s
    let replaced := p.provision b registry pipeline subscribers t
    revised.1 = replaced.1 ∧
    (∀ k topic, held revised.2.clusters k topic = held' replaced.2.clusters k topic) ∧
    ((∀ x ∈ subscribers, ∃ source, Provisioner.source registry pipeline x = .ok source) →
      ∃ report, revised.1 = .ok report ∧ replaced.1 = .ok report) := by
  intro revised replaced
  cases hd : p.desired registry pipeline subscribers with
  | error e =>
    have hrevised : revised = (.error (.config e), s) := by simp only [revised, Provisioner.provision, hd]
    have hreplaced : replaced = (.error (.config e), t) := by simp only [replaced, Provisioner.provision, hd]
    rw [hrevised, hreplaced]
    refine ⟨rfl, fun k topic => congrFun (congrFun h k) topic, fun hsources => ?_⟩
    obtain ⟨d, hd'⟩ := Provisioner.exists_placeAll (p := p) hsources .empty
    have hcontra := hd.symm.trans hd'
    simp at hcontra
  | ok d =>
    obtain ⟨s', hrun, hafter⟩ := ha.provisionShares_eq ha.alters p d.values .empty s
    obtain ⟨t', hrun', hafter'⟩ := hb.provisionShares_eq hb.alters p d.values .empty t
    have hrevised : revised = Provisioner.provisionShares a p d.values .empty s := by
      simp only [revised, Provisioner.provision, hd]
    have hreplaced : replaced = Provisioner.provisionShares b p d.values .empty t := by
      simp only [replaced, Provisioner.provision, hd]
    rw [← h] at hrun' hafter'
    rw [hrevised, hreplaced, hrun, hrun']
    refine ⟨rfl, fun k topic => ?_, fun _ => ⟨_, rfl, rfl⟩⟩
    rw [hafter, hafter']

namespace TwoAddresses

/-- Two addresses are those of one cluster. -/
def home (servers : String) : Bool := servers = "d"

/-- Every topic shows a default and a setting that cannot be changed. -/
def others (_ : Bool) (_ : String) (_ : Overrides) : List TopicSetting :=
  [⟨"segment.ms", some "604800000", true, false⟩, ⟨"leader", some "1", false, true⟩]

/-- The topic of a subscriber, with another retention than the wanted one. -/
def shelf : Shelf Bool := fun _ => .ofList [("topic-a", .ofList [("cleanup.policy", "compact"), ("retention.ms", "5")])]

/-- A subscriber of a tenant, with a retention. -/
def subscriber (tenant : String) (millis : Int) : Subscriber := ⟨"a", ⟨false, .all, [⟨tenant, none, []⟩]⟩, ⟨millis, -1⟩⟩

def subscribers : List Subscriber := [subscriber "t" 7, subscriber "u" 9, subscriber "v" 7]

def registry : Registry :=
  ⟨.ofList [("", ⟨subscribers, .ofList [("t", ⟨"c"⟩), ("u", ⟨"c2"⟩), ("v", ⟨"d"⟩)]⟩)]⟩

def provisioner : Provisioner := ⟨"topic-", 10, 1, default⟩

def revised : Except AdminError ProvisionReport × Provisioning (Shelf Bool) :=
  provisioner.provision (Shelf.admin home others true) registry "" subscribers (.start shelf)

def replaced : Except AdminError ProvisionReport × Provisioning (Shelf Bool) :=
  provisioner.provision (Shelf.admin home others false) registry "" subscribers (.start shelf)

/-- The topic of one cluster is altered twice, that of the other cluster once. What else was made for the topics stays,
and what was not made for them is not made, in both ways. -/
theorem agree_two_addresses :
    replaced.1 = .ok ⟨[], ["topic-a", "topic-a", "topic-a"], []⟩ ∧ revised.1 = replaced.1 ∧
      (∀ k topic, revised.2.clusters.held k topic = replaced.2.clusters.held k topic) ∧
      replaced.2.clusters.held false "topic-a" =
        some (.ofList [("cleanup.policy", "compact"), ("retention.bytes", "-1"), ("retention.ms", "9")]) := by
  have hothers : ∀ k topic made, ∀ x ∈ others k topic made, x.isDefault = true ∨ x.isReadOnly = true := by
    simp [others]
  obtain ⟨hreports, hheld, -⟩ := alter_paths_agree (Shelf.revises hothers) (Shelf.replaces hothers) provisioner registry
    "" subscribers (rfl : (Provisioning.start shelf).clusters.held = (Provisioning.start shelf).clusters.held)
  have hrun : replaced.1 = .ok ⟨[], ["topic-a", "topic-a", "topic-a"], []⟩ := by decide +kernel
  exact ⟨hrun, hreports, hheld, by decide +kernel⟩

end TwoAddresses

end Relay
