import Relay.Proofs.SharedTopics

/-!
# How topics are found

A wanted topic is found in one of three ways: it is missing, its log is kept as it should be, or it is there and its log
is not. A run that comes to its end reports every wanted topic of every cluster once, by how it was found before
(`report_provision`). What is found after a run is kept.
-/

namespace Relay

/-! ## Findings -/

/-- How a topic is found that is wanted. -/
inductive Finding where
  | missing
  | drifted
  | kept
  deriving DecidableEq

instance (t : TopicState) (r : Retention) : Decidable (t.Keeps r) :=
  decidable_of_iff
    (t.effective? "retention.ms" = some (toString r.millis) ∧ t.effective? "retention.bytes" = some (toString r.bytes))
    ⟨fun h => ⟨h.1, h.2⟩, fun h => ⟨h.millis, h.bytes⟩⟩

namespace TopicSpec

/-- How a topic is found, as far as there is one. -/
def finding (spec : TopicSpec) : Option TopicState → Finding
  | none => .missing
  | some t => if t.Keeps spec.retention then .kept else .drifted

/-- The wanted topics of a cluster that are found in one way. -/
def found (topics : SortedMap String TopicSpec) (there : String → Option TopicState) (f : Finding) :
    SortedMap String TopicSpec :=
  topics.filter fun topic spec => spec.finding (there topic) = f

variable {spec : TopicSpec} {there : Option TopicState}

theorem finding_eq_missing : spec.finding there = .missing ↔ there = none := by
  cases there with
  | none => simp [finding]
  | some t => by_cases h : t.Keeps spec.retention <;> simp [finding, h]

theorem finding_eq_kept : spec.finding there = .kept ↔ ∃ t, there = some t ∧ t.Keeps spec.retention := by
  cases there with
  | none => simp [finding]
  | some t => by_cases h : t.Keeps spec.retention <;> simp [finding, h]

theorem finding_eq_drifted : spec.finding there = .drifted ↔ ∃ t, there = some t ∧ ¬t.Keeps spec.retention := by
  cases there with
  | none => simp [finding]
  | some t => by_cases h : t.Keeps spec.retention <;> simp [finding, h]

theorem drifted_iff_not_kept (h : there ≠ none) : spec.finding there = .drifted ↔ spec.finding there ≠ .kept := by
  have hthere : spec.finding there ≠ .missing := mt finding_eq_missing.1 h
  cases hf : spec.finding there with
  | missing => exact absurd hf hthere
  | drifted => simp
  | kept => simp

theorem keys_found_of_isEmpty {topics : SortedMap String TopicSpec} (h : topics.isEmpty = true)
    (there : String → Option TopicState) (f : Finding) : (found topics there f).keys = [] :=
  SortedMap.keys_of_isEmpty (SortedMap.isEmpty_filter h _)

end TopicSpec

/-- The clusters and topics of shares that are found in one way. -/
def Desired.found (shares : List (String × Share)) (there : Topics) (f : Finding) : List (String × String) :=
  shares.flatMap fun e => (TopicSpec.found e.2.topics (there e.1) f).keys.map (e.1, ·)

namespace Desired

variable {shares : List (String × Share)} {d : Desired} {there there' : Topics} {f : Finding}

theorem found_congr (h : ∀ e ∈ shares, there e.1 = there' e.1) : found shares there f = found shares there' f := by
  unfold found
  refine List.flatMap_congr fun e he => ?_
  rw [h e he]

theorem mem_found {servers topic : String} :
    (servers, topic) ∈ found d.entries there f ↔
      ∃ spec, d.wanted? servers topic = some spec ∧ spec.finding (there servers topic) = f := by
  simp only [found, List.mem_flatMap, List.mem_map, Prod.mk.injEq, SortedMap.mem_keys_iff, TopicSpec.found,
    SortedMap.get?_filter, Option.ne_none_iff_exists', Option.filter_eq_some_iff, decide_eq_true_eq, wanted?,
    Option.bind_eq_some_iff, SortedMap.get?_eq_some_iff]
  constructor
  · rintro ⟨e, he, topic', ⟨spec, hspec, hfound⟩, rfl, rfl⟩
    exact ⟨spec, ⟨e.2, he, hspec⟩, hfound⟩
  · rintro ⟨spec, ⟨share, hshare, hspec⟩, hfound⟩
    exact ⟨_, hshare, topic, ⟨spec, hspec, hfound⟩, rfl, rfl⟩

theorem nodup_found (d : Desired) (there : Topics) (f : Finding) : (found d.entries there f).Nodup := by
  refine List.nodup_flatMap.2 ⟨fun e _ => ?_, ?_⟩
  · exact (TopicSpec.found e.2.topics (there e.1) f).nodup_keys.map fun _ _ h => (Prod.mk.inj h).2
  -- clusters have different addresses
  · refine (List.pairwise_map.1 d.nodup_keys).imp fun hne => ?_
    intro place hplace hplace'
    obtain ⟨_, -, rfl⟩ := List.mem_map.1 hplace
    obtain ⟨_, -, heq⟩ := List.mem_map.1 hplace'
    exact hne (Prod.mk.inj heq).1.symm

/-- A topic is found in one way only. -/
theorem disjoint_found (d : Desired) (there : Topics) {f f' : Finding} (hne : f ≠ f') :
    List.Disjoint (found d.entries there f) (found d.entries there f') := by
  rintro ⟨servers, topic⟩ hmem hmem'
  obtain ⟨spec, hspec, hfound⟩ := mem_found.1 hmem
  obtain ⟨spec', hspec', hfound'⟩ := mem_found.1 hmem'
  obtain rfl := Option.some.inj (hspec.symm.trans hspec')
  exact hne (hfound.symm.trans hfound')

theorem nodup_findings (d : Desired) (there : Topics) :
    (found d.entries there .missing ++ found d.entries there .drifted ++ found d.entries there .kept).Nodup := by
  have hexisting : (found d.entries there .missing ++ found d.entries there .drifted).Nodup :=
    (d.nodup_found there .missing).append (d.nodup_found there .drifted) (d.disjoint_found there (by decide))
  refine hexisting.append (d.nodup_found there .kept) (List.disjoint_append_left.2 ⟨?_, ?_⟩)
  · exact d.disjoint_found there (by decide)
  · exact d.disjoint_found there (by decide)

/-- What is wanted is found in some way. -/
theorem mem_findings {servers topic : String} :
    (servers, topic) ∈ found d.entries there .missing ++ found d.entries there .drifted ++ found d.entries there .kept ↔
      ∃ spec, d.wanted? servers topic = some spec := by
  simp only [List.mem_append, mem_found]
  constructor
  · rintro ((⟨spec, hspec, -⟩ | ⟨spec, hspec, -⟩) | ⟨spec, hspec, -⟩) <;> exact ⟨spec, hspec⟩
  · rintro ⟨spec, hspec⟩
    cases hf : spec.finding (there servers topic) with
    | missing => exact .inl (.inl ⟨spec, hspec, hf⟩)
    | drifted => exact .inl (.inr ⟨spec, hspec, hf⟩)
    | kept => exact .inr ⟨spec, hspec, hf⟩

end Desired

/-! ## One run -/

section Runs

variable {σ : Type} {a : Admin σ} {Sound : σ → Prop} {view : σ → Topics} {p : Provisioner} {registry : Registry}
  {servers : String} {topics : SortedMap String TopicSpec} {report report' : ProvisionReport}
  {s s' s'' : Provisioning σ}

namespace Admin.Discloses

/-- A topic is seen as converged if its log is kept as it should be. -/
theorem isConverged_iff (ha : a.Discloses Sound view) (hs : Sound s.clusters) {names : List String}
    {described : SortedMap String (List TopicSetting)}
    (h : Provisioner.describe a p servers names s = (.ok described, s')) {topic : String} (htopic : topic ∈ names)
    (spec : TopicSpec) (hexists : view s.clusters servers topic ≠ none) :
    Provisioner.isConverged spec.overrides ((described.get? topic).getD []) = true ↔
      spec.finding (view s.clusters servers topic) = .kept := by
  obtain ⟨t, ht⟩ := Option.ne_none_iff_exists'.1 hexists
  obtain ⟨clusters, hcall, -⟩ := Provisioner.describe_ok h
  obtain ⟨-, -, hdescribed⟩ := ha.describe hs hcall
  obtain ⟨current, hcurrent, hd⟩ := hdescribed topic htopic t ht
  have hshown := ha.shows hs hcall topic htopic t current ht hcurrent
  rw [hcurrent, Option.getD_some, ht, TopicSpec.finding_eq_kept]
  constructor
  · intro hconverged
    exact ⟨t, rfl, TopicSpec.shows_iff_keeps.1 (Provisioner.shows_of_isConverged hd hconverged)⟩
  · rintro ⟨_, ⟨⟩, hkeeps⟩
    exact Provisioner.isConverged_of_shows hshown (TopicSpec.shows_iff_keeps.2 hkeeps)

/-- Topics that exist are reported as altered or as unchanged. -/
theorem report_converge (ha : a.Discloses Sound view) (hs : Sound s.clusters)
    (hexist : ∀ topic, topics.get? topic ≠ none → view s.clusters servers topic ≠ none)
    (h : Provisioner.converge a p servers topics report s = (.ok report', s')) :
    report' = { report with
      altered := report.altered ++ (TopicSpec.found topics (view s.clusters servers) .drifted).keys
      unchanged := report.unchanged ++ (TopicSpec.found topics (view s.clusters servers) .kept).keys } := by
  rcases Provisioner.converge_ok h with ⟨hempty, rfl, -⟩ | ⟨described, s₁, hdescribe, -, rfl⟩
  · simp only [TopicSpec.keys_found_of_isEmpty hempty, List.append_nil]
  · have hseen : ∀ topic spec, topics.get? topic = some spec →
        (Provisioner.isConverged spec.overrides ((described.get? topic).getD []) = true ↔
          spec.finding (view s.clusters servers topic) = .kept) := by
      intro topic spec hspec
      have hwanted : topics.get? topic ≠ none := by simp [hspec]
      exact ha.isConverged_iff hs hdescribe ((SortedMap.mem_keys_iff topics topic).2 hwanted) spec
        (hexist topic hwanted)
    have hkept : (topics.filter fun topic spec =>
        Provisioner.isConverged spec.overrides ((described.get? topic).getD [])) =
          TopicSpec.found topics (view s.clusters servers) .kept :=
      SortedMap.filter_congr fun topic spec hspec => by
        rw [Bool.eq_iff_iff, hseen topic spec hspec, decide_eq_true_eq]
    have hdrifted : Provisioner.drifted described topics =
        TopicSpec.found topics (view s.clusters servers) .drifted := by
      refine SortedMap.filter_congr fun topic spec hspec => ?_
      have hexists := hexist topic (by simp [hspec])
      rw [Bool.eq_iff_iff, Bool.not_eq_true', decide_eq_true_eq, TopicSpec.drifted_iff_not_kept hexists, Ne,
        ← hseen topic spec hspec, Bool.not_eq_true]
    rw [hkept, hdrifted]

/-- The wanted topics of a cluster are reported as they were found. -/
theorem report_provisionOn (ha : a.Discloses Sound view) (hs : Sound s.clusters)
    (h : Provisioner.provisionOn a p servers topics report s = (.ok report', s')) :
    report' = {
      created := report.created ++ (TopicSpec.found topics (view s.clusters servers) .missing).keys
      altered := report.altered ++ (TopicSpec.found topics (view s.clusters servers) .drifted).keys
      unchanged := report.unchanged ++ (TopicSpec.found topics (view s.clusters servers) .kept).keys } := by
  rcases Provisioner.provisionOn_ok h with ⟨hempty, rfl, -⟩ | ⟨existing, s₁, s₂, hlist, hcreate, hconverge⟩
  · simp only [TopicSpec.keys_found_of_isEmpty hempty, List.append_nil]
  · obtain ⟨clusters, hcall, -⟩ := Provisioner.list_ok hlist
    obtain ⟨-, -, hexisting⟩ := ha.list hs hcall
    have hlooked := ha.looked_list hs hlist
    obtain ⟨hsound₂, hframe, -⟩ := ha.created hlooked.sound hcreate
    have hkept : ∀ topic, view s.clusters servers topic ≠ none →
        view s₂.clusters servers topic = view s.clusters servers topic := by
      intro topic hexists
      rw [← hlooked.same] at hexists ⊢
      exact hframe servers topic (.inr (.inr hexists))
    have hmissing : (topics.filter fun topic _ => !existing.contains topic) =
        TopicSpec.found topics (view s.clusters servers) .missing :=
      SortedMap.filter_congr fun topic spec _ => by
        rw [Bool.eq_iff_iff, decide_eq_true_eq, TopicSpec.finding_eq_missing, Bool.not_eq_true', ← Bool.not_eq_true,
          List.contains_iff_mem, hexisting, not_not]
    have hpresent : ∀ topic, (topics.filter fun topic _ => existing.contains topic).get? topic ≠ none →
        view s.clusters servers topic ≠ none := by
      intro topic hwanted
      rw [Provisioner.get?_present] at hwanted
      split at hwanted
      · next hmem => exact (hexisting topic).1 hmem
      · exact absurd rfl hwanted
    have hfound : ∀ f, f ≠ .missing →
        TopicSpec.found (topics.filter fun topic _ => existing.contains topic) (view s₂.clusters servers) f =
          TopicSpec.found topics (view s.clusters servers) f := by
      intro f hf
      refine SortedMap.ext_get? fun topic => ?_
      rw [TopicSpec.found, SortedMap.get?_filter, Provisioner.get?_present, TopicSpec.found, SortedMap.get?_filter]
      by_cases hmem : topic ∈ existing
      · rw [if_pos hmem, hkept topic ((hexisting topic).1 hmem)]
      -- a topic that is not there is found as missing only
      · have hnone : view s.clusters servers topic = none := by
          by_contra hexists
          exact hmem ((hexisting topic).2 hexists)
        rw [if_neg hmem, hnone]
        cases topics.get? topic with
        | none => rfl
        | some spec => simp [Option.filter, TopicSpec.finding, hf.symm]
    have hreport := ha.report_converge hsound₂ (fun topic hwanted => ?_) hconverge
    · rw [hreport, hmissing, hfound .drifted (by decide), hfound .kept (by decide)]
    · rw [hkept topic (hpresent topic hwanted)]
      exact hpresent topic hwanted

/-- The wanted topics of all clusters are reported as they were found before the run. -/
theorem report_provisionShares (ha : a.Discloses Sound view) {shares : List (String × Share)}
    (hservers : ∀ e ∈ shares, e.2.source.servers = e.1) (hdistinct : (shares.map (·.1)).Nodup) (hs : Sound s.clusters)
    (h : Provisioner.provisionShares a p (shares.map (·.2)) report s = (.ok report', s')) :
    report' = {
      created := report.created ++ (Desired.found shares (view s.clusters) .missing).map (·.2)
      altered := report.altered ++ (Desired.found shares (view s.clusters) .drifted).map (·.2)
      unchanged := report.unchanged ++ (Desired.found shares (view s.clusters) .kept).map (·.2) } := by
  induction shares generalizing s report with
  | nil =>
    obtain ⟨hreport, -⟩ := Prod.mk.inj h
    obtain rfl := Except.ok.inj hreport
    simp [Desired.found]
  | cons e rest ih =>
    obtain ⟨he, hservers⟩ := List.forall_mem_cons.1 hservers
    obtain ⟨hfresh, hdistinct⟩ := List.nodup_cons.1 hdistinct
    rw [List.map_cons, Provisioner.provisionShares] at h
    split at h
    · simp at h
    · next s₁ hconnect =>
      split at h
      · simp at h
      · next report₁ s₂ hon =>
        obtain ⟨hsound₁, hsame⟩ := ha.connected hs hconnect
        have hexact : False → a.MarksExactly Sound view := False.elim
        obtain ⟨hsound₂, hothers, -⟩ := ha.provisionOn hexact hsound₁ hon
        have hfirst := ha.report_provisionOn hsound₁ hon
        rw [hsame, he] at hfirst hothers
        have hrest : ∀ f, Desired.found rest (view s₂.clusters) f = Desired.found rest (view s.clusters) f := by
          intro f
          refine Desired.found_congr fun e' he' => hothers e'.1 fun heq => hfresh ?_
          exact List.mem_map.2 ⟨e', he', heq⟩
        have hcons : ∀ f, (Desired.found (e :: rest) (view s.clusters) f).map (·.2) =
            (TopicSpec.found e.2.topics (view s.clusters e.1) f).keys ++
              (Desired.found rest (view s.clusters) f).map (·.2) := by
          intro f
          rw [Desired.found, List.flatMap_cons, List.map_append, List.map_map]
          exact congrArg (· ++ _) (List.map_id _)
        have hreport := ih hservers hdistinct hsound₂ h
        simp only [hreport, hfirst, hrest, hcons, List.append_assoc]

end Admin.Discloses

/-! ## Pipelines -/

section Pipelines

variable {pipeline : String} {subscribers : List Subscriber} {d : Desired}

/-- What is wanted for a pipeline are the topics of its subscribers. -/
theorem Provisioner.wanted_iff (hd : p.desired registry pipeline subscribers = .ok d) {servers topic : String} :
    (∃ spec, d.wanted? servers topic = some spec) ↔
      ∃ x ∈ subscribers, p.place? registry pipeline x = some (servers, topic) := by
  obtain ⟨-, -, hwanted⟩ := desired_ok hd
  rw [hwanted]
  constructor
  · rintro ⟨spec, hspec⟩
    obtain ⟨y, hy, -⟩ := Option.map_eq_some_iff.1 hspec
    exact ⟨y, place?_of_keeper? hy⟩
  · rintro ⟨x, hx, hplace⟩
    obtain ⟨y, hy⟩ := exists_keeper hx hplace
    exact ⟨p.spec y, by rw [hy]; rfl⟩

/-- What is wanted for a pipeline is there once it was provisioned. -/
theorem Admin.Honours.met (ha : a.Honours Sound view) (hs : Sound s.clusters)
    (h : p.provision a registry pipeline subscribers s = (.ok report, s')) :
    Sound s'.clusters ∧ p.Met registry pipeline subscribers (view s'.clusters) := by
  have hexact : False → a.MarksExactly Sound view := False.elim
  obtain ⟨hsound, d, hd, hprovisioned⟩ := ha.provision hexact hs h
  refine ⟨hsound, fun d' hd' servers => ?_⟩
  obtain rfl := Except.ok.inj (hd.symm.trans hd')
  exact (hprovisioned servers).wanted

theorem Admin.Discloses.report_provision (ha : a.Discloses Sound view) (hs : Sound s.clusters)
    (hd : p.desired registry pipeline subscribers = .ok d)
    (h : p.provision a registry pipeline subscribers s = (.ok report, s')) :
    report = ⟨(Desired.found d.entries (view s.clusters) .missing).map (·.2),
      (Desired.found d.entries (view s.clusters) .drifted).map (·.2),
      (Desired.found d.entries (view s.clusters) .kept).map (·.2)⟩ := by
  obtain ⟨haddressed, -, -⟩ := Provisioner.desired_ok hd
  have hservers : ∀ e ∈ d.entries, e.2.source.servers = e.1 := fun e he =>
    haddressed e.1 e.2 ((SortedMap.get?_eq_some_iff d).2 he)
  rw [Provisioner.provision, hd] at h
  exact ha.report_provisionShares hservers d.nodup_keys hs h

/-- Where everything is as it is wanted, every topic is found kept. -/
theorem Provisioner.Met.kept {there : Topics} (hw : p.Met registry pipeline subscribers there)
    (hd : p.desired registry pipeline subscribers = .ok d) {topic : String} {spec : TopicSpec}
    (hspec : d.wanted? servers topic = some spec) : spec.finding (there servers topic) = .kept := by
  obtain ⟨t, ht, hshows⟩ := hw d hd servers topic spec ((d.get?_topics servers topic).trans hspec)
  exact TopicSpec.finding_eq_kept.2 ⟨t, ht, TopicSpec.shows_iff_keeps.1 hshows⟩

theorem Provisioner.Met.found_eq_nil {there : Topics} (hw : p.Met registry pipeline subscribers there)
    (hd : p.desired registry pipeline subscribers = .ok d) {f : Finding} (hf : f ≠ .kept) :
    Desired.found d.entries there f = [] := by
  refine List.eq_nil_iff_forall_not_mem.2 fun place hplace => ?_
  obtain ⟨spec, hspec, hfound⟩ := Desired.mem_found.1 hplace
  exact hf (hfound.symm.trans (hw.kept hd hspec))

end Pipelines

end Runs

end Relay
