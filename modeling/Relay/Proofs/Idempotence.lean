import Relay.Proofs.Convergence

/-!
# Provisioning what is provisioned

A run that finds everything as it is wanted only looks at the clusters: it connects, lists and describes, whether or
not it comes to an end (`Provisioning.Looked`). A run that comes to its end and did not have to alter any of the topics
that existed found them as they are wanted. So whether a run changes anything is told by the clusters that it starts
with, and by its reports.
-/

namespace Relay

/-- Whether a call only asks how things are. -/
def AdminCall.isLook : AdminCall → Bool
  | .connect | .list | .describe _ => true
  | .create _ | .revise _ | .replace _ => false

/-- Looking changes nothing, even where it fails, and descriptions show every value that holds. -/
structure Admin.Discloses {σ : Type} (a : Admin σ) (Sound : σ → Prop) (view : σ → Topics) : Prop extends
    a.Honours Sound view where
  list_keeps : ∀ {s} servers, Sound s → Sound (a.list servers s).2 ∧ view (a.list servers s).2 = view s
  describe_keeps : ∀ {s} servers names, Sound s →
    Sound (a.describe servers names s).2 ∧ view (a.describe servers names s).2 = view s
  shows : ∀ {s s' servers names described}, Sound s → a.describe servers names s = (some (.ok described), s') →
    ∀ topic ∈ names, ∀ t settings, view s servers topic = some t → described.get? topic = some settings →
      ∀ name v, t.effective? name = some v → ∃ x ∈ settings, x.name = name ∧ x.value = some v

/-- The wanted topics of a cluster exist with the settings that are wanted of them. -/
def AsWanted (topics : SortedMap String TopicSpec) (there : String → Option TopicState) : Prop :=
  ∀ topic spec, topics.get? topic = some spec → ∃ t, there topic = some t ∧ t.Shows spec.overrides

theorem AsWanted.filter {topics : SortedMap String TopicSpec} {there : String → Option TopicState}
    (h : AsWanted topics there) (f : String → TopicSpec → Bool) : AsWanted (topics.filter f) there := by
  intro topic spec hspec
  rw [SortedMap.get?_filter] at hspec
  exact h topic spec (Option.filter_eq_some_iff.1 hspec).1

/-- Nothing but looks lies between two states of provisioning, and the clusters are as they were. -/
structure Provisioning.Looked {σ : Type} (Sound : σ → Prop) (view : σ → Topics) (s s' : Provisioning σ) : Prop where
  sound : Sound s'.clusters
  same : view s'.clusters = view s.clusters
  calls : ∃ calls, s'.calls = calls ++ s.calls ∧ ∀ c ∈ calls, c.2.isLook = true

/-- Provisioning that began with a report only looked at the clusters. If it came to its end it found topics as they
should be, and reports no others. -/
structure Provisioning.Idle {σ : Type} (Sound : σ → Prop) (view : σ → Topics) (s : Provisioning σ)
    (report : ProvisionReport) (run : Except AdminError ProvisionReport × Provisioning σ) : Prop where
  looked : s.Looked Sound view run.2
  same : ∀ report', run.1 = .ok report' → report'.created = report.created ∧ report'.altered = report.altered

section Runs

variable {σ : Type} {a : Admin σ} {Sound : σ → Prop} {view : σ → Topics} {p : Provisioner} {registry : Registry}
  {servers : String} {topics : SortedMap String TopicSpec} {report report' : ProvisionReport}
  {s s' s'' : Provisioning σ}

namespace Provisioning.Looked

theorem refl (hs : Sound s.clusters) : s.Looked Sound view s := ⟨hs, rfl, [], rfl, by simp⟩

theorem trans (h : s.Looked Sound view s') (h' : s'.Looked Sound view s'') : s.Looked Sound view s'' := by
  obtain ⟨-, hsame, calls, hcalls, hlooks⟩ := h
  obtain ⟨hsound, hsame', calls', hcalls', hlooks'⟩ := h'
  refine ⟨hsound, hsame'.trans hsame, calls' ++ calls, ?_, List.forall_mem_append.2 ⟨hlooks', hlooks⟩⟩
  rw [hcalls', hcalls, List.append_assoc]

/-- Only what a state knows of the clusters and what was asked of them matters. -/
theorem congr (h : s.Looked Sound view s') (hclusters : s''.clusters = s'.clusters) (hcalls : s''.calls = s'.calls) :
    s.Looked Sound view s'' := by
  obtain ⟨hsound, hsame, hlooks⟩ := h
  rw [← hclusters] at hsound hsame
  rw [← hcalls] at hlooks
  exact ⟨hsound, hsame, hlooks⟩

theorem log {clusters : σ} (hs : Sound clusters ∧ view clusters = view s.clusters) (servers : String) {call : AdminCall}
    (hlook : call.isLook = true) : s.Looked Sound view (s.log servers call clusters) :=
  ⟨hs.1, hs.2, [(servers, call)], rfl, by simpa using hlook⟩

theorem tally (hs : Sound s.clusters) (pipeline : String) (result : Except AdminError ProvisionReport) :
    s.Looked Sound view (Provisioner.tally pipeline result s) := by
  cases result <;> exact (refl hs).congr rfl rfl

end Provisioning.Looked

namespace Provisioning.Idle

theorem refl (hs : Sound s.clusters) (report : ProvisionReport) : s.Idle Sound view report (.ok report, s) :=
  ⟨.refl hs, by rintro report' ⟨⟩; exact ⟨rfl, rfl⟩⟩

theorem failed (h : s.Looked Sound view s') (report : ProvisionReport) (e : AdminError) :
    s.Idle Sound view report (.error e, s') :=
  ⟨h, by simp⟩

/-- What was done before was looking as well. -/
theorem after {run : Except AdminError ProvisionReport × Provisioning σ} (h : s.Looked Sound view s')
    (hidle : s'.Idle Sound view report run) : s.Idle Sound view report run :=
  ⟨h.trans hidle.looked, hidle.same⟩

end Provisioning.Idle

namespace Provisioner

/-- Where no settings are to be made nothing is asked for. -/
theorem alter_empty {settings : SortedMap String Overrides} (h : settings.isEmpty = true)
    (described : SortedMap String (List TopicSetting)) : alter a p servers settings described s = (.ok (), s) :=
  if_pos h

theorem create_empty (h : topics.isEmpty = true) : create a p servers topics s = (.ok (), s) := if_pos h

/-- A description that shows the values that hold shows that the wanted ones do. -/
theorem isConverged_of_shows {wanted : Overrides} {current : List TopicSetting} {t : TopicState}
    (hcurrent : ∀ name v, t.effective? name = some v → ∃ x ∈ current, x.name = name ∧ x.value = some v)
    (h : t.Shows wanted) : isConverged wanted current = true := by
  refine List.all_eq_true.2 fun e he => ?_
  have hv : wanted.get? e.1 = some e.2 := (SortedMap.get?_eq_some_iff wanted).2 he
  obtain ⟨x, hx, hname, hvalue⟩ := hcurrent e.1 e.2 (h e.1 e.2 hv)
  exact List.any_eq_true.2 ⟨x, hx, by simp [hname, hvalue]⟩

end Provisioner

/-! ## Everything is as it is wanted -/

namespace Admin.Discloses

theorem looked_connect (ha : a.Discloses Sound view) (hs : Sound s.clusters) {source : Source}
    {result : Except AdminError Unit} (h : Provisioner.connect a source s = (result, s')) : s.Looked Sound view s' := by
  have hcall := ha.connect source hs
  unfold Provisioner.connect at h
  split at h
  · obtain ⟨-, rfl⟩ := Prod.mk.inj h
    exact .refl hs
  · split at h
    · next heq =>
      rw [heq] at hcall
      obtain ⟨-, rfl⟩ := Prod.mk.inj h
      exact .log hcall source.servers rfl
    · next clusters heq =>
      rw [heq] at hcall
      obtain ⟨-, rfl⟩ := Prod.mk.inj h
      have hlooked : s.Looked Sound view (s.log source.servers .connect clusters) := .log hcall source.servers rfl
      exact hlooked.congr rfl rfl

theorem looked_list (ha : a.Discloses Sound view) (hs : Sound s.clusters) {result : Except AdminError (List String)}
    (h : Provisioner.list a p servers s = (result, s')) : s.Looked Sound view s' := by
  obtain ⟨-, rfl⟩ := Prod.mk.inj h
  exact .log (ha.list_keeps servers hs) servers rfl

theorem looked_describe (ha : a.Discloses Sound view) (hs : Sound s.clusters) {names : List String}
    {result : Except AdminError (SortedMap String (List TopicSetting))}
    (h : Provisioner.describe a p servers names s = (result, s')) : s.Looked Sound view s' := by
  obtain ⟨-, rfl⟩ := Prod.mk.inj h
  exact .log (ha.describe_keeps servers names hs) servers rfl

/-- Nothing is seen as drifted. -/
theorem isEmpty_drifted (ha : a.Discloses Sound view) (hs : Sound s.clusters)
    (hw : AsWanted topics (view s.clusters servers)) {described : SortedMap String (List TopicSetting)}
    (h : Provisioner.describe a p servers topics.keys s = (.ok described, s')) :
    (Provisioner.drifted described topics).isEmpty = true := by
  obtain ⟨clusters, hcall, -⟩ := Provisioner.describe_ok h
  obtain ⟨-, -, hdescribed⟩ := ha.describe hs hcall
  refine (SortedMap.isEmpty_iff _).2 fun topic => ?_
  rw [Provisioner.drifted, SortedMap.get?_filter]
  cases hspec : topics.get? topic with
  | none => rfl
  | some spec =>
    have hasked : topic ∈ topics.keys := (SortedMap.mem_keys_iff topics topic).2 (by simp [hspec])
    obtain ⟨t, ht, hshows⟩ := hw topic spec hspec
    obtain ⟨current, hcurrent, -⟩ := hdescribed topic hasked t ht
    have hconverged := Provisioner.isConverged_of_shows (ha.shows hs hcall topic hasked t current ht hcurrent) hshows
    simp [Option.filter, hcurrent, hconverged]

/-- Nothing is seen as missing. -/
theorem isEmpty_missing (ha : a.Discloses Sound view) (hs : Sound s.clusters)
    (hw : AsWanted topics (view s.clusters servers)) {existing : List String}
    (h : Provisioner.list a p servers s = (.ok existing, s')) :
    (topics.filter fun topic _ => !existing.contains topic).isEmpty = true := by
  obtain ⟨clusters, hcall, -⟩ := Provisioner.list_ok h
  obtain ⟨-, -, hexisting⟩ := ha.list hs hcall
  refine (SortedMap.isEmpty_iff _).2 fun topic => ?_
  rw [Provisioner.get?_missing]
  split
  · rfl
  · next hmissing =>
    refine Option.eq_none_iff_forall_ne_some.2 fun spec hspec => ?_
    obtain ⟨t, ht, -⟩ := hw topic spec hspec
    exact hmissing ((hexisting topic).2 (by simp [ht]))

theorem idle_converge (ha : a.Discloses Sound view) (hs : Sound s.clusters)
    (hw : AsWanted topics (view s.clusters servers)) :
    s.Idle Sound view report (Provisioner.converge a p servers topics report s) := by
  unfold Provisioner.converge
  split
  · exact .refl hs report
  · split
    · next hdescribe => exact .failed (ha.looked_describe hs hdescribe) report _
    · next described s₁ hdescribe =>
      have hempty := ha.isEmpty_drifted hs hw hdescribe
      have hnothing := SortedMap.isEmpty_map hempty fun _ spec => spec.overrides
      have hkeys := SortedMap.keys_of_isEmpty hempty
      rw [Provisioner.drifted] at hnothing hkeys
      simp only [Provisioner.alter_empty hnothing, hkeys, List.append_nil]
      refine ⟨ha.looked_describe hs hdescribe, ?_⟩
      rintro report' ⟨⟩
      exact ⟨rfl, rfl⟩

theorem idle_provisionOn (ha : a.Discloses Sound view) (hs : Sound s.clusters)
    (hw : AsWanted topics (view s.clusters servers)) :
    s.Idle Sound view report (Provisioner.provisionOn a p servers topics report s) := by
  unfold Provisioner.provisionOn
  split
  · exact .refl hs report
  · split
    · next hlist => exact .failed (ha.looked_list hs hlist) report _
    · next existing s₁ hlist =>
      have hempty := ha.isEmpty_missing hs hw hlist
      have hkeys := SortedMap.keys_of_isEmpty hempty
      have hlooked := ha.looked_list hs hlist
      rw [← hlooked.same] at hw
      simp only [Provisioner.create_empty hempty, hkeys, List.append_nil]
      exact .after hlooked (ha.idle_converge hlooked.sound (hw.filter _))

theorem idle_provisionShares (ha : a.Discloses Sound view) {shares : List Share} (hs : Sound s.clusters)
    (hw : ∀ share ∈ shares, AsWanted share.topics (view s.clusters share.source.servers)) :
    s.Idle Sound view report (Provisioner.provisionShares a p shares report s) := by
  induction shares generalizing s report with
  | nil => exact .refl hs report
  | cons share rest ih =>
    obtain ⟨hfirst, hrest⟩ := List.forall_mem_cons.1 hw
    unfold Provisioner.provisionShares
    split
    · next hconnect => exact .failed (ha.looked_connect hs hconnect) report _
    · next s₁ hconnect =>
      have hlooked := ha.looked_connect hs hconnect
      rw [← hlooked.same] at hfirst
      have hidle : s.Idle Sound view report
          (Provisioner.provisionOn a p share.source.servers share.topics report s₁) :=
        .after hlooked (ha.idle_provisionOn hlooked.sound hfirst)
      split
      · next hon =>
        rw [hon] at hidle
        exact .failed hidle.looked report _
      · next report₁ s₂ hon =>
        rw [hon] at hidle
        obtain ⟨hcreated, haltered⟩ := hidle.same report₁ rfl
        rw [← hidle.looked.same] at hrest
        have hothers : s₂.Idle Sound view report₁ (Provisioner.provisionShares a p rest report₁ s₂) :=
          ih hidle.looked.sound hrest
        refine ⟨hidle.looked.trans hothers.looked, fun report' heq => ?_⟩
        rw [← hcreated, ← haltered]
        exact hothers.same report' heq

end Admin.Discloses

/-! ## Pipelines -/

/-- What is wanted for a pipeline is there. -/
def Provisioner.Met (p : Provisioner) (registry : Registry) (pipeline : String) (subscribers : List Subscriber)
    (there : Topics) : Prop :=
  ∀ d, p.desired registry pipeline subscribers = .ok d → ∀ servers, AsWanted (d.topics servers) (there servers)

theorem Desired.topics_of_mem {d : Desired} (hd : d.Addressed) {share : Share} (h : share ∈ d.values) :
    d.topics share.source.servers = share.topics := by
  obtain ⟨e, he, rfl⟩ := List.mem_map.1 h
  have hget : d.get? e.1 = some e.2 := (SortedMap.get?_eq_some_iff d).2 he
  rw [hd e.1 e.2 hget, Desired.topics, hget]
  rfl

namespace Admin.Discloses

theorem idle_provision (ha : a.Discloses Sound view) {pipeline : String} {subscribers : List Subscriber}
    (hs : Sound s.clusters) (hw : p.Met registry pipeline subscribers (view s.clusters)) :
    s.Idle Sound view .empty (p.provision a registry pipeline subscribers s) := by
  unfold Provisioner.provision
  split
  · exact .failed (.refl hs) .empty _
  · next d hd =>
    obtain ⟨haddressed, -, -⟩ := Provisioner.desired_ok hd
    refine ha.idle_provisionShares hs fun share hshare => ?_
    rw [← Desired.topics_of_mem haddressed hshare]
    exact hw d hd share.source.servers

/-- Where everything is as it is wanted, a run over pipelines only looks, whichever of them it can finish. -/
theorem looked_provisionEach (ha : a.Discloses Sound view) {pipelines : List (String × List Subscriber)}
    (hs : Sound s.clusters) (hw : ∀ e ∈ pipelines, p.Met registry e.1 e.2 (view s.clusters)) :
    s.Looked Sound view (p.provisionEach a registry pipelines s).2 ∧
      ∀ r ∈ (p.provisionEach a registry pipelines s).1, ∀ report, r.2 = .ok report →
        report.created = [] ∧ report.altered = [] := by
  induction pipelines generalizing s with
  | nil => exact ⟨.refl hs, by simp [Provisioner.provisionEach]⟩
  | cons e rest ih =>
    obtain ⟨hfirst, hrest⟩ := List.forall_mem_cons.1 hw
    obtain ⟨hlooked, hreport⟩ := ha.idle_provision hs hfirst
    have hlooked₁ := hlooked.trans (.tally hlooked.sound e.1 (p.provision a registry e.1 e.2 s).1)
    rw [← hlooked₁.same] at hrest
    obtain ⟨hlooked₂, hreports⟩ := ih hlooked₁.sound hrest
    exact ⟨hlooked₁.trans hlooked₂, List.forall_mem_cons.2 ⟨hreport, hreports⟩⟩

end Admin.Discloses

/-! ## Nothing had to be altered -/

theorem Provisioner.altered_converge (h : converge a p servers topics report s = (.ok report', s')) :
    report.altered <+: report'.altered := by
  rcases converge_ok h with ⟨-, rfl, -⟩ | ⟨described, s₁, -, -, rfl⟩
  · exact List.prefix_refl _
  · exact List.prefix_append ..

theorem Provisioner.altered_provisionOn (h : provisionOn a p servers topics report s = (.ok report', s')) :
    report.altered <+: report'.altered := by
  rcases provisionOn_ok h with ⟨-, rfl, -⟩ | ⟨existing, s₁, s₂, -, -, hconverge⟩
  · exact List.prefix_refl _
  · have hprefix := altered_converge hconverge
    exact hprefix

theorem Provisioner.altered_provisionShares {shares : List Share}
    (h : provisionShares a p shares report s = (.ok report', s')) : report.altered <+: report'.altered := by
  induction shares generalizing s report with
  | nil =>
    obtain ⟨hreport, -⟩ := Prod.mk.inj h
    obtain rfl := Except.ok.inj hreport
    exact List.prefix_refl _
  | cons share rest ih =>
    rw [provisionShares] at h
    split at h
    · simp at h
    · split at h
      · simp at h
      · next hon => exact (altered_provisionOn hon).trans (ih h)

namespace Admin.Discloses

/-- Topics that were described and not altered were as wanted. -/
theorem asWanted_of_converge (ha : a.Discloses Sound view) (hs : Sound s.clusters)
    (hexist : ∀ topic, topics.get? topic ≠ none → view s.clusters servers topic ≠ none)
    (h : Provisioner.converge a p servers topics report s = (.ok report', s'))
    (hunaltered : report'.altered = report.altered) : AsWanted topics (view s.clusters servers) := by
  intro topic spec hspec
  have hwanted : topics.get? topic ≠ none := by simp [hspec]
  obtain ⟨t, ht⟩ := Option.ne_none_iff_exists'.1 (hexist topic hwanted)
  refine ⟨t, ht, ?_⟩
  rcases Provisioner.converge_ok h with ⟨hempty, -, -⟩ | ⟨described, s₁, hdescribe, -, rfl⟩
  · exact absurd ((SortedMap.isEmpty_iff topics).1 hempty topic) hwanted
  · obtain ⟨_, hcall, -⟩ := Provisioner.describe_ok hdescribe
    obtain ⟨-, -, hdescribed⟩ := ha.describe hs hcall
    obtain ⟨current, hcurrent, hd⟩ := hdescribed topic ((SortedMap.mem_keys_iff topics topic).2 hwanted) t ht
    refine Provisioner.shows_of_isConverged hd ?_
    by_contra hdrifted
    have hmem : topic ∈ (Provisioner.drifted described topics).keys := by
      rw [SortedMap.mem_keys_iff, Provisioner.drifted, SortedMap.get?_filter, hspec]
      simp [Option.filter, hcurrent, hdrifted]
    rw [List.append_right_eq_self.1 hunaltered] at hmem
    simp at hmem

/-- If the topics of a cluster existed and none was altered, they were as wanted. -/
theorem asWanted_of_provisionOn (ha : a.Discloses Sound view) (hs : Sound s.clusters)
    (hexist : ∀ topic, topics.get? topic ≠ none → view s.clusters servers topic ≠ none)
    (h : Provisioner.provisionOn a p servers topics report s = (.ok report', s'))
    (hunaltered : report'.altered = report.altered) : AsWanted topics (view s.clusters servers) := by
  rcases Provisioner.provisionOn_ok h with ⟨hempty, -, -⟩ | ⟨existing, s₁, s₂, hlist, hcreate, hconverge⟩
  · intro topic spec hspec
    rw [(SortedMap.isEmpty_iff topics).1 hempty] at hspec
    simp at hspec
  · obtain ⟨clusters, hcall, -⟩ := Provisioner.list_ok hlist
    obtain ⟨-, -, hexisting⟩ := ha.list hs hcall
    have hlooked := ha.looked_list hs hlist
    obtain ⟨hsound₂, hframe, -⟩ := ha.created hlooked.sound hcreate
    -- all topics are brought in line, as all of them existed, and nothing happens to them before
    have hpresent : topics.filter (fun topic _ => existing.contains topic) = topics := by
      refine SortedMap.ext_get? fun topic => ?_
      rw [Provisioner.get?_present]
      split
      · rfl
      · next hmissing =>
        by_contra hne
        exact hmissing ((hexisting topic).2 (hexist topic (Ne.symm hne)))
    have hkept : ∀ topic, topics.get? topic ≠ none →
        view s₂.clusters servers topic = view s.clusters servers topic := by
      intro topic hwanted
      rw [hframe servers topic (.inr (.inr ?_)), hlooked.same]
      rw [hlooked.same]
      exact hexist topic hwanted
    rw [hpresent] at hconverge
    have hconverged : AsWanted topics (view s₂.clusters servers) := by
      refine ha.asWanted_of_converge hsound₂ (fun topic hwanted => ?_) hconverge hunaltered
      rw [hkept topic hwanted]
      exact hexist topic hwanted
    intro topic spec hspec
    rw [← hkept topic (by simp [hspec])]
    exact hconverged topic spec hspec

theorem asWanted_of_provisionShares (ha : a.Discloses Sound view) {shares : List Share} (hs : Sound s.clusters)
    (hexist : ∀ share ∈ shares, ∀ topic, share.topics.get? topic ≠ none →
      view s.clusters share.source.servers topic ≠ none)
    (h : Provisioner.provisionShares a p shares report s = (.ok report', s')) (hunaltered : report'.altered = []) :
    ∀ share ∈ shares, AsWanted share.topics (view s.clusters share.source.servers) := by
  induction shares generalizing s report with
  | nil => simp
  | cons share rest ih =>
    obtain ⟨hfirst, hrest⟩ := List.forall_mem_cons.1 hexist
    have hbefore : report.altered = [] := List.prefix_nil.1 (hunaltered ▸ Provisioner.altered_provisionShares h)
    rw [Provisioner.provisionShares] at h
    split at h
    · simp at h
    · next s₁ hconnect =>
      split at h
      · simp at h
      · next report₁ s₂ hon =>
        have hbetween : report₁.altered = [] :=
          List.prefix_nil.1 (hunaltered ▸ Provisioner.altered_provisionShares h)
        have hlooked₁ := ha.looked_connect hs hconnect
        rw [← hlooked₁.same] at hfirst
        have hshare := ha.asWanted_of_provisionOn hlooked₁.sound hfirst hon (hbetween.trans hbefore.symm)
        have hidle : s₁.Idle Sound view report
            (Provisioner.provisionOn a p share.source.servers share.topics report s₁) :=
          ha.idle_provisionOn hlooked₁.sound hshare
        rw [hon] at hidle
        have hlooked₂ := hlooked₁.trans hidle.looked
        rw [hlooked₁.same] at hshare
        rw [← hlooked₂.same] at hrest
        have hothers := ih hlooked₂.sound hrest h
        rw [hlooked₂.same] at hothers
        exact List.forall_mem_cons.2 ⟨hshare, hothers⟩

/-- If a pipeline could be provisioned and none of its topics had to be created or altered, they were as wanted. -/
theorem met_of_provision (ha : a.Discloses Sound view) {pipeline : String} {subscribers : List Subscriber}
    (hs : Sound s.clusters)
    (hexist : ∀ d, p.desired registry pipeline subscribers = .ok d → ∀ servers topic,
      (d.topics servers).get? topic ≠ none → view s.clusters servers topic ≠ none)
    (h : p.provision a registry pipeline subscribers s = (.ok report, s')) (hunaltered : report.altered = []) :
    p.Met registry pipeline subscribers (view s.clusters) := by
  intro d hd servers
  rw [Provisioner.provision, hd] at h
  obtain ⟨haddressed, -, -⟩ := Provisioner.desired_ok hd
  have hshares := ha.asWanted_of_provisionShares hs (fun share hshare topic hwanted => ?_) h hunaltered
  · rcases hshare : d.get? servers with _ | share
    · intro topic spec hspec
      simp [Desired.topics, hshare] at hspec
    · have hmem : share ∈ d.values := List.mem_map_of_mem ((SortedMap.get?_eq_some_iff d).1 hshare)
      have htopics : d.topics servers = share.topics := by simp [Desired.topics, hshare]
      rw [htopics, ← haddressed servers share hshare]
      exact hshares share hmem
  · rw [← Desired.topics_of_mem haddressed hshare] at hwanted
    exact hexist d hd share.source.servers topic hwanted

/-- If a run over pipelines whose topics existed could finish all of them and altered no topic, everything was as it was
wanted. -/
theorem met_of_provisionEach (ha : a.Discloses Sound view) {pipelines : List (String × List Subscriber)}
    (hs : Sound s.clusters)
    (hexist : ∀ e ∈ pipelines, ∀ d, p.desired registry e.1 e.2 = .ok d → ∀ servers topic,
      (d.topics servers).get? topic ≠ none → view s.clusters servers topic ≠ none)
    (hunaltered : ∀ r ∈ (p.provisionEach a registry pipelines s).1, ∃ report, r.2 = .ok report ∧ report.altered = []) :
    ∀ e ∈ pipelines, p.Met registry e.1 e.2 (view s.clusters) := by
  induction pipelines generalizing s with
  | nil => simp
  | cons e rest ih =>
    obtain ⟨hfirst, hrest⟩ := List.forall_mem_cons.1 hexist
    rcases hprovision : p.provision a registry e.1 e.2 s with ⟨result, s₁⟩
    simp only [Provisioner.provisionEach, hprovision] at hunaltered
    obtain ⟨⟨report, rfl, hreport⟩, hothers⟩ := List.forall_mem_cons.1 hunaltered
    have hmet := ha.met_of_provision hs hfirst hprovision hreport
    have hidle := ha.idle_provision hs hmet
    rw [hprovision] at hidle
    have hlooked₁ := hidle.looked.trans (.tally hidle.looked.sound e.1 (.ok report))
    rw [← hlooked₁.same] at hrest
    have hrestmet := ih hlooked₁.sound hrest hothers
    rw [hlooked₁.same] at hrestmet
    exact List.forall_mem_cons.2 ⟨hmet, hrestmet⟩

end Admin.Discloses

end Runs

/-! ## Clusters in memory -/

/-- Every value that holds for a topic is among its settings. -/
theorem ClusterTopic.exists_of_effective? {t : ClusterTopic} (h : t.Distinct) {name v : String}
    (hv : t.state.effective? name = some v) : ∃ x ∈ t.settings, x.name = name ∧ x.value = some v := by
  rw [TopicState.effective?, Option.or_eq_some_iff] at hv
  rcases hv with hmade | ⟨-, hinherited⟩
  · obtain ⟨x, hx, hoverride⟩ := (get?_overrides h).1 hmade
    refine ⟨x, hx, Provisioner.override?_name hoverride, ?_⟩
    unfold TopicSetting.override? at hoverride
    split at hoverride
    · obtain ⟨w, hw, heq⟩ := Option.map_eq_some_iff.1 hoverride
      rw [hw, (Prod.mk.inj heq).2]
    · simp at hoverride
  · obtain ⟨x, hfind, hvalue⟩ := Option.bind_eq_some_iff.1 hinherited
    exact ⟨x, List.mem_of_find?_eq_some hfind, by simpa using List.find?_some hfind, hvalue⟩

namespace Fleet

variable {fleet : Fleet}

theorem reply_self {α : Type} (c : Cluster) (task : AdminTask) (result : Except AdminError α) :
    (c.reply task result c).2 = c := by
  unfold Cluster.reply
  split <;> rfl

theorem ask_self {α : Type} {f : Cluster → Reply α × Cluster} (hs : fleet.Sound) (servers : String)
    (hf : ∀ c, (f c).2 = c) : Sound (ask servers f fleet).2 ∧ view (ask servers f fleet).2 = view fleet := by
  unfold ask
  split
  · exact ⟨hs, rfl⟩
  · next c hc =>
    simp only [hf]
    exact ⟨sound_insert_self hs hc, view_insert_self hc⟩

theorem discloses : Fleet.admin.Discloses Sound view where
  toHonours := honours
  list_keeps servers hs := ask_self hs servers fun c => reply_self c .list (.ok c.topics.keys)
  describe_keeps servers names hs := ask_self hs servers fun c => reply_self c .describe (.ok (c.describe names))
  shows := by
    intro fleet fleet' servers names described hs h topic htopic t settings ht hsettings name v
    obtain ⟨c, c', hc, hreply, rfl⟩ := ask_eq h
    obtain ⟨hnames, rfl⟩ := reply_ok hreply
    obtain rfl := Except.ok.inj hnames
    obtain ⟨-, hdistinct⟩ := hs _ _ hc
    simp only [view, hc, Option.bind_some] at ht
    obtain ⟨u, hu, rfl⟩ := Option.map_eq_some_iff.1 ht
    rw [Cluster.describe, SortedMap.get?_map, SortedMap.get?_filter, hu] at hsettings
    obtain ⟨u', hu', rfl⟩ := Option.map_eq_some_iff.1 hsettings
    obtain ⟨heq, -⟩ := Option.filter_eq_some_iff.1 hu'
    obtain rfl := Option.some.inj heq
    exact ClusterTopic.exists_of_effective? (hdistinct topic u hu)

end Fleet

end Relay
