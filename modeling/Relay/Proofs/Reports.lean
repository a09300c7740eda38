import Relay.Proofs.Findings
import Relay.Proofs.Homes

/-!
# Reports of provisioning

Clusters that are connected are not connected again (`Provisioning.Unplugged`). So a run that follows at once, which
finds every topic as it was left, asks for topics and their settings and for nothing else, and comes to its end if it is
answered (`glances_provision`).
-/

namespace Relay

section Runs

variable {σ : Type} {a : Admin σ} {Sound : σ → Prop} {view : σ → Topics} {p : Provisioner} {registry : Registry}
  {servers : String} {topics : SortedMap String TopicSpec} {report report' : ProvisionReport}
  {s s' s'' : Provisioning σ}

/-! ## Connections -/

/-- No cluster was connected between two states of provisioning. -/
structure Provisioning.Unplugged {σ : Type} (s s' : Provisioning σ) : Prop where
  connected : s'.connected = s.connected
  calls : ∃ calls, s'.calls = calls ++ s.calls ∧ ∀ c ∈ calls, c.2 ≠ .connect

namespace Provisioning.Unplugged

theorem refl (s : Provisioning σ) : s.Unplugged s := ⟨rfl, [], rfl, by simp⟩

theorem trans (h : s.Unplugged s') (h' : s'.Unplugged s'') : s.Unplugged s'' := by
  obtain ⟨hconnected, calls, hcalls, hothers⟩ := h
  obtain ⟨hconnected', calls', hcalls', hothers'⟩ := h'
  refine ⟨hconnected'.trans hconnected, calls' ++ calls, ?_, List.forall_mem_append.2 ⟨hothers', hothers⟩⟩
  rw [hcalls', hcalls, List.append_assoc]

theorem log (s : Provisioning σ) (servers : String) {call : AdminCall} (h : call ≠ .connect) (clusters : σ) :
    s.Unplugged (s.log servers call clusters) :=
  ⟨rfl, [(servers, call)], rfl, by simpa using h⟩

theorem create (a : Admin σ) (p : Provisioner) (servers : String) (topics : SortedMap String TopicSpec)
    (s : Provisioning σ) :
    s.Unplugged (Provisioner.create a p servers topics s).2 := by
  unfold Provisioner.create
  split
  · exact refl s
  · exact log s servers (by simp) _

theorem alter (a : Admin σ) (p : Provisioner) (servers : String) (settings : SortedMap String Overrides)
    (described : SortedMap String (List TopicSetting)) (s : Provisioning σ) :
    s.Unplugged (Provisioner.alter a p servers settings described s).2 := by
  unfold Provisioner.alter
  split
  · exact refl s
  · have hrevise : s.Unplugged (Provisioner.revise a p servers settings s).2 := log s servers (by simp) _
    split
    · next heq =>
      rw [heq] at hrevise
      exact hrevise.trans (log _ servers (by simp) _)
    · next heq =>
      rw [heq] at hrevise
      exact hrevise

theorem converge (a : Admin σ) (p : Provisioner) (servers : String) (topics : SortedMap String TopicSpec)
    (report : ProvisionReport) (s : Provisioning σ) :
    s.Unplugged (Provisioner.converge a p servers topics report s).2 := by
  unfold Provisioner.converge
  split
  · exact refl s
  · have hdescribe : s.Unplugged (Provisioner.describe a p servers topics.keys s).2 := log s servers (by simp) _
    split
    · next heq =>
      rw [heq] at hdescribe
      exact hdescribe
    · next described s₁ heq =>
      rw [heq] at hdescribe
      have halter := alter a p servers ((Provisioner.drifted described topics).map fun _ spec => spec.overrides)
        described s₁
      unfold Provisioner.drifted at halter
      simp only
      split
      · next heq =>
        rw [heq] at halter
        exact hdescribe.trans halter
      · next heq =>
        rw [heq] at halter
        exact hdescribe.trans halter

theorem provisionOn (a : Admin σ) (p : Provisioner) (servers : String) (topics : SortedMap String TopicSpec)
    (report : ProvisionReport) (s : Provisioning σ) :
    s.Unplugged (Provisioner.provisionOn a p servers topics report s).2 := by
  unfold Provisioner.provisionOn
  split
  · exact refl s
  · have hlist : s.Unplugged (Provisioner.list a p servers s).2 := log s servers (by simp) _
    split
    · next heq =>
      rw [heq] at hlist
      exact hlist
    · next existing s₁ heq =>
      rw [heq] at hlist
      have hcreate := create a p servers (topics.filter fun topic _ => !existing.contains topic) s₁
      simp only
      split
      · next heq =>
        rw [heq] at hcreate
        exact hlist.trans hcreate
      · next heq =>
        rw [heq] at hcreate
        exact (hlist.trans hcreate).trans (converge ..)

/-- Clusters that are connected are not connected again. -/
theorem provisionShares {shares : List Share} (h : ∀ share ∈ shares, share.source.servers ∈ s.connected)
    (report : ProvisionReport) : s.Unplugged (Provisioner.provisionShares a p shares report s).2 := by
  induction shares generalizing s report with
  | nil => exact refl s
  | cons share rest ih =>
    obtain ⟨hfirst, hrest⟩ := List.forall_mem_cons.1 h
    have hconnect : Provisioner.connect a share.source s = (.ok (), s) := if_pos (List.contains_iff_mem.2 hfirst)
    have hon := provisionOn a p share.source.servers share.topics report s
    rw [Provisioner.provisionShares, hconnect]
    simp only
    split
    · next heq =>
      rw [heq] at hon
      exact hon
    · next heq =>
      rw [heq] at hon
      rw [← hon.connected] at hrest
      exact hon.trans (ih hrest _)

end Provisioning.Unplugged

theorem Provisioner.connected_of_connect {source : Source} (h : connect a source s = (.ok (), s')) :
    source.servers ∈ s'.connected ∧ s.connected ⊆ s'.connected := by
  rcases connect_ok h with ⟨hconnected, rfl⟩ | ⟨clusters, -, rfl⟩
  · exact ⟨List.contains_iff_mem.1 hconnected, fun _ h => h⟩
  · exact ⟨List.mem_cons_self, List.subset_cons_self ..⟩

/-- The clusters of a run that comes to its end are connected. -/
theorem Provisioner.connected_of_provisionShares {shares : List Share}
    (h : provisionShares a p shares report s = (.ok report', s')) :
    (∀ share ∈ shares, share.source.servers ∈ s'.connected) ∧ s.connected ⊆ s'.connected := by
  induction shares generalizing s report with
  | nil =>
    obtain ⟨-, rfl⟩ := Prod.mk.inj h
    exact ⟨by simp, fun _ h => h⟩
  | cons share rest ih =>
    rw [provisionShares] at h
    split at h
    · simp at h
    · next s₁ hconnect =>
      split at h
      · simp at h
      · next report₁ s₂ hon =>
        obtain ⟨hfirst, hbefore⟩ := connected_of_connect hconnect
        have hunplugged := Provisioning.Unplugged.provisionOn a p share.source.servers share.topics report s₁
        rw [hon] at hunplugged
        obtain ⟨hrest, hafter⟩ := ih h
        rw [hunplugged.connected] at hafter
        exact ⟨List.forall_mem_cons.2 ⟨hafter hfirst, hrest⟩, List.Subset.trans hbefore hafter⟩

/-! ## Answers -/

/-- A cluster answers those who ask for its topics, or for the settings of some of them. -/
structure Admin.Answers {σ : Type} (a : Admin σ) (Sound : σ → Prop) (view : σ → Topics) (servers : String) : Prop where
  list : ∀ {s}, Sound s → ∃ names, (a.list servers s).1 = some (.ok names)
  describe : ∀ {s names}, Sound s → (∀ topic ∈ names, view s servers topic ≠ none) →
    ∃ described, (a.describe servers names s).1 = some (.ok described)

namespace Admin.Answers

theorem list_eq (h : a.Answers Sound view servers) (hs : Sound s.clusters) (p : Provisioner) :
    ∃ names s', Provisioner.list a p servers s = (.ok names, s') := by
  obtain ⟨names, hreply⟩ := h.list hs
  refine ⟨names, _, Prod.ext (?_ : Reply.within p.timeout _ = _) rfl⟩
  rw [hreply]
  rfl

theorem describe_eq (h : a.Answers Sound view servers) (hs : Sound s.clusters) {names : List String}
    (hexist : ∀ topic ∈ names, view s.clusters servers topic ≠ none) (p : Provisioner) :
    ∃ described s', Provisioner.describe a p servers names s = (.ok described, s') := by
  obtain ⟨described, hreply⟩ := h.describe hs hexist
  refine ⟨described, _, Prod.ext (?_ : Reply.within p.timeout _ = _) rfl⟩
  rw [hreply]
  rfl

end Admin.Answers

namespace Admin.Discloses

theorem answered_converge (ha : a.Discloses Sound view) (hanswers : a.Answers Sound view servers)
    (hs : Sound s.clusters) (hw : AsWanted topics (view s.clusters servers)) (report : ProvisionReport) :
    ∃ report' s', Provisioner.converge a p servers topics report s = (.ok report', s') := by
  unfold Provisioner.converge
  split
  · exact ⟨_, _, rfl⟩
  · have hexist : ∀ topic ∈ topics.keys, view s.clusters servers topic ≠ none := by
      intro topic htopic
      obtain ⟨spec, hspec⟩ := Option.ne_none_iff_exists'.1 ((SortedMap.mem_keys_iff topics topic).1 htopic)
      obtain ⟨t, ht, -⟩ := hw topic spec hspec
      simp [ht]
    obtain ⟨described, s₁, hdescribe⟩ := hanswers.describe_eq hs hexist p
    have hempty := ha.isEmpty_drifted hs hw hdescribe
    have hnothing := SortedMap.isEmpty_map hempty fun _ spec => spec.overrides
    rw [Provisioner.drifted] at hnothing
    simp only [hdescribe, Provisioner.alter_empty hnothing]
    exact ⟨_, _, rfl⟩

theorem answered_provisionOn (ha : a.Discloses Sound view) (hanswers : a.Answers Sound view servers)
    (hs : Sound s.clusters) (hw : AsWanted topics (view s.clusters servers)) (report : ProvisionReport) :
    ∃ report' s', Provisioner.provisionOn a p servers topics report s = (.ok report', s') := by
  unfold Provisioner.provisionOn
  split
  · exact ⟨_, _, rfl⟩
  · obtain ⟨existing, s₁, hlist⟩ := hanswers.list_eq hs p
    have hlooked := ha.looked_list hs hlist
    have hempty := ha.isEmpty_missing hs hw hlist
    rw [← hlooked.same] at hw
    simp only [hlist, Provisioner.create_empty hempty]
    exact ha.answered_converge hanswers hlooked.sound (hw.filter _) _

/-- A run that finds everything as it is wanted comes to its end, if the clusters are connected and answer. -/
theorem answered_provisionShares (ha : a.Discloses Sound view) {shares : List Share}
    (hanswers : ∀ share ∈ shares, a.Answers Sound view share.source.servers)
    (hconnected : ∀ share ∈ shares, share.source.servers ∈ s.connected) (hs : Sound s.clusters)
    (hw : ∀ share ∈ shares, AsWanted share.topics (view s.clusters share.source.servers)) (report : ProvisionReport) :
    ∃ report' s', Provisioner.provisionShares a p shares report s = (.ok report', s') := by
  induction shares generalizing s report with
  | nil => exact ⟨_, _, rfl⟩
  | cons share rest ih =>
    obtain ⟨hanswer, hanswers⟩ := List.forall_mem_cons.1 hanswers
    obtain ⟨hfirst, hconnected⟩ := List.forall_mem_cons.1 hconnected
    obtain ⟨hwanted, hw⟩ := List.forall_mem_cons.1 hw
    have hconnect : Provisioner.connect a share.source s = (.ok (), s) := if_pos (List.contains_iff_mem.2 hfirst)
    obtain ⟨report₁, s₁, hon⟩ := ha.answered_provisionOn (p := p) hanswer hs hwanted report
    have hidle : s.Idle Sound view report (Provisioner.provisionOn a p share.source.servers share.topics report s) :=
      ha.idle_provisionOn hs hwanted
    have hunplugged := Provisioning.Unplugged.provisionOn a p share.source.servers share.topics report s
    rw [hon] at hidle hunplugged
    rw [← hunplugged.connected] at hconnected
    rw [← hidle.looked.same] at hw
    rw [Provisioner.provisionShares, hconnect]
    simp only [hon]
    exact ih hanswers hconnected hidle.looked.sound hw report₁

end Admin.Discloses

/-! ## Pipelines -/

section Pipelines

variable {pipeline : String} {subscribers : List Subscriber} {d : Desired}

/-- The clusters of a pipeline are connected once it was provisioned. -/
theorem Provisioner.connected_of_provision (hd : p.desired registry pipeline subscribers = .ok d)
    (h : p.provision a registry pipeline subscribers s = (.ok report, s')) :
    ∀ share ∈ d.values, share.source.servers ∈ s'.connected := by
  rw [provision, hd] at h
  exact (connected_of_provisionShares h).1

/-- If the clusters of a pipeline are connected and everything is there, provisioning asks for topics and settings only,
and it comes to its end if the clusters answer. -/
theorem Admin.Discloses.glances_provision (ha : a.Discloses Sound view) (hs : Sound s.clusters)
    (hw : p.Met registry pipeline subscribers (view s.clusters))
    (hd : p.desired registry pipeline subscribers = .ok d)
    (hconnected : ∀ share ∈ d.values, share.source.servers ∈ s.connected) :
    let again := p.provision a registry pipeline subscribers s
    view again.2.clusters = view s.clusters ∧ again.2.connected = s.connected ∧
      (∃ calls, again.2.calls = calls ++ s.calls ∧ ∀ c ∈ calls, c.2 = .list ∨ ∃ names, c.2 = .describe names) ∧
      ((∀ servers ∈ s.connected, a.Answers Sound view servers) → ∃ report, again.1 = .ok report) := by
  intro again
  have hidle : s.Idle Sound view .empty again := ha.idle_provision hs hw
  have hshares : again = Provisioner.provisionShares a p d.values .empty s := by
    simp only [again, Provisioner.provision, hd]
  have hunplugged : s.Unplugged again.2 := by
    rw [hshares]
    exact .provisionShares hconnected .empty
  refine ⟨hidle.looked.same, hunplugged.connected, ?_, fun hanswers => ?_⟩
  · obtain ⟨calls, hcalls, hlooks⟩ := hidle.looked.calls
    obtain ⟨calls', hcalls', hothers⟩ := hunplugged.calls
    obtain rfl : calls = calls' := List.append_cancel_right (hcalls.symm.trans hcalls')
    refine ⟨calls, hcalls, fun c hc => ?_⟩
    have hlook := hlooks c hc
    have hother := hothers c hc
    cases hcall : c.2 with
    | list => exact .inl rfl
    | describe names => exact .inr ⟨names, rfl⟩
    | connect => exact absurd hcall hother
    | create | revise | replace => simp [hcall, AdminCall.isLook] at hlook
  · obtain ⟨haddressed, -, -⟩ := Provisioner.desired_ok hd
    have hwanted : ∀ share ∈ d.values, AsWanted share.topics (view s.clusters share.source.servers) := by
      intro share hshare
      rw [← Desired.topics_of_mem haddressed hshare]
      exact hw d hd share.source.servers
    obtain ⟨report, s', hrun⟩ := ha.answered_provisionShares (p := p)
      (fun share hshare => hanswers _ (hconnected share hshare)) hconnected hs hwanted .empty
    exact ⟨report, by rw [hshares, hrun]⟩

end Pipelines

end Runs

/-! ## Clusters in memory -/

/-- A contract holds as well of the states in which something is the case that no call changes. -/
theorem Admin.Discloses.keeping {σ : Type} {a : Admin σ} {Sound : σ → Prop} {view : σ → Topics}
    (ha : a.Discloses Sound view) {P : σ → Prop} (hP : ∀ {s s'}, a.Asks s s' → P s → P s') :
    a.Discloses (fun s => Sound s ∧ P s) view where
  connect source hs := by
    obtain ⟨hsound, hsame⟩ := ha.connect source hs.1
    exact ⟨⟨hsound, hP (.connect source) hs.2⟩, hsame⟩
  list {s s' servers names} hs h := by
    obtain ⟨hsound, hrest⟩ := ha.list hs.1 h
    have hcall : a.Asks s (a.list servers s).2 := .list servers
    rw [h] at hcall
    exact ⟨⟨hsound, hP hcall hs.2⟩, hrest⟩
  create {s s' servers topics} hs h := by
    obtain ⟨hsound, hrest⟩ := ha.create hs.1 h
    have hcall : a.Asks s (a.create servers topics s).2 := .create servers topics
    rw [h] at hcall
    exact ⟨⟨hsound, hP hcall hs.2⟩, hrest⟩
  describe {s s' servers names described} hs h := by
    obtain ⟨hsound, hrest⟩ := ha.describe hs.1 h
    have hcall : a.Asks s (a.describe servers names s).2 := .describe servers names
    rw [h] at hcall
    exact ⟨⟨hsound, hP hcall hs.2⟩, hrest⟩
  revise {s s' servers settings} hs h := by
    obtain ⟨hsound, hrest⟩ := ha.revise hs.1 h
    have hcall : a.Asks s (a.revise servers settings s).2 := .revise servers settings
    rw [h] at hcall
    exact ⟨⟨hsound, hP hcall hs.2⟩, hrest⟩
  refused {s s' servers settings operation} hs h := by
    obtain ⟨hsound, hrest⟩ := ha.refused hs.1 h
    have hcall : a.Asks s (a.revise servers settings s).2 := .revise servers settings
    rw [h] at hcall
    exact ⟨⟨hsound, hP hcall hs.2⟩, hrest⟩
  replace {s s' servers settings} hs h := by
    obtain ⟨hsound, hrest⟩ := ha.replace hs.1 h
    have hcall : a.Asks s (a.replace servers settings s).2 := .replace servers settings
    rw [h] at hcall
    exact ⟨⟨hsound, hP hcall hs.2⟩, hrest⟩
  list_keeps servers hs := by
    obtain ⟨hsound, hsame⟩ := ha.list_keeps servers hs.1
    exact ⟨⟨hsound, hP (.list servers) hs.2⟩, hsame⟩
  describe_keeps servers names hs := by
    obtain ⟨hsound, hsame⟩ := ha.describe_keeps servers names hs.1
    exact ⟨⟨hsound, hP (.describe servers names) hs.2⟩, hsame⟩
  shows hs h := ha.shows hs.1 h

namespace Fleet

/-- A cluster of a fleet does what it is asked for. -/
def Healthy (servers : String) (fleet : Fleet) : Prop := ∃ c, fleet.get? servers = some c ∧ c.faults = []

variable {servers : String} {fleet fleet' : Fleet}

theorem reply_healthy {α : Type} {c : Cluster} (h : c.faults = []) (task : AdminTask) (result : Except AdminError α)
    (after : Cluster) : c.reply task result after = (some result, after) := by
  rw [Cluster.reply, h]
  rfl

theorem reply_faults {α : Type} (c : Cluster) (task : AdminTask) (result : Except AdminError α)
    (after : Cluster) (h : after.faults = c.faults) : (c.reply task result after).2.faults = c.faults := by
  unfold Cluster.reply
  split
  · rfl
  · rfl
  · exact h

theorem healthy_ask {α : Type} {f : Cluster → Reply α × Cluster} (hf : ∀ c, (f c).2.faults = c.faults) (other : String)
    (h : fleet.Healthy servers) : Healthy servers (ask other f fleet).2 := by
  obtain ⟨c, hc, hfaults⟩ := h
  unfold ask
  split
  · exact ⟨c, hc, hfaults⟩
  · next c' hc' =>
    simp only [Healthy, SortedMap.get?_insert, Std.compare_eq_iff_eq]
    split
    · next heq =>
      rw [heq] at hc
      obtain rfl := Option.some.inj (hc.symm.trans hc')
      exact ⟨_, rfl, (hf c).trans hfaults⟩
    · exact ⟨c, hc, hfaults⟩

theorem healthy_asks (h : Fleet.admin.Asks fleet fleet') (hhealthy : fleet.Healthy servers) :
    fleet'.Healthy servers := by
  cases h with
  | connect source => exact hhealthy
  | list other => exact healthy_ask (fun c => reply_faults c .list _ c rfl) other hhealthy
  | create other topics => exact healthy_ask (fun c => reply_faults c .create _ (c.create topics) rfl) other hhealthy
  | describe other names => exact healthy_ask (fun c => reply_faults c .describe _ c rfl) other hhealthy
  | revise other settings =>
    refine healthy_ask (f := fun c =>
      if c.revisable then c.reply .revise (.ok ()) (c.change ClusterTopic.revise settings)
      else c.reply .revise (.error (.unsupported "IncrementalAlterConfigs")) c) (fun c => ?_) other hhealthy
    split
    · exact reply_faults c .revise _ (c.change ClusterTopic.revise settings) rfl
    · exact reply_faults c .revise _ c rfl
  | replace other settings =>
    exact healthy_ask (fun c => reply_faults c .replace _ (c.change ClusterTopic.replace settings) rfl) other hhealthy

theorem answers (servers : String) :
    Fleet.admin.Answers (fun fleet => fleet.Sound ∧ fleet.Healthy servers) view servers where
  list {fleet} hs := by
    obtain ⟨-, c, hc, hfaults⟩ := hs
    refine ⟨c.topics.keys, ?_⟩
    simp only [admin, ask, hc, reply_healthy hfaults]
  describe {fleet names} hs _ := by
    obtain ⟨-, c, hc, hfaults⟩ := hs
    refine ⟨c.describe names, ?_⟩
    simp only [admin, ask, hc, reply_healthy hfaults]

end Fleet

/-- A run that comes to its end reports every topic of the subscribers of a pipeline on its cluster once: as created if
it was missing, as unchanged if its log was kept as the last of its subscribers wants, and as altered otherwise. If the
pipeline is provisioned again at once, nothing is created, altered or connected: the clusters are only asked for their
topics and the settings of these. If they answer, the run comes to its end, and every topic is reported as unchanged. -/
theorem provision_reports {σ : Type} {a : Admin σ} {Sound : σ → Prop} {view : σ → Topics}
    (ha : a.Discloses Sound view) (p : Provisioner) (registry : Registry) (pipeline : String)
    (subscribers : List Subscriber) {s s' : Provisioning σ} {report : ProvisionReport} (hs : Sound s.clusters)
    (h : p.provision a registry pipeline subscribers s = (.ok report, s')) :
    let before := view s.clusters
    (∃ created altered unchanged : List (String × String),
      report = ⟨created.map (·.2), altered.map (·.2), unchanged.map (·.2)⟩ ∧
      (created ++ altered ++ unchanged).Nodup ∧
      (∀ place, place ∈ created ++ altered ++ unchanged ↔
        ∃ x ∈ subscribers, p.place? registry pipeline x = some place) ∧
      ∀ servers topic y, p.keeper? registry pipeline subscribers servers topic = some y →
        ((servers, topic) ∈ created ↔ before servers topic = none) ∧
        ((servers, topic) ∈ unchanged ↔ ∃ t, before servers topic = some t ∧ t.Keeps y.retention) ∧
        ((servers, topic) ∈ altered ↔ ∃ t, before servers topic = some t ∧ ¬t.Keeps y.retention)) ∧
    ∀ s₂ : Provisioning σ, s₂.clusters = s'.clusters → s₂.connected = s'.connected →
      let again := p.provision a registry pipeline subscribers s₂
      view again.2.clusters = view s'.clusters ∧ again.2.connected = s'.connected ∧
      (∃ calls, again.2.calls = calls ++ s₂.calls ∧ ∀ c ∈ calls, c.2 = .list ∨ ∃ names, c.2 = .describe names) ∧
      (∀ report', again.1 = .ok report' → ∃ places : List (String × String),
        report' = ⟨[], [], places.map (·.2)⟩ ∧ places.Nodup ∧
        ∀ place, place ∈ places ↔ ∃ x ∈ subscribers, p.place? registry pipeline x = some place) ∧
      ((∀ servers ∈ s'.connected, a.Answers Sound view servers) → ∃ report', again.1 = .ok report') := by
  intro before
  have hexact : False → a.MarksExactly Sound view := False.elim
  obtain ⟨-, d, hd, -⟩ := ha.provision hexact hs h
  obtain ⟨hsound, hmet⟩ := ha.met hs h
  refine ⟨⟨_, _, _, ha.report_provision hs hd h, d.nodup_findings before, ?_, fun servers topic y hy => ?_⟩, ?_⟩
  · rintro ⟨servers, topic⟩
    rw [Desired.mem_findings, Provisioner.wanted_iff hd]
  · obtain ⟨-, -, hwanted⟩ := Provisioner.desired_ok hd
    have hmem : ∀ f, (servers, topic) ∈ Desired.found d.entries before f ↔
        (p.spec y).finding (before servers topic) = f := by
      intro f
      rw [Desired.mem_found, hwanted, hy]
      simp
    rw [hmem, hmem, hmem]
    exact ⟨TopicSpec.finding_eq_missing, TopicSpec.finding_eq_kept, TopicSpec.finding_eq_drifted⟩
  · intro s₂ hclusters hconnected again
    rw [← hclusters] at hsound hmet ⊢
    have hlinks := Provisioner.connected_of_provision hd h
    rw [← hconnected] at hlinks ⊢
    obtain ⟨hsame, hunplugged, hcalls, hends⟩ := ha.glances_provision hsound hmet hd hlinks
    refine ⟨hsame, hunplugged, hcalls, fun report' hok => ?_, hends⟩
    have hreport := ha.report_provision hsound hd (Prod.ext hok rfl)
    rw [hmet.found_eq_nil hd (by decide), hmet.found_eq_nil hd (by decide)] at hreport
    refine ⟨_, hreport, d.nodup_found _ _, ?_⟩
    rintro ⟨servers, topic⟩
    rw [← Provisioner.wanted_iff hd, Desired.mem_found]
    constructor
    · rintro ⟨spec, hspec, -⟩
      exact ⟨spec, hspec⟩
    · rintro ⟨spec, hspec⟩
      exact ⟨spec, hspec, hmet.kept hd hspec⟩

namespace HalfDone

/-- The one topic was missing and the other one had another retention. Provisioned again, both are as they should be. -/
theorem reports_half_done :
    provisioned.1 = .ok ⟨["topic-b"], ["topic-a"], []⟩ ∧
      Fleet.view fleet "c" "topic-b" = none ∧
      (∃ t, Fleet.view fleet "c" "topic-a" = some t ∧ ¬t.Keeps ⟨7, 100⟩) ∧
      ∃ places : List (String × String),
        (provisioner.provision Fleet.admin registry "" [subscriber "a", subscriber "b"] provisioned.2).1 =
          .ok ⟨[], [], places.map (·.2)⟩ ∧
        places.Nodup ∧ ("c", "topic-a") ∈ places ∧ ("c", "topic-b") ∈ places := by
  have hrun : provisioned.1 = .ok ⟨["topic-b"], ["topic-a"], []⟩ := by decide +kernel
  have hprovisioned : provisioned = (.ok ⟨["topic-b"], ["topic-a"], []⟩, provisioned.2) := Prod.ext hrun rfl
  have hhealthy : fleet.Healthy "c" := ⟨_, rfl, rfl⟩
  have hconnected : provisioned.2.connected = ["c"] := by decide +kernel
  obtain ⟨⟨created, altered, unchanged, hreport, -, hall, hfound⟩, hagain⟩ :=
    provision_reports (Fleet.discloses.keeping Fleet.healthy_asks) provisioner registry ""
      [subscriber "a", subscriber "b"] ⟨sound_fleet, hhealthy⟩ hprovisioned
  obtain ⟨hcreated, haltered, hunchanged⟩ := ProvisionReport.mk.inj hreport
  have ha : provisioner.place? registry "" (subscriber "a") = some ("c", "topic-a") := by decide +kernel
  have hb : provisioner.place? registry "" (subscriber "b") = some ("c", "topic-b") := by decide +kernel
  have hmissing : ("c", "topic-b") ∈ created := by
    have hmem := (hall ("c", "topic-b")).2 ⟨subscriber "b", by simp, hb⟩
    rw [List.map_eq_nil_iff.1 hunchanged.symm, List.append_nil, List.mem_append] at hmem
    refine hmem.resolve_right fun hother => ?_
    have hname : "topic-b" ∈ altered.map (·.2) := List.mem_map_of_mem hother
    simp [← haltered] at hname
  have hdrifted : ("c", "topic-a") ∈ altered := by
    have hmem := (hall ("c", "topic-a")).2 ⟨subscriber "a", by simp, ha⟩
    rw [List.map_eq_nil_iff.1 hunchanged.symm, List.append_nil, List.mem_append] at hmem
    refine hmem.resolve_left fun hother => ?_
    have hname : "topic-a" ∈ created.map (·.2) := List.mem_map_of_mem hother
    simp [← hcreated] at hname
  obtain ⟨hnone, -, -⟩ := hfound "c" "topic-b" (subscriber "b") (by simp [Provisioner.keeper?, hb])
  obtain ⟨-, -, hother⟩ := hfound "c" "topic-a" (subscriber "a") (by simp [Provisioner.keeper?, ha, hb])
  obtain ⟨-, -, -, hreport', hends⟩ := hagain provisioned.2 rfl rfl
  have hanswers : ∀ servers ∈ provisioned.2.connected,
      Fleet.admin.Answers (fun fleet => fleet.Sound ∧ fleet.Healthy "c") Fleet.view servers := by
    rw [hconnected]
    exact List.forall_mem_singleton.2 (Fleet.answers "c")
  obtain ⟨report', hok⟩ := hends hanswers
  obtain ⟨places, rfl, hnodup, hplaces⟩ := hreport' report' hok
  exact ⟨hrun, hnone.1 hmissing, hother.1 hdrifted, places, hok, hnodup, (hplaces _).2 ⟨subscriber "a", by simp, ha⟩,
    (hplaces _).2 ⟨subscriber "b", by simp, hb⟩⟩

end HalfDone

end Relay
