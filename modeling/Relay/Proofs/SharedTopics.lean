import Relay.Proofs.Idempotence
import Relay.Proofs.Numerals

/-!
# Subscribers with one topic

The name of a topic is made of the names of the pipeline and of the subscriber with nothing between them. Within one
pipeline it tells the subscribers apart, but subscribers of two pipelines can come to have one topic: "a" and "bc" are
written like "ab" and "c". What provisioning promises then holds as far as the subscribers of a topic want the same,
and no further. If they want different retentions, the pipelines take turns in making theirs, run after run.
-/

namespace Relay

/-! ## Names -/

/-- What stands before the names of the pipeline and the subscriber does not matter. -/
theorem checkpointTopic_inj {lead pipeline pipeline' id id' : String} :
    checkpointTopic lead pipeline id = checkpointTopic lead pipeline' id' ↔ pipeline ++ id = pipeline' ++ id' := by
  simp only [checkpointTopic, String.append_assoc, ← String.toList_inj, String.toList_append,
    List.append_cancel_left_eq]

/-- A topic tells the subscriber, if it is known that it is one of a pipeline or of pipelines none of which has a name
that another one starts with. -/
theorem eq_of_checkpointTopic_eq {lead pipeline pipeline' id id' : String}
    (h : checkpointTopic lead pipeline id = checkpointTopic lead pipeline' id')
    (hstarts : pipeline.toList <+: pipeline'.toList ∨ pipeline'.toList <+: pipeline.toList → pipeline = pipeline') :
    pipeline = pipeline' ∧ id = id' := by
  have hlist : pipeline.toList ++ id.toList = pipeline'.toList ++ id'.toList := by
    rw [← String.toList_append, ← String.toList_append, checkpointTopic_inj.1 h]
  have hleft : pipeline.toList <+: pipeline.toList ++ id.toList := List.prefix_append ..
  have hright : pipeline'.toList <+: pipeline.toList ++ id.toList := by
    rw [hlist]
    exact List.prefix_append ..
  obtain rfl := hstarts (List.prefix_or_prefix_of_prefix hleft hright)
  exact ⟨rfl, String.toList_inj.1 (List.append_cancel_left hlist)⟩

/-! ## Retention -/

/-- The log of a topic is kept as a retention says. -/
structure TopicState.Keeps (t : TopicState) (r : Retention) : Prop where
  millis : t.effective? "retention.ms" = some (toString r.millis)
  bytes : t.effective? "retention.bytes" = some (toString r.bytes)

/-- No log is kept in two ways. -/
theorem TopicState.Keeps.eq {t : TopicState} {r r' : Retention} (h : t.Keeps r) (h' : t.Keeps r') : r = r' := by
  have hmillis := toString_int_inj (Option.some.inj (h.millis.symm.trans h'.millis))
  have hbytes := toString_int_inj (Option.some.inj (h.bytes.symm.trans h'.bytes))
  cases r
  cases r'
  simp_all

theorem TopicSpec.shows_iff_keeps {t : TopicState} {spec : TopicSpec} :
    t.Shows spec.overrides ↔ t.Keeps spec.retention := by
  constructor
  · intro h
    constructor
    · exact h _ _ (by rw [get?_overrides, if_neg (by decide), if_pos rfl])
    · exact h _ _ (by rw [get?_overrides, if_pos rfl])
  · intro h name v hv
    rw [get?_overrides] at hv
    split at hv
    · next hname =>
      rw [hname, h.bytes, hv]
    · split at hv
      · next hname => rw [hname, h.millis, hv]
      · simp at hv

namespace Provisioner

variable {p : Provisioner} {registry : Registry} {pipeline : String} {subscribers : List Subscriber} {x : Subscriber}
  {servers topic : String} {there : Topics}

/-- Subscribers with one topic on one cluster want the same retention. -/
def Agreed (p : Provisioner) (registry : Registry) (pipelines : List (String × List Subscriber)) : Prop :=
  ∀ e ∈ pipelines, ∀ x ∈ e.2, ∀ e' ∈ pipelines, ∀ y ∈ e'.2, ∀ place,
    p.place? registry e.1 x = some place → p.place? registry e'.1 y = some place → x.retention = y.retention

/-- Every subscriber has a topic, and its log is kept as the subscriber wants. -/
def OwnRetention (p : Provisioner) (registry : Registry) (pipelines : List (String × List Subscriber))
    (there : Topics) : Prop :=
  ∀ e ∈ pipelines, ∀ x ∈ e.2, ∃ servers topic t, p.place? registry e.1 x = some (servers, topic) ∧
    there servers topic = some t ∧ t.Keeps x.retention

/-- One log is not kept in two ways, so those who all have their own want the same. -/
theorem agreed_of_ownRetention {pipelines : List (String × List Subscriber)}
    (h : p.OwnRetention registry pipelines there) : p.Agreed registry pipelines := by
  intro e he x hx e' he' y hy place hplace hplace'
  obtain ⟨servers, topic, t, hx, ht, hkeeps⟩ := h e he x hx
  obtain ⟨servers', topic', t', hy, ht', hkeeps'⟩ := h e' he' y hy
  obtain ⟨rfl, rfl⟩ := Prod.mk.inj (Option.some.inj ((hx.symm.trans hplace).trans (hplace'.symm.trans hy)))
  obtain rfl := Option.some.inj (ht.symm.trans ht')
  exact hkeeps.eq hkeeps'

theorem topic_of_place? (h : p.place? registry pipeline x = some (servers, topic)) :
    topic = checkpointTopic p.lead pipeline x.id ∧
      ∃ source, Provisioner.source registry pipeline x = .ok source ∧ source.servers = servers := by
  unfold place? at h
  split at h
  · simp at h
  · next source hsource =>
    obtain ⟨rfl, rfl⟩ := Prod.mk.inj (Option.some.inj h)
    exact ⟨rfl, source, hsource, rfl⟩

/-- Of subscribers with different ids none takes the topic of another. -/
theorem keeper?_eq (hids : (subscribers.map (·.id)).Nodup) (hx : x ∈ subscribers)
    (h : p.place? registry pipeline x = some (servers, topic)) :
    p.keeper? registry pipeline subscribers servers topic = some x := by
  obtain ⟨y, hy⟩ := exists_keeper hx h
  obtain ⟨hmem, hplace⟩ := place?_of_keeper? hy
  have htopic := (topic_of_place? h).1.symm.trans (topic_of_place? hplace).1
  obtain ⟨-, hid⟩ := eq_of_checkpointTopic_eq htopic fun _ => rfl
  rw [hy, List.inj_on_of_nodup_map hids hmem hx hid.symm]

/-- What is wanted for a pipeline is there if every subscriber has its own. -/
theorem met_of_own (h : ∀ x ∈ subscribers, ∃ servers topic t, p.place? registry pipeline x = some (servers, topic) ∧
    there servers topic = some t ∧ t.Keeps x.retention) : p.Met registry pipeline subscribers there := by
  intro d hd servers topic spec hspec
  obtain ⟨-, -, hwanted⟩ := desired_ok hd
  rw [Desired.get?_topics, hwanted] at hspec
  obtain ⟨y, hy, rfl⟩ := Option.map_eq_some_iff.1 hspec
  obtain ⟨hmem, hplace⟩ := place?_of_keeper? hy
  obtain ⟨servers', topic', t, hplace', ht, hkeeps⟩ := h y hmem
  obtain ⟨rfl, rfl⟩ := Prod.mk.inj (Option.some.inj (hplace'.symm.trans hplace))
  exact ⟨t, ht, TopicSpec.shows_iff_keeps.2 hkeeps⟩

theorem exists_placeAll (h : ∀ x ∈ subscribers, ∃ source, Provisioner.source registry pipeline x = .ok source)
    (d : Desired) : ∃ d', p.placeAll registry pipeline subscribers d = .ok d' := by
  induction subscribers generalizing d with
  | nil => exact ⟨d, rfl⟩
  | cons s rest ih =>
    obtain ⟨⟨source, hsource⟩, hrest⟩ := List.forall_mem_cons.1 h
    rw [placeAll, hsource]
    exact ih hrest _

/-- Every subscriber has its own if what is wanted for a pipeline is there. -/
theorem own_of_met (hids : (subscribers.map (·.id)).Nodup)
    (hsources : ∀ x ∈ subscribers, ∃ source, Provisioner.source registry pipeline x = .ok source)
    (h : p.Met registry pipeline subscribers there) (hx : x ∈ subscribers) :
    ∃ servers topic t, p.place? registry pipeline x = some (servers, topic) ∧
      there servers topic = some t ∧ t.Keeps x.retention := by
  obtain ⟨d, hd⟩ := exists_placeAll (p := p) hsources .empty
  obtain ⟨-, -, hwanted⟩ := desired_ok hd
  obtain ⟨source, hsource⟩ := hsources x hx
  have hplace : p.place? registry pipeline x = some (source.servers, checkpointTopic p.lead pipeline x.id) := by
    simp [place?, hsource]
  have hspec : (d.topics source.servers).get? (checkpointTopic p.lead pipeline x.id) = some (p.spec x) := by
    rw [Desired.get?_topics, hwanted, keeper?_eq hids hx hplace]
    rfl
  obtain ⟨t, ht, hshows⟩ := h d hd source.servers _ _ hspec
  exact ⟨_, _, t, hplace, ht, TopicSpec.shows_iff_keeps.1 hshows⟩

end Provisioner

/-! ## Runs over all pipelines -/

namespace Admin.Honours

variable {σ : Type} {a : Admin σ} {Sound : σ → Prop} {view : σ → Topics} {p : Provisioner} {registry : Registry}
  {pipelines : List (String × List Subscriber)} {s s' : Provisioning σ} {servers topic : String}
  {Q : TopicState → Prop}

/-- What holds of a topic that is there, and of any topic that shows what one of its subscribers wants, holds after
a pipeline was provisioned. -/
theorem stays_provision (ha : a.Honours Sound view) (hs : Sound s.clusters) {pipeline : String}
    {subscribers : List Subscriber} {report : ProvisionReport}
    (h : p.provision a registry pipeline subscribers s = (.ok report, s'))
    (hQ : ∀ y ∈ subscribers, p.place? registry pipeline y = some (servers, topic) →
      ∀ t, t.Shows (p.spec y).overrides → Q t)
    (hthere : ∃ t, view s.clusters servers topic = some t ∧ Q t) :
    ∃ t, view s'.clusters servers topic = some t ∧ Q t := by
  have hexact : False → a.MarksExactly Sound view := False.elim
  obtain ⟨-, d, hd, hprovisioned⟩ := ha.provision hexact hs h
  obtain ⟨-, -, hwanted⟩ := Provisioner.desired_ok hd
  have htopic := (d.get?_topics servers topic).trans (hwanted servers topic)
  cases hkeeper : p.keeper? registry pipeline subscribers servers topic with
  | none =>
    rw [hkeeper] at htopic
    rwa [(hprovisioned servers).untouched topic htopic]
  | some y =>
    rw [hkeeper] at htopic
    obtain ⟨hy, hplace⟩ := Provisioner.place?_of_keeper? hkeeper
    obtain ⟨t, ht, hshows⟩ := (hprovisioned servers).wanted topic (p.spec y) htopic
    exact ⟨t, ht, hQ y hy hplace t hshows⟩

theorem stays_provisionEach (ha : a.Honours Sound view) (hs : Sound s.clusters)
    (hok : ∀ r ∈ (p.provisionEach a registry pipelines s).1, ∃ report, r.2 = .ok report)
    (hQ : ∀ e ∈ pipelines, ∀ y ∈ e.2, p.place? registry e.1 y = some (servers, topic) →
      ∀ t, t.Shows (p.spec y).overrides → Q t)
    (hthere : ∃ t, view s.clusters servers topic = some t ∧ Q t) :
    ∃ t, view (p.provisionEach a registry pipelines s).2.clusters servers topic = some t ∧ Q t := by
  induction pipelines generalizing s with
  | nil => exact hthere
  | cons e rest ih =>
    obtain ⟨hfirst, hrest⟩ := List.forall_mem_cons.1 hQ
    rcases hprovision : p.provision a registry e.1 e.2 s with ⟨result, s₁⟩
    simp only [Provisioner.provisionEach, hprovision] at hok ⊢
    obtain ⟨⟨report, rfl⟩, hok⟩ := List.forall_mem_cons.1 hok
    have hexact : False → a.MarksExactly Sound view := False.elim
    obtain ⟨hsound, -⟩ := ha.provision hexact hs hprovision
    have hstays := ha.stays_provision hs hprovision hfirst hthere
    exact ih (s := Provisioner.tally e.1 (.ok report) s₁) hsound hok hrest hstays

/-- After a run that could finish all pipelines every subscriber has a topic, of which holds whatever holds of any topic
that shows what one of its subscribers wants. -/
theorem places_provisionEach (ha : a.Honours Sound view) (hs : Sound s.clusters)
    (hids : ∀ e ∈ pipelines, (e.2.map (·.id)).Nodup)
    (hok : ∀ r ∈ (p.provisionEach a registry pipelines s).1, ∃ report, r.2 = .ok report)
    {Q : String × String → TopicState → Prop}
    (hQ : ∀ e ∈ pipelines, ∀ y ∈ e.2, ∀ place, p.place? registry e.1 y = some place →
      ∀ t, t.Shows (p.spec y).overrides → Q place t) :
    Sound (p.provisionEach a registry pipelines s).2.clusters ∧
      ∀ e ∈ pipelines, ∀ x ∈ e.2, ∃ servers topic t, p.place? registry e.1 x = some (servers, topic) ∧
        view (p.provisionEach a registry pipelines s).2.clusters servers topic = some t ∧ Q (servers, topic) t := by
  induction pipelines generalizing s with
  | nil => exact ⟨hs, by simp⟩
  | cons e rest ih =>
    obtain ⟨hfirstids, hrestids⟩ := List.forall_mem_cons.1 hids
    obtain ⟨hfirst, hrest⟩ := List.forall_mem_cons.1 hQ
    rcases hprovision : p.provision a registry e.1 e.2 s with ⟨result, s₁⟩
    simp only [Provisioner.provisionEach, hprovision] at hok ⊢
    obtain ⟨⟨report, rfl⟩, hok⟩ := List.forall_mem_cons.1 hok
    have hexact : False → a.MarksExactly Sound view := False.elim
    obtain ⟨hsound, d, hd, hprovisioned⟩ := ha.provision hexact hs hprovision
    have hsound : Sound (Provisioner.tally e.1 (.ok report) s₁).clusters := hsound
    obtain ⟨hsound', hothers⟩ := ih hsound hrestids hok hrest
    refine ⟨hsound', List.forall_mem_cons.2 ⟨fun x hx => ?_, hothers⟩⟩
    have hmet : p.Met registry e.1 e.2 (view s₁.clusters) := by
      intro d' hd' servers
      obtain rfl := Except.ok.inj (hd.symm.trans hd')
      exact (hprovisioned servers).wanted
    obtain ⟨-, hsources, -⟩ := Provisioner.desired_ok hd
    obtain ⟨servers, topic, t, hplace, ht, hkeeps⟩ := Provisioner.own_of_met hfirstids hsources hmet hx
    have hshows : t.Shows (p.spec x).overrides := TopicSpec.shows_iff_keeps.2 hkeeps
    have hrest' : ∀ e' ∈ rest, ∀ y ∈ e'.2, p.place? registry e'.1 y = some (servers, topic) →
        ∀ t, t.Shows (p.spec y).overrides → Q (servers, topic) t := fun e' he' y hy => hrest e' he' y hy _
    obtain ⟨t', ht', hQt'⟩ :=
      ha.stays_provisionEach hsound hok hrest' ⟨t, ht, hfirst x hx _ hplace t hshows⟩
    exact ⟨servers, topic, t', hplace, ht', hQt'⟩

/-- If subscribers with one topic want the same, every subscriber has what it wants after such a run. -/
theorem ownRetention_provisionEach (ha : a.Honours Sound view) (hs : Sound s.clusters)
    (hids : ∀ e ∈ pipelines, (e.2.map (·.id)).Nodup)
    (hok : ∀ r ∈ (p.provisionEach a registry pipelines s).1, ∃ report, r.2 = .ok report)
    (hagreed : p.Agreed registry pipelines) :
    p.OwnRetention registry pipelines (view (p.provisionEach a registry pipelines s).2.clusters) := by
  obtain ⟨-, hkept⟩ := ha.places_provisionEach hs hids hok
    (Q := fun place t => ∀ e ∈ pipelines, ∀ x ∈ e.2, p.place? registry e.1 x = some place → t.Keeps x.retention) <| by
      intro e' he' y hy place hplace' t hshows e he x hx hplace
      rw [hagreed e he x hx e' he' y hy place hplace hplace']
      exact TopicSpec.shows_iff_keeps.1 hshows
  intro e he x hx
  obtain ⟨servers, topic, t, hplace, ht, hkeeps⟩ := hkept e he x hx
  exact ⟨servers, topic, t, hplace, ht, hkeeps e he x hx hplace⟩

end Admin.Honours

/-- If every subscriber has a topic, and a run that could finish all pipelines altered none of them, those with one
topic want the same. -/
theorem Admin.Discloses.agreed_of_unaltered {σ : Type} {a : Admin σ} {Sound : σ → Prop} {view : σ → Topics}
    {p : Provisioner} {registry : Registry} {pipelines : List (String × List Subscriber)} {s : Provisioning σ}
    (ha : a.Discloses Sound view) (hs : Sound s.clusters) (hids : ∀ e ∈ pipelines, (e.2.map (·.id)).Nodup)
    (hexist : ∀ e ∈ pipelines, ∀ x ∈ e.2, ∃ servers topic t, p.place? registry e.1 x = some (servers, topic) ∧
      view s.clusters servers topic = some t)
    (hunaltered : ∀ r ∈ (p.provisionEach a registry pipelines s).1, ∃ report, r.2 = .ok report ∧ report.altered = []) :
    p.Agreed registry pipelines := by
  have hmet : ∀ e ∈ pipelines, p.Met registry e.1 e.2 (view s.clusters) := by
    refine ha.met_of_provisionEach hs (fun e he d hd servers topic hwanted => ?_) hunaltered
    -- a topic that is wanted is that of a subscriber
    obtain ⟨-, -, hkeepers⟩ := Provisioner.desired_ok hd
    rw [Desired.get?_topics, hkeepers, Ne, Option.map_eq_none_iff] at hwanted
    obtain ⟨y, hy⟩ := Option.ne_none_iff_exists'.1 hwanted
    obtain ⟨hmem, hplace⟩ := Provisioner.place?_of_keeper? hy
    obtain ⟨servers', topic', t, hplace', ht⟩ := hexist e he y hmem
    obtain ⟨rfl, rfl⟩ := Prod.mk.inj (Option.some.inj (hplace'.symm.trans hplace))
    simp [ht]
  have hsources : ∀ e ∈ pipelines, ∀ x ∈ e.2, ∃ source, Provisioner.source registry e.1 x = .ok source := by
    intro e he x hx
    obtain ⟨servers, topic, -, hplace, -⟩ := hexist e he x hx
    obtain ⟨-, source, hsource, -⟩ := Provisioner.topic_of_place? hplace
    exact ⟨source, hsource⟩
  exact Provisioner.agreed_of_ownRetention fun e he x hx =>
    Provisioner.own_of_met (hids e he) (hsources e he) (hmet e he) hx

/-- Two subscribers have topics of one name if and only if the names of their pipelines and their own, written one after
the other, are the same; so they have not if they are of one pipeline, or if neither of their pipelines has a name that
the other one's starts with. After a run that could finish all pipelines, every log is kept as its subscriber wants if
and only if subscribers with one topic on one cluster want the same. Then a second run does nothing but look at the
clusters, whether or not it can finish; otherwise it cannot finish, or alters a topic. -/
theorem own_retention_iff {σ : Type} {a : Admin σ} {Sound : σ → Prop} {view : σ → Topics}
    (ha : a.Discloses Sound view) (p : Provisioner) (registry : Registry)
    (pipelines : SortedMap String (List Subscriber)) (hids : ∀ e ∈ pipelines.entries, (e.2.map (·.id)).Nodup)
    {s : Provisioning σ} (hs : Sound s.clusters)
    (hok : ∀ r ∈ (p.provisionAll a registry pipelines s).1, ∃ report, r.2 = .ok report) :
    let after := (p.provisionAll a registry pipelines s).2.clusters
    (∀ e ∈ pipelines.entries, ∀ x ∈ e.2, ∀ e' ∈ pipelines.entries, ∀ y ∈ e'.2,
      (checkpointTopic p.lead e.1 x.id = checkpointTopic p.lead e'.1 y.id ↔ e.1 ++ x.id = e'.1 ++ y.id) ∧
      ((e.1.toList <+: e'.1.toList ∨ e'.1.toList <+: e.1.toList → e.1 = e'.1) →
        checkpointTopic p.lead e.1 x.id = checkpointTopic p.lead e'.1 y.id → e = e' ∧ x = y)) ∧
    (p.OwnRetention registry pipelines.entries (view after) ↔ p.Agreed registry pipelines.entries) ∧
    ∀ s₂ : Provisioning σ, s₂.clusters = after →
      let again := p.provisionAll a registry pipelines s₂
      (p.Agreed registry pipelines.entries →
        s₂.Looked Sound view again.2 ∧
          ∀ r ∈ again.1, ∀ report, r.2 = .ok report → report.created = [] ∧ report.altered = []) ∧
      ((∀ r ∈ again.1, ∃ report, r.2 = .ok report ∧ report.altered = []) → p.Agreed registry pipelines.entries) := by
  intro after
  obtain ⟨hsound, hexist⟩ := ha.places_provisionEach hs hids hok (Q := fun _ _ => True) fun _ _ _ _ _ _ _ _ => trivial
  have hown : p.Agreed registry pipelines.entries → p.OwnRetention registry pipelines.entries (view after) :=
    ha.ownRetention_provisionEach hs hids hok
  refine ⟨fun e he x hx e' he' y hy => ⟨checkpointTopic_inj, fun hstarts htopic => ?_⟩,
    ⟨Provisioner.agreed_of_ownRetention, hown⟩, fun s₂ hs₂ => ?_⟩
  · obtain ⟨hname, hid⟩ := eq_of_checkpointTopic_eq htopic hstarts
    obtain rfl := List.inj_on_of_nodup_map pipelines.nodup_keys he he' hname
    exact ⟨rfl, List.inj_on_of_nodup_map (hids e he) hx hy hid⟩
  · have hsound₂ : Sound s₂.clusters := by rwa [hs₂]
    refine ⟨fun hagreed => ha.looked_provisionEach hsound₂ fun e he => ?_,
      ha.agreed_of_unaltered hsound₂ hids fun e he x hx => ?_⟩
    · rw [hs₂]
      exact Provisioner.met_of_own (hown hagreed e he)
    · obtain ⟨servers, topic, t, hplace, ht, -⟩ := hexist e he x hx
      rw [hs₂]
      exact ⟨servers, topic, t, hplace, ht⟩

namespace SharedTopics

/-- A cluster without topics. -/
def fleet : Fleet := .ofList [("c", ⟨true, .empty, [], []⟩)]

/-- A subscriber that wants its log kept for some time. -/
def subscriber (id : String) (millis : Int) : Subscriber := ⟨id, ⟨false, .all, [⟨"t", none, []⟩]⟩, ⟨millis, -1⟩⟩

/-- The subscriber "bc" of the pipeline "a" and the subscriber "c" of the pipeline "ab" are on one cluster. -/
def registry : Registry :=
  ⟨.ofList [("a", ⟨[subscriber "bc" 1000], .ofList [("t", ⟨"c"⟩)]⟩),
    ("ab", ⟨[subscriber "c" 2000], .ofList [("t", ⟨"c"⟩)]⟩)]⟩

def provisioner : Provisioner := ⟨"checkpoint_", 10, 1, default⟩

def first : List (String × Except AdminError ProvisionReport) × Provisioning Fleet :=
  provisioner.provisionAll Fleet.admin registry registry.all (.start fleet)

def again : List (String × Except AdminError ProvisionReport) × Provisioning Fleet :=
  provisioner.provisionAll Fleet.admin registry registry.all first.2

theorem sound_fleet : fleet.Sound := by
  intro servers c hc
  simp only [fleet, SortedMap.get?_ofList, List.reverse_singleton, SortedMap.find?, Std.compare_eq_iff_eq] at hc
  split at hc
  · obtain rfl := Option.some.inj hc
    exact ⟨rfl, by simp⟩
  · simp at hc

theorem not_agreed : ¬provisioner.Agreed registry registry.all.entries := by
  intro hagreed
  have hentries : registry.all.entries = [("a", [subscriber "bc" 1000]), ("ab", [subscriber "c" 2000])] := rfl
  rw [hentries] at hagreed
  have hsame := hagreed _ (.head _) _ (.head _) _ (.tail _ (.head _)) _ (.head _) ("c", "checkpoint_abc")
    (by decide +kernel) (by decide +kernel)
  simp [subscriber] at hsame

/-- Both pipelines could be provisioned, but the log of the first subscriber is not kept as it wants, and when they are
provisioned again each alters what the other one made. -/
theorem retention_flips :
    first.1 = [("a", .ok ⟨["checkpoint_abc"], [], []⟩), ("ab", .ok ⟨[], ["checkpoint_abc"], []⟩)] ∧
      ¬provisioner.OwnRetention registry registry.all.entries (Fleet.view first.2.clusters) ∧
      again.1 = [("a", .ok ⟨[], ["checkpoint_abc"], []⟩), ("ab", .ok ⟨[], ["checkpoint_abc"], []⟩)] ∧
      ¬∀ r ∈ again.1, ∃ report, r.2 = .ok report ∧ report.altered = [] := by
  have hfirst : first.1 = [("a", .ok ⟨["checkpoint_abc"], [], []⟩), ("ab", .ok ⟨[], ["checkpoint_abc"], []⟩)] := by
    decide +kernel
  have hids : ∀ e ∈ registry.all.entries, (e.2.map (·.id)).Nodup := by decide +kernel
  have hok : ∀ r ∈ first.1, ∃ report, r.2 = .ok report := by
    rw [hfirst]
    simp
  obtain ⟨-, hown, hsecond⟩ :=
    own_retention_iff Fleet.discloses provisioner registry registry.all hids sound_fleet hok
  obtain ⟨-, hagain⟩ := hsecond first.2 rfl
  exact ⟨hfirst, fun h => not_agreed (hown.1 h), by decide +kernel, fun h => not_agreed (hagain h)⟩

end SharedTopics

end Relay
