import Mathlib.Data.List.Nodup
import Relay.Proofs.Provisioning
import Relay.Topics.Fleet

/-!
# Clusters in memory keep their word

A fleet does what the contract of administration says, as long as it describes every topic and shows no setting of a
topic twice. What was made for a topic is read off the settings that are marked; the others hold where none was made.
-/

namespace Relay

namespace ClusterTopic

/-- A topic of a cluster as its administration sees it. -/
def state (t : ClusterTopic) : TopicState where
  partitions := t.partitions
  replication := t.replication
  overrides := .ofList (t.settings.filterMap TopicSetting.override?)
  inherited name := (t.settings.find? (·.name == name)).bind (·.value)

/-- No setting is shown twice. -/
def Distinct (t : ClusterTopic) : Prop := (t.settings.map (·.name)).Nodup

instance (t : ClusterTopic) : Decidable t.Distinct := inferInstanceAs (Decidable (List.Nodup _))

section Settings

variable {t : ClusterTopic} {name v : String} {settings : List TopicSetting}

theorem override?_made (e : String × String) : (made e).override? = some e := by
  simp [made, TopicSetting.override?, TopicSetting.isOverride]

theorem filterMap_made (es : List (String × String)) : (es.map made).filterMap TopicSetting.override? = es := by
  have hsome : TopicSetting.override? ∘ made = some := funext override?_made
  rw [List.filterMap_map, hsome, List.filterMap_some]

theorem map_name_made (es : List (String × String)) : (es.map made).map (·.name) = es.map (·.1) := by
  rw [List.map_map]
  rfl

/-- What was made for a topic is what is marked. -/
theorem get?_overrides (h : t.Distinct) :
    t.state.overrides.get? name = some v ↔ ∃ x ∈ t.settings, x.override? = some (name, v) := by
  rw [state, SortedMap.get?_ofList]
  exact Provisioner.find?_overrides_reverse h

theorem describedBy (h : t.Distinct) : t.state.DescribedBy t.settings := by
  refine ⟨h, fun x hx v hv => ?_, fun name v hv => (get?_overrides h).1 hv⟩
  rw [TopicState.effective?]
  -- the only setting of this name is the one that is shown
  have honly : ∀ y ∈ t.settings, y.name = x.name → y = x := fun y hy hname =>
    List.inj_on_of_nodup_map h hy hx hname
  have hfind : t.settings.find? (·.name == x.name) = some x := by
    cases hf : t.settings.find? (·.name == x.name) with
    | none => simpa using List.find?_eq_none.1 hf x hx
    | some y => rw [honly y (List.mem_of_find?_eq_some hf) (by simpa using List.find?_some hf)]
  cases hget : t.state.overrides.get? x.name with
  | some u =>
    obtain ⟨y, hy, hoverride⟩ := (get?_overrides h).1 hget
    obtain rfl := honly y hy (Provisioner.override?_name hoverride)
    unfold TopicSetting.override? at hoverride
    split at hoverride
    · simpa [hv] using hoverride.symm
    · simp at hoverride
  | none => simp [state, hfind, hv]

theorem markedBy (h : t.Distinct) : t.state.MarkedBy t.settings := fun x hx _ _ ho => (get?_overrides h).2 ⟨x, hx, ho⟩

theorem find?_overrides (h : t.Distinct) (name : String) :
    t.state.overrides.get? name = SortedMap.find? name (t.settings.filterMap TopicSetting.override?) := by
  apply Option.ext
  intro v
  rw [get?_overrides h, SortedMap.find?_eq_some_iff_mem (Provisioner.nodup_overrides h), List.mem_filterMap]

/-- Making one setting leaves what was made under other names. -/
theorem find?_set (e : String × String) (settings : List TopicSetting) (name : String) :
    SortedMap.find? name ((set e settings).filterMap TopicSetting.override?) =
      if name = e.1 then some e.2 else SortedMap.find? name (settings.filterMap TopicSetting.override?) := by
  induction settings with
  | nil =>
    rw [set, List.filterMap_cons, override?_made]
    simp only [SortedMap.find?, Std.compare_eq_iff_eq, List.filterMap_nil]
  | cons x rest ih =>
    rw [set]
    split
    · next hname =>
      rw [List.filterMap_cons, override?_made, List.filterMap_cons]
      by_cases heq : name = e.1
      · simp [SortedMap.find?, heq]
      · cases ho : x.override? with
        | none => simp [SortedMap.find?, heq]
        | some o =>
          have hkey : o.1 = e.1 := (Provisioner.override?_name ho).symm.trans hname
          simp [SortedMap.find?, heq, hkey]
    · next hname =>
      rw [List.filterMap_cons, List.filterMap_cons]
      cases ho : x.override? with
      | none => exact ih
      | some o =>
        have hkey : o.1 = x.name := (Provisioner.override?_name ho).symm
        simp only [SortedMap.find?, Std.compare_eq_iff_eq, ih]
        by_cases ho1 : name = o.1
        · have hother : name ≠ e.1 := fun heq => hname (hkey.symm.trans (ho1.symm.trans heq))
          rw [if_pos ho1, if_neg hother, if_pos ho1]
        · rw [if_neg ho1, if_neg ho1]

theorem mem_names_set {e : String × String} {settings : List TopicSetting} {name : String}
    (h : name ∈ (set e settings).map (·.name)) : name = e.1 ∨ name ∈ settings.map (·.name) := by
  induction settings with
  | nil => exact .inl (by simpa [set, made] using h)
  | cons x rest ih =>
    rw [set] at h
    split at h
    · rcases List.mem_cons.1 h with rfl | h
      · exact .inl rfl
      · exact .inr (List.mem_cons_of_mem _ h)
    · rcases List.mem_cons.1 h with rfl | h
      · exact .inr List.mem_cons_self
      · exact (ih h).imp_right (List.mem_cons_of_mem _)

theorem nodup_set (e : String × String) {settings : List TopicSetting} (h : (settings.map (·.name)).Nodup) :
    ((set e settings).map (·.name)).Nodup := by
  induction settings with
  | nil => simp [set]
  | cons x rest ih =>
    obtain ⟨hx, hrest⟩ := List.nodup_cons.1 h
    rw [set]
    split
    · next hname =>
      rw [List.map_cons]
      have hmade : (made e).name = x.name := hname.symm
      rw [hmade]
      exact List.nodup_cons.2 ⟨hx, hrest⟩
    · next hname =>
      refine List.nodup_cons.2 ⟨fun hmem => ?_, ih hrest⟩
      rcases mem_names_set hmem with heq | hmem
      · exact hname heq
      · exact hx hmem

/-- Making settings makes these and leaves the others. -/
theorem revise_spec (h : t.Distinct) (wanted : Overrides) :
    (t.revise wanted).Distinct ∧ ∀ name, (t.revise wanted).state.overrides.get? name =
      (wanted.get? name).or (t.state.overrides.get? name) := by
  have hfold : ∀ (es : List (String × String)) (settings : List TopicSetting), (settings.map (·.name)).Nodup →
      ((es.foldl (fun shown e => set e shown) settings).map (·.name)).Nodup ∧
        ∀ name, SortedMap.find? name
            ((es.foldl (fun shown e => set e shown) settings).filterMap TopicSetting.override?) =
          (SortedMap.find? name es.reverse).or
            (SortedMap.find? name (settings.filterMap TopicSetting.override?)) := by
    intro es
    induction es with
    | nil => exact fun settings hnodup => ⟨hnodup, fun _ => rfl⟩
    | cons e es ih =>
      intro settings hnodup
      obtain ⟨hnodup', hfind⟩ := ih (set e settings) (nodup_set e hnodup)
      refine ⟨hnodup', fun name => ?_⟩
      rw [List.foldl_cons, hfind, find?_set, List.reverse_cons, SortedMap.find?_append]
      cases SortedMap.find? name es.reverse with
      | some v => rfl
      | none => by_cases heq : name = e.1 <;> simp [SortedMap.find?, heq]
  obtain ⟨hdistinct, hfind⟩ := hfold wanted.entries t.settings h
  have hdistinct : (t.revise wanted).Distinct := hdistinct
  refine ⟨hdistinct, fun name => ?_⟩
  rw [find?_overrides hdistinct, find?_overrides h, ← SortedMap.find?_reverse wanted]
  exact hfind name

/-- Replacing settings leaves nothing else. -/
theorem replace_spec (t : ClusterTopic) (wanted : Overrides) :
    (t.replace wanted).Distinct ∧ (t.replace wanted).state.overrides = wanted := by
  constructor
  · rw [Distinct, replace, map_name_made]
    exact wanted.nodup_keys
  · simp only [state, replace, filterMap_made]
    exact wanted.ofList_entries

theorem ofSpec_spec (spec : TopicSpec) :
    (ofSpec spec).Distinct ∧ (ofSpec spec).state.overrides = spec.overrides := by
  constructor
  · rw [Distinct, ofSpec, map_name_made]
    exact spec.overrides.nodup_keys
  · simp only [state, ofSpec, filterMap_made]
    exact spec.overrides.ofList_entries

end Settings

end ClusterTopic

namespace Fleet

/-- The topics of a fleet. -/
def view (fleet : Fleet) : Topics := fun servers topic =>
  ((fleet.get? servers).bind (·.topics.get? topic)).map ClusterTopic.state

/-- Every topic is described, and shows no setting twice. -/
def Sound (fleet : Fleet) : Prop :=
  ∀ servers c, fleet.get? servers = some c →
    c.undescribed = [] ∧ ∀ topic t, c.topics.get? topic = some t → t.Distinct

section Asked

variable {fleet fleet' : Fleet} {servers : String} {c c' : Cluster}

theorem ask_eq {α : Type} {f : Cluster → Reply α × Cluster} {r : Except AdminError α}
    (h : ask servers f fleet = (some r, fleet')) :
    ∃ c c', fleet.get? servers = some c ∧ f c = (some r, c') ∧ fleet' = fleet.insert servers c' := by
  unfold ask at h
  split at h
  · simp at h
  · next c hc =>
    obtain ⟨hreply, rfl⟩ := Prod.mk.inj h
    exact ⟨c, _, hc, Prod.ext hreply rfl, rfl⟩

theorem reply_ok {α : Type} {task : AdminTask} {result : Except AdminError α} {x : α} {after : Cluster}
    (h : c.reply task result after = (some (.ok x), c')) : result = .ok x ∧ c' = after := by
  unfold Cluster.reply at h
  split at h
  · simp at h
  · simp at h
  · obtain ⟨hresult, rfl⟩ := Prod.mk.inj h
    exact ⟨Option.some.inj hresult, rfl⟩

theorem reply_error {α : Type} {task : AdminTask} {result : Except AdminError α} {e : AdminError} {after : Cluster}
    (h : c.reply task result after = (some (.error e), c')) : c' = c ∨ result = .error e ∧ c' = after := by
  unfold Cluster.reply at h
  split at h
  · simp at h
  · exact .inl (Prod.mk.inj h).2.symm
  · obtain ⟨hresult, rfl⟩ := Prod.mk.inj h
    exact .inr ⟨Option.some.inj hresult, rfl⟩

/-- A cluster that cannot make single settings says so, unless it fails in another way. -/
theorem revise_eq {settings : SortedMap String Overrides} {r : Except AdminError Unit}
    (h : Fleet.admin.revise servers settings fleet = (some r, fleet')) :
    ∃ c c', fleet.get? servers = some c ∧ fleet' = fleet.insert servers c' ∧
      (c.reply .revise (.ok ()) (c.change ClusterTopic.revise settings) = (some r, c') ∨
        c.reply .revise (.error (.unsupported "IncrementalAlterConfigs")) c = (some r, c')) := by
  obtain ⟨c, c', hc, hreply, rfl⟩ := ask_eq (f := fun c =>
    if c.revisable then c.reply .revise (.ok ()) (c.change ClusterTopic.revise settings)
    else c.reply .revise (.error (.unsupported "IncrementalAlterConfigs")) c) h
  refine ⟨c, c', hc, rfl, ?_⟩
  split at hreply
  · exact .inl hreply
  · exact .inr hreply

theorem view_insert (fleet : Fleet) (servers : String) (c : Cluster) (other topic : String) :
    view (fleet.insert servers c) other topic =
      if other = servers then (c.topics.get? topic).map ClusterTopic.state else view fleet other topic := by
  simp only [view, SortedMap.get?_insert, Std.compare_eq_iff_eq]
  split <;> rfl

theorem view_insert_self (hc : fleet.get? servers = some c) : view (fleet.insert servers c) = view fleet := by
  funext other topic
  rw [view_insert]
  split
  · next heq => simp [view, heq, hc]
  · rfl

theorem sound_insert (h : fleet.Sound) (hundescribed : c.undescribed = [])
    (hdistinct : ∀ topic t, c.topics.get? topic = some t → t.Distinct) : Sound (fleet.insert servers c) := by
  intro other c' hc'
  simp only [SortedMap.get?_insert, Std.compare_eq_iff_eq] at hc'
  split at hc'
  · obtain rfl := Option.some.inj hc'
    exact ⟨hundescribed, hdistinct⟩
  · exact h other c' hc'

theorem sound_insert_self (h : fleet.Sound) (hc : fleet.get? servers = some c) : Sound (fleet.insert servers c) :=
  sound_insert h (h servers c hc).1 (h servers c hc).2

/-- Creating topics leaves those that exist. -/
theorem get?_create (c : Cluster) (topics : SortedMap String TopicSpec) (topic : String) :
    (c.create topics).topics.get? topic = (c.topics.get? topic).or ((topics.get? topic).map ClusterTopic.ofSpec) := by
  have hfold : ∀ (es : List (String × TopicSpec)) (existing : SortedMap String ClusterTopic),
      (es.foldl (fun existing e => if existing.contains e.1 then existing else existing.insert e.1 (.ofSpec e.2))
        existing).get? topic = (existing.get? topic).or ((SortedMap.find? topic es).map ClusterTopic.ofSpec) := by
    intro es
    induction es with
    | nil => simp [SortedMap.find?]
    | cons e es ih =>
      intro existing
      rw [List.foldl_cons, ih]
      by_cases heq : topic = e.1
      · subst heq
        cases hget : existing.get? e.1 with
        | some t => simp [SortedMap.contains, hget]
        | none => simp [SortedMap.contains, hget, SortedMap.find?]
      · split <;> simp [SortedMap.find?, heq]
  exact hfold topics.entries c.topics

theorem get?_change (f : ClusterTopic → Overrides → ClusterTopic) (settings : SortedMap String Overrides)
    (c : Cluster) (topic : String) : (c.change f settings).topics.get? topic =
      (c.topics.get? topic).map fun t => ((settings.get? topic).map (f t)).getD t := by
  rw [Cluster.change, SortedMap.get?_map]
  cases c.topics.get? topic with
  | none => rfl
  | some t =>
    simp only [Option.map_some]
    cases settings.get? topic <;> rfl

/-- What changing topics of a cluster does, if it does the same to every topic that it is to change. -/
theorem changed (h : fleet.Sound) (hc : fleet.get? servers = some c)
    (f : ClusterTopic → Overrides → ClusterTopic) (settings : SortedMap String Overrides)
    {effect : TopicState → Overrides → TopicState → Prop}
    (hf : ∀ t wanted, t.Distinct → (f t wanted).Distinct ∧ effect t.state wanted (f t wanted).state) :
    Sound (fleet.insert servers (c.change f settings)) ∧
      (∀ other topic, other ≠ servers ∨ settings.get? topic = none →
        view (fleet.insert servers (c.change f settings)) other topic = view fleet other topic) ∧
      ∀ topic wanted t, settings.get? topic = some wanted → view fleet servers topic = some t →
        ∃ t', view (fleet.insert servers (c.change f settings)) servers topic = some t' ∧ effect t wanted t' := by
  obtain ⟨hundescribed, hdistinct⟩ := h servers c hc
  refine ⟨sound_insert h hundescribed fun topic t ht => ?_, fun other topic hother => ?_, fun topic wanted t hw ht => ?_⟩
  · rw [get?_change] at ht
    obtain ⟨u, hu, rfl⟩ := Option.map_eq_some_iff.1 ht
    cases settings.get? topic with
    | none => exact hdistinct topic u hu
    | some wanted => exact (hf u wanted (hdistinct topic u hu)).1
  · rw [view_insert]
    split
    · next heq =>
      have hnone : settings.get? topic = none := hother.resolve_left (not_not_intro heq)
      rw [get?_change, hnone, view, heq, hc, Option.bind_some]
      cases c.topics.get? topic <;> simp
    · rfl
  · simp only [view, hc, Option.bind_some] at ht
    obtain ⟨u, hu, rfl⟩ := Option.map_eq_some_iff.1 ht
    refine ⟨_, ?_, (hf u wanted (hdistinct topic u hu)).2⟩
    rw [view_insert, if_pos rfl, get?_change, hu, hw]
    rfl

end Asked

/-- A sound fleet keeps the contract of administration. -/
theorem honours : Fleet.admin.Honours Sound view where
  connect source hs := ⟨hs, rfl⟩
  list hs h := by
    obtain ⟨c, c', hc, hreply, rfl⟩ := ask_eq h
    obtain ⟨hnames, rfl⟩ := reply_ok hreply
    obtain rfl := Except.ok.inj hnames
    refine ⟨sound_insert_self hs hc, view_insert_self hc, fun topic => ?_⟩
    rw [SortedMap.mem_keys_iff, view, hc, Option.bind_some, Ne, Ne, Option.map_eq_none_iff]
  create {fleet fleet' servers topics} hs h := by
    obtain ⟨c, c', hc, hreply, rfl⟩ := ask_eq h
    obtain ⟨-, rfl⟩ := reply_ok hreply
    obtain ⟨hundescribed, hdistinct⟩ := hs _ c hc
    have hbefore : ∀ topic, view fleet servers topic = (c.topics.get? topic).map ClusterTopic.state := by
      simp [view, hc]
    refine ⟨sound_insert hs hundescribed fun topic t ht => ?_, fun other topic hother => ?_,
      fun topic spec hspec hnone => ?_⟩
    · rw [get?_create] at ht
      cases hget : c.topics.get? topic with
      | some u =>
        rw [hget, Option.some_or] at ht
        exact Option.some.inj ht ▸ hdistinct topic u hget
      | none =>
        rw [hget, Option.none_or] at ht
        obtain ⟨spec, -, rfl⟩ := Option.map_eq_some_iff.1 ht
        exact (ClusterTopic.ofSpec_spec spec).1
    · rw [view_insert]
      split
      · next heq =>
        subst heq
        rw [hbefore] at hother ⊢
        rw [get?_create]
        rcases hother with hne | hnone | hexists
        · exact absurd rfl hne
        · rw [hnone, Option.map_none, Option.or_none]
        · obtain ⟨t, ht⟩ := Option.ne_none_iff_exists'.1 hexists
          obtain ⟨u, hu, -⟩ := Option.map_eq_some_iff.1 ht
          rw [hu, Option.some_or]
      · rfl
    · rw [hbefore, Option.map_eq_none_iff] at hnone
      refine ⟨_, ?_, rfl, rfl, (ClusterTopic.ofSpec_spec spec).2⟩
      rw [view_insert, if_pos rfl, get?_create, hnone, hspec]
      rfl
  describe {fleet fleet' servers names described} hs h := by
    obtain ⟨c, c', hc, hreply, rfl⟩ := ask_eq h
    obtain ⟨hnames, rfl⟩ := reply_ok hreply
    obtain rfl := Except.ok.inj hnames
    obtain ⟨hundescribed, hdistinct⟩ := hs _ _ hc
    refine ⟨sound_insert_self hs hc, view_insert_self hc, fun topic htopic t ht => ?_⟩
    simp only [view, hc, Option.bind_some] at ht
    obtain ⟨u, hu, rfl⟩ := Option.map_eq_some_iff.1 ht
    refine ⟨u.settings, ?_, ClusterTopic.describedBy (hdistinct topic u hu)⟩
    rw [Cluster.describe, SortedMap.get?_map, SortedMap.get?_filter, hu]
    simp [Option.filter, htopic, hundescribed]
  revise {fleet fleet' servers settings} hs h := by
    obtain ⟨c, c', hc, rfl, hreply | hreply⟩ := revise_eq h
    · obtain ⟨-, rfl⟩ := reply_ok hreply
      exact changed hs hc ClusterTopic.revise settings fun t wanted ht =>
        ⟨(ClusterTopic.revise_spec ht wanted).1, rfl, rfl, (ClusterTopic.revise_spec ht wanted).2⟩
    · obtain ⟨hresult, -⟩ := reply_ok hreply
      simp at hresult
  refused {fleet fleet' servers settings operation} hs h := by
    obtain ⟨c, c', hc, rfl, hreply⟩ := revise_eq h
    have hsame : c' = c := by
      rcases hreply with hreply | hreply
      · rcases reply_error hreply with hsame | ⟨hresult, -⟩
        · exact hsame
        · simp at hresult
      · rcases reply_error hreply with hsame | ⟨-, hsame⟩ <;> exact hsame
    subst hsame
    exact ⟨sound_insert_self hs hc, view_insert_self hc⟩
  replace {fleet fleet' servers settings} hs h := by
    obtain ⟨c, c', hc, hreply, rfl⟩ := ask_eq h
    obtain ⟨-, rfl⟩ := reply_ok hreply
    exact changed hs hc ClusterTopic.replace settings fun t wanted _ =>
      ⟨(ClusterTopic.replace_spec t wanted).1, rfl, rfl, (ClusterTopic.replace_spec t wanted).2⟩

theorem marksExactly : Fleet.admin.MarksExactly Sound view := by
  intro fleet fleet' servers names described hs h topic htopic t settings ht hsettings
  obtain ⟨c, c', hc, hreply, rfl⟩ := ask_eq h
  obtain ⟨hnames, rfl⟩ := reply_ok hreply
  obtain rfl := Except.ok.inj hnames
  obtain ⟨-, hdistinct⟩ := hs _ _ hc
  simp only [view, hc, Option.bind_some] at ht
  obtain ⟨u, hu, rfl⟩ := Option.map_eq_some_iff.1 ht
  rw [Cluster.describe, SortedMap.get?_map, SortedMap.get?_filter, hu] at hsettings
  obtain ⟨u', hu', rfl⟩ := Option.map_eq_some_iff.1 hsettings
  obtain ⟨heq, -⟩ := Option.filter_eq_some_iff.1 hu'
  obtain rfl := Option.some.inj heq
  exact ClusterTopic.markedBy (hdistinct topic u hu)

end Fleet

end Relay
