import Relay.Topics.Fleet
import Relay.Topics.Provision

/-!
# Pipelines with a fault

A subscriber without a policy, or of a tenant whose cluster is not known, is a fault of its pipeline. The first
fault of a pipeline ends its provisioning before anything is asked of any cluster, as the topics of all its
subscribers are gathered first (`provision_of_fault`). The only trace it leaves is a counter, and nothing that
provisioning does depends on a counter (`provision_uncounted`). So the other pipelines are provisioned as if the
pipeline were not there.
-/

namespace Relay

/-- What keeps the topic of a subscriber from having a place, if anything does. -/
def Subscriber.fault? (registry : Registry) (pipeline : String) (x : Subscriber) : Option ConfigError :=
  match x.rule.policies with
  | [] => some (.missingTenant x.id)
  | first :: _ =>
    if (registry.source? pipeline first.tenant).isNone then some (.missingTenantSource pipeline first.tenant)
    else none

/-- Provisioning without its counters. -/
def Provisioning.uncounted {σ : Type} (s : Provisioning σ) : Provisioning σ := { s with counts := [] }

namespace Provisioner

variable {σ : Type} {a : Admin σ} {p : Provisioner} {registry : Registry} {pipeline servers : String}
  {subscribers : List Subscriber} {s t : Provisioning σ}

/-! ## The first fault -/

theorem source_eq_error_iff {x : Subscriber} {cause : ConfigError} :
    source registry pipeline x = .error cause ↔ x.fault? registry pipeline = some cause := by
  unfold source Subscriber.tenant Subscriber.fault?
  cases x.rule.policies with
  | nil => simp
  | cons first rest => cases hsource : registry.source? pipeline first.tenant <;> simp [hsource]

theorem placeAll_eq_error_iff {cause : ConfigError} (d : Desired) :
    p.placeAll registry pipeline subscribers d = .error cause ↔
      subscribers.findSome? (·.fault? registry pipeline) = some cause := by
  induction subscribers generalizing d with
  | nil => simp [placeAll]
  | cons x rest ih =>
    rw [placeAll, List.findSome?_cons]
    cases hsource : source registry pipeline x with
    | error e => rw [source_eq_error_iff.1 hsource, Except.error.injEq, Option.some.injEq]
    | ok source =>
      have hnone : x.fault? registry pipeline = none := by
        refine Option.eq_none_iff_forall_ne_some.2 fun e he => ?_
        rw [source_eq_error_iff.2 he] at hsource
        cases hsource
      rw [hnone]
      exact ih _

/-- The first fault of a pipeline is the result of provisioning it, and nothing is asked of any cluster. -/
theorem provision_of_fault {cause : ConfigError}
    (h : subscribers.findSome? (·.fault? registry pipeline) = some cause) (s : Provisioning σ) :
    provision a p registry pipeline subscribers s = (.error (.config cause), s) := by
  have hdesired : p.desired registry pipeline subscribers = .error cause := (placeAll_eq_error_iff .empty).2 h
  rw [provision, hdesired]

/-! ## Counters are only written -/

/-- A result, with what comes after it freed from its counters. -/
def bare {α : Type} (run : α × Provisioning σ) : α × Provisioning σ := (run.1, run.2.uncounted)

theorem connect_uncounted (source : Source) :
    connect a source s.uncounted = bare (connect a source s) := by
  have hconnected : s.uncounted.connected = s.connected := rfl
  have hclusters : s.uncounted.clusters = s.clusters := rfl
  unfold connect
  rw [hconnected, hclusters]
  by_cases hknown : s.connected.contains source.servers = true
  · rw [if_pos hknown, if_pos hknown]
    rfl
  · rw [if_neg hknown, if_neg hknown]
    rcases a.connect source s.clusters with ⟨result, clusters⟩
    cases result <;> rfl

theorem list_uncounted : list a p servers s.uncounted = bare (list a p servers s) := rfl

theorem create_uncounted (topics : SortedMap String TopicSpec) :
    create a p servers topics s.uncounted = bare (create a p servers topics s) := by
  unfold create
  split <;> rfl

theorem describe_uncounted (topics : List String) :
    describe a p servers topics s.uncounted = bare (describe a p servers topics s) := rfl

theorem revise_uncounted (settings : SortedMap String Overrides) :
    revise a p servers settings s.uncounted = bare (revise a p servers settings s) := rfl

theorem replace_uncounted (settings : SortedMap String Overrides) :
    replace a p servers settings s.uncounted = bare (replace a p servers settings s) := rfl

theorem alter_uncounted (settings : SortedMap String Overrides)
    (described : SortedMap String (List TopicSetting)) :
    alter a p servers settings described s.uncounted = bare (alter a p servers settings described s) := by
  unfold alter
  split
  · rfl
  · rw [revise_uncounted]
    rcases revise a p servers settings s with ⟨result, s₁⟩
    rcases result with e | _
    · cases e with
      | unsupported => exact replace_uncounted _
      | timedOut | broker | resource | config => rfl
    · rfl

theorem converge_uncounted (topics : SortedMap String TopicSpec) (report : ProvisionReport) :
    converge a p servers topics report s.uncounted = bare (converge a p servers topics report s) := by
  unfold converge
  split
  · rfl
  · rw [describe_uncounted]
    rcases describe a p servers topics.keys s with ⟨result, s₁⟩
    cases result with
    | error e => rfl
    | ok described =>
      simp only [bare, alter_uncounted]
      rcases alter a p servers _ described s₁ with ⟨result, s₂⟩
      cases result <;> rfl

theorem provisionOn_uncounted (topics : SortedMap String TopicSpec) (report : ProvisionReport) :
    provisionOn a p servers topics report s.uncounted = bare (provisionOn a p servers topics report s) := by
  unfold provisionOn
  split
  · rfl
  · rw [list_uncounted]
    rcases list a p servers s with ⟨result, s₁⟩
    cases result with
    | error e => rfl
    | ok existing =>
      simp only [bare, create_uncounted]
      rcases create a p servers _ s₁ with ⟨result, s₂⟩
      cases result with
      | error e => rfl
      | ok => exact converge_uncounted _ _

theorem provisionShares_uncounted (shares : List Share) (report : ProvisionReport) (s : Provisioning σ) :
    provisionShares a p shares report s.uncounted = bare (provisionShares a p shares report s) := by
  induction shares generalizing report s with
  | nil => rfl
  | cons share rest ih =>
    simp only [provisionShares, connect_uncounted]
    rcases connect a share.source s with ⟨result, s₁⟩
    cases result with
    | error e => rfl
    | ok =>
      simp only [bare, provisionOn_uncounted]
      rcases provisionOn a p share.source.servers share.topics report s₁ with ⟨result, s₂⟩
      cases result with
      | error e => rfl
      | ok report => exact ih report s₂

theorem provision_uncounted (pipeline : String) (subscribers : List Subscriber) (s : Provisioning σ) :
    provision a p registry pipeline subscribers s.uncounted =
      bare (provision a p registry pipeline subscribers s) := by
  unfold provision
  split
  · rfl
  · exact provisionShares_uncounted _ _ s

theorem tally_uncounted (pipeline : String) (result : Except AdminError ProvisionReport) (s : Provisioning σ) :
    (tally pipeline result s).uncounted = s.uncounted := by
  cases result <;> rfl

/-- States that differ in counters alone lead to the same result, and to states that differ in counters alone. -/
theorem provision_congr (h : s.uncounted = t.uncounted) (pipeline : String) (subscribers : List Subscriber) :
    bare (provision a p registry pipeline subscribers s) = bare (provision a p registry pipeline subscribers t) := by
  rw [← provision_uncounted, h, provision_uncounted]

/-! ## All pipelines -/

theorem names_provisionEach (ps : List (String × List Subscriber)) (s : Provisioning σ) :
    (provisionEach a p registry ps s).1.map (·.1) = ps.map (·.1) := by
  induction ps generalizing s with
  | nil => rfl
  | cons e rest ih => exact congrArg (e.1 :: ·) (ih _)

theorem mem_provisionEach_of_fault {ps : List (String × List Subscriber)} {cause : ConfigError}
    (hmem : (pipeline, subscribers) ∈ ps)
    (h : subscribers.findSome? (·.fault? registry pipeline) = some cause) (s : Provisioning σ) :
    (pipeline, .error (.config cause)) ∈ (provisionEach a p registry ps s).1 := by
  induction ps generalizing s with
  | nil => simp at hmem
  | cons e rest ih =>
    rcases List.mem_cons.1 hmem with rfl | hmem
    · simp only [provisionEach, provision_of_fault h]
      exact List.mem_cons_self
    · exact List.mem_cons_of_mem _ (ih hmem _)

/-- Pipelines with a fault can be left out: what comes of the others stays the same, and so does everything but
the counters. -/
theorem provisionEach_without {ps : List (String × List Subscriber)} (keep : String → Bool)
    (hfault : ∀ e ∈ ps, keep e.1 = false → ∃ cause, e.2.findSome? (·.fault? registry e.1) = some cause)
    (hst : s.uncounted = t.uncounted) :
    (provisionEach a p registry ps s).1.filter (fun r => keep r.1) =
        (provisionEach a p registry (ps.filter fun e => keep e.1) t).1 ∧
      (provisionEach a p registry ps s).2.uncounted =
        (provisionEach a p registry (ps.filter fun e => keep e.1) t).2.uncounted := by
  induction ps generalizing s t with
  | nil => exact ⟨rfl, hst⟩
  | cons e rest ih =>
    have hrest := fun e' he' => hfault e' (List.mem_cons_of_mem _ he')
    cases hkeep : keep e.1 with
    | true =>
      have hrun : bare (provision a p registry e.1 e.2 s) = bare (provision a p registry e.1 e.2 t) :=
        provision_congr hst e.1 e.2
      rcases hs : provision a p registry e.1 e.2 s with ⟨result, s₁⟩
      rcases ht : provision a p registry e.1 e.2 t with ⟨result', t₁⟩
      rw [hs, ht] at hrun
      obtain ⟨rfl, hafter⟩ := Prod.mk.inj hrun
      have hnext : (tally e.1 result s₁).uncounted = (tally e.1 result t₁).uncounted := by
        rw [tally_uncounted, tally_uncounted]
        exact hafter
      obtain ⟨hresults, hend⟩ := ih hrest hnext
      simp only [provisionEach, List.filter_cons, hkeep, if_true, hs, ht, hresults]
      exact ⟨trivial, hend⟩
    | false =>
      -- nothing but a counter changes, and no result is left
      obtain ⟨cause, hcause⟩ := hfault e List.mem_cons_self hkeep
      have hnext : (tally e.1 (.error (.config cause)) s).uncounted = t.uncounted := by
        rw [tally_uncounted, hst]
      obtain ⟨hresults, hend⟩ := ih hrest hnext
      simp only [provisionEach, provision_of_fault hcause, List.filter_cons, hkeep]
      exact ⟨hresults, hend⟩

/-- There is one result for each pipeline, in their order. A pipeline with a fault fails with its first one,
whatever stands before, and nothing is asked of any cluster for it. The other pipelines have the results that
they have without it; the same is asked of the clusters, and these are left in the same state. -/
theorem faulty_pipeline_leaves_rest (a : Admin σ) (p : Provisioner) (registry : Registry)
    (pipelines : SortedMap String (List Subscriber)) (s : Provisioning σ) :
    let run := provisionAll a p registry pipelines s
    run.1.map (·.1) = pipelines.keys ∧
      ∀ pipeline subscribers cause, pipelines.get? pipeline = some subscribers →
        subscribers.findSome? (·.fault? registry pipeline) = some cause →
        let others := provisionAll a p registry (pipelines.erase pipeline) s
        (pipeline, .error (.config cause)) ∈ run.1 ∧
          (∀ s', provision a p registry pipeline subscribers s' = (.error (.config cause), s')) ∧
          run.1.filter (·.1 ≠ pipeline) = others.1 ∧ run.2.clusters = others.2.clusters ∧
          run.2.calls = others.2.calls ∧ run.2.connected = others.2.connected := by
  intro run
  refine ⟨names_provisionEach _ s, ?_⟩
  intro pipeline subscribers cause hget hcause others
  have hmem : (pipeline, subscribers) ∈ pipelines.entries := (SortedMap.get?_eq_some_iff _).1 hget
  let keep (name : String) : Bool := compare pipeline name != .eq
  have hkeep : ∀ name, keep name = decide (name ≠ pipeline) := by
    intro name
    rw [Bool.eq_iff_iff, decide_eq_true_iff, bne_iff_ne, ne_eq, Std.LawfulEqCmp.compare_eq_iff_eq]
    exact not_congr eq_comm
  -- the name of a pipeline stands for its subscribers
  have hfault : ∀ e ∈ pipelines.entries, keep e.1 = false →
      ∃ cause, e.2.findSome? (·.fault? registry e.1) = some cause := by
    intro e he hdropped
    rw [hkeep, decide_eq_false_iff_not, Decidable.not_not] at hdropped
    obtain ⟨name, subscribers'⟩ := e
    obtain rfl : name = pipeline := hdropped
    obtain rfl := Option.some.inj (hget.symm.trans ((SortedMap.get?_eq_some_iff _).2 he))
    exact ⟨cause, hcause⟩
  obtain ⟨hresults, hend⟩ := provisionEach_without (a := a) (p := p) (s := s) keep hfault rfl
  have hclusters := congrArg Provisioning.clusters hend
  have hcalls := congrArg Provisioning.calls hend
  have hconnected := congrArg Provisioning.connected hend
  refine ⟨mem_provisionEach_of_fault hmem hcause s, provision_of_fault hcause, ?_, hclusters, hcalls, hconnected⟩
  · have hsame : run.1.filter (·.1 ≠ pipeline) = run.1.filter fun r => keep r.1 :=
      List.filter_congr fun r _ => (hkeep r.1).symm
    rw [hsame]
    exact hresults

end Provisioner

/-! ### One of three pipelines has a fault -/

namespace Faulty

def subscriber (id tenant : String) : Subscriber := ⟨id, ⟨false, .all, [⟨tenant, none, []⟩]⟩, .standard⟩

/-- In the second pipeline the second subscriber has no policy; the third one is of an unknown tenant. -/
def pipelines : SortedMap String (List Subscriber) :=
  .ofList [
    ("b1", [subscriber "x" "t"]),
    ("b2", [subscriber "x" "t", ⟨"y", .standard, .standard⟩, subscriber "z" "u"]),
    ("b3", [subscriber "x" "t"])]

def registry : Registry :=
  let pipeline : Pipeline := ⟨[], .ofList [("t", ⟨"c"⟩)]⟩
  ⟨.ofList [("b1", pipeline), ("b2", pipeline), ("b3", pipeline)]⟩

def provisioner : Provisioner := ⟨"topic-", 10, 2, default⟩

def fleet : Fleet := .ofList [("c", ⟨true, .empty, [], []⟩)]

theorem leaves_two_pipelines :
    let run := provisioner.provisionAll Fleet.admin registry pipelines (.start fleet)
    let others := provisioner.provisionAll Fleet.admin registry (pipelines.erase "b2") (.start fleet)
    ("b2", .error (.config (.missingTenant "y"))) ∈ run.1 ∧
      others.1 = [("b1", .ok ⟨["topic-b1x"], [], []⟩), ("b3", .ok ⟨["topic-b3x"], [], []⟩)] ∧
      run.1.filter (·.1 ≠ "b2") = others.1 ∧ run.2.clusters = others.2.clusters ∧
      run.2.calls = others.2.calls := by
  intro run others
  have hget : pipelines.get? "b2" =
      some [subscriber "x" "t", ⟨"y", .standard, .standard⟩, subscriber "z" "u"] := rfl
  have hcause : [subscriber "x" "t", ⟨"y", .standard, .standard⟩, subscriber "z" "u"].findSome?
      (·.fault? registry "b2") = some (.missingTenant "y") := by decide +kernel
  have hothers : others.1 = [("b1", .ok ⟨["topic-b1x"], [], []⟩), ("b3", .ok ⟨["topic-b3x"], [], []⟩)] := rfl
  obtain ⟨-, hrest⟩ :=
    Provisioner.faulty_pipeline_leaves_rest Fleet.admin provisioner registry pipelines (.start fleet)
  obtain ⟨hfailed, -, hresults, hclusters, hcalls, -⟩ := hrest "b2" _ _ hget hcause
  exact ⟨hfailed, hothers, hresults, hclusters, hcalls⟩

end Faulty

end Relay
