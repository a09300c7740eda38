import Mathlib.Data.Finset.Card
import Mathlib.Data.List.Nodup
import Relay.Proofs.Fates

/-!
# Ledgers of sets of reports

Reports come to a ledger in the order in which work completes, and a place may be reported more than once. The ledger
keeps nothing of that: one report that gives a place up decides for it, whenever it comes, and otherwise one report is
as good as many. So a ledger stands for the set of its reports.
-/

namespace Relay.Ledger

variable {reports reports' : List (Coordinates × Status)} {c : Coordinates}

/-! ## Statuses -/

theorem ofReports_concat (reports : List (Coordinates × Status)) (r : Coordinates × Status) :
    ofReports (reports ++ [r]) = (ofReports reports).report r.1 r.2 := by
  rw [ofReports, List.foldl_append]
  rfl

theorem status_eq_none_iff : (ofReports reports).status c = none ↔ ∀ s, (c, s) ∉ reports := by
  induction reports using List.reverseRecOn with
  | nil => simp [ofReports]
  | append_singleton reports r ih =>
    obtain ⟨c', s'⟩ := r
    rw [ofReports_concat, status_report]
    by_cases hc : c = c'
    · subst hc
      simp only [if_true, reduceCtorEq, false_iff, not_forall, not_not]
      exact ⟨s', by simp⟩
    · simp [hc, ih]

/-- One report that gives a place up decides for it. -/
theorem status_eq_abandoned_iff : (ofReports reports).status c = some .abandoned ↔ (c, .abandoned) ∈ reports := by
  induction reports using List.reverseRecOn with
  | nil => simp [ofReports]
  | append_singleton reports r ih =>
    obtain ⟨c', s'⟩ := r
    rw [ofReports_concat, status_report, List.mem_append, List.mem_singleton, ← ih]
    by_cases hc : c = c'
    · subst hc
      cases hs : (ofReports reports).status c with
      | none => cases s' <;> simp
      | some s => cases s <;> cases s' <;> simp [Status.revise]
    · simp [hc]

theorem status_eq_settled_iff :
    (ofReports reports).status c = some .settled ↔ (c, .settled) ∈ reports ∧ (c, .abandoned) ∉ reports := by
  have hnone : (ofReports reports).status c = none ↔ ∀ s, (c, s) ∉ reports := status_eq_none_iff
  have habandoned : (ofReports reports).status c = some .abandoned ↔ (c, .abandoned) ∈ reports :=
    status_eq_abandoned_iff
  constructor
  · intro hs
    have hnot : (c, Status.abandoned) ∉ reports := fun hm => by simp [habandoned.2 hm] at hs
    refine ⟨?_, hnot⟩
    by_contra hsettled
    have hn := hnone.2 fun s => by
      cases s with
      | settled => exact hsettled
      | abandoned => exact hnot
    simp [hn] at hs
  · rintro ⟨hm, hnot⟩
    cases hs : (ofReports reports).status c with
    | none => exact absurd hm (hnone.1 hs .settled)
    | some s =>
      cases s with
      | settled => rfl
      | abandoned => exact absurd (habandoned.1 hs) hnot

/-! ## The whole ledger -/

theorem dense_ofReports (reports : List (Coordinates × Status)) : (ofReports reports).Dense :=
  ofReports_induction reports dense_empty fun _ r _ hl => hl.report r.1 r.2

/-- Ledgers of the same reports are equal, whatever the order of the reports and however often each of them comes. -/
theorem ofReports_congr (h : ∀ r, r ∈ reports' ↔ r ∈ reports) : ofReports reports' = ofReports reports := by
  refine (dense_ofReports reports').ext (dense_ofReports reports) fun c => ?_
  cases hs : (ofReports reports).status c with
  | none =>
    rw [status_eq_none_iff] at hs ⊢
    exact fun s hm => hs s ((h _).1 hm)
  | some s =>
    cases s with
    | settled => rwa [status_eq_settled_iff, h, h, ← status_eq_settled_iff]
    | abandoned => rwa [status_eq_abandoned_iff, h, ← status_eq_abandoned_iff]

/-! ## Counting what was given up -/

/-- The places that a ledger lists as given up. -/
def abandonedPlaces (l : Ledger) : List Coordinates :=
  l.partitions.entries.flatMap fun e => (e.2.entries.filter (·.2 = .abandoned)).map fun x => ⟨e.1, x.1⟩

theorem length_abandonedPlaces (l : Ledger) : l.abandonedPlaces.length = l.abandonedCount := by
  have hcount : ∀ m : SortedMap Int Status,
      (m.entries.filter (·.2 = .abandoned)).length = m.values.count .abandoned := by
    intro m
    rw [SortedMap.values, List.count_eq_countP, List.countP_map, List.countP_eq_length_filter]
    rfl
  simp only [abandonedPlaces, abandonedCount, List.length_flatMap, List.length_map, hcount, SortedMap.values,
    List.map_map, List.sum_eq_foldr]
  rfl

theorem mem_abandonedPlaces {l : Ledger} : c ∈ l.abandonedPlaces ↔ l.status c = some .abandoned := by
  obtain ⟨p, o⟩ := c
  simp only [abandonedPlaces, List.mem_flatMap, List.mem_map, List.mem_filter, decide_eq_true_eq, Coordinates.mk.injEq,
    status, offsets]
  constructor
  · rintro ⟨⟨q, m⟩, hm, ⟨o', s⟩, ⟨ho, rfl⟩, rfl, rfl⟩
    rw [(SortedMap.get?_eq_some_iff _).2 hm]
    exact (SortedMap.get?_eq_some_iff m).2 ho
  · intro hs
    cases hm : l.partitions.get? p with
    | none => simp [hm] at hs
    | some m =>
      rw [hm] at hs
      exact ⟨(p, m), (SortedMap.get?_eq_some_iff _).1 hm, (o, .abandoned), ⟨(SortedMap.get?_eq_some_iff m).1 hs, rfl⟩,
        rfl, rfl⟩

theorem nodup_abandonedPlaces (l : Ledger) : l.abandonedPlaces.Nodup := by
  refine List.nodup_flatMap.2 ⟨fun e _ => ?_, l.partitions.sorted.imp fun {e e'} hlt => ?_⟩
  · have hkeys : ((e.2.entries.filter (·.2 = .abandoned)).map (·.1)).Nodup :=
      e.2.nodup_keys.sublist (List.filter_sublist.map _)
    refine List.Nodup.of_map Coordinates.offset ?_
    rwa [List.map_map]
  · intro c hc hc'
    obtain ⟨x, -, rfl⟩ := List.mem_map.1 hc
    obtain ⟨x', -, heq⟩ := List.mem_map.1 hc'
    have hp : e'.1 = e.1 := congrArg Coordinates.partition heq
    rw [hp] at hlt
    simp at hlt

/-- As many places are given up as different reports give one up. -/
theorem abandonedCount_ofReports (reports : List (Coordinates × Status)) :
    (ofReports reports).abandonedCount = (reports.filter (·.2 = .abandoned)).toFinset.card := by
  rw [← length_abandonedPlaces, ← List.toFinset_card_of_nodup (nodup_abandonedPlaces _)]
  refine Finset.card_bij (fun c _ => (c, .abandoned)) (fun c hc => ?_) (fun c _ c' _ h => congrArg Prod.fst h) ?_
  · rw [List.mem_toFinset, mem_abandonedPlaces, status_eq_abandoned_iff] at hc
    simpa using hc
  · rintro ⟨c, s⟩ hr
    obtain ⟨hr, rfl⟩ : (c, s) ∈ reports ∧ s = .abandoned := by simpa using hr
    exact ⟨c, by rwa [List.mem_toFinset, mem_abandonedPlaces, status_eq_abandoned_iff], rfl⟩

/-- A ledger stands for the set of its reports. A place is abandoned if one of them gives it up, settled if there are
reports of it and all of them settle it, and not listed if there is none. Reports in another order, or repeated, make
the same ledger, of which all readings are the same; the number of what was given up counts each place once. -/
theorem determined_by_reports (reports : List (Coordinates × Status)) :
    (∀ c, (ofReports reports).status c = some .abandoned ↔ (c, .abandoned) ∈ reports) ∧
    (∀ c, (ofReports reports).status c = some .settled ↔ (c, .settled) ∈ reports ∧ (c, .abandoned) ∉ reports) ∧
    (∀ c, (ofReports reports).status c = none ↔ ∀ s, (c, s) ∉ reports) ∧
    (ofReports reports).abandonedCount = (reports.filter (·.2 = .abandoned)).toFinset.card ∧
    ∀ reports', (∀ r, r ∈ reports' ↔ r ∈ reports) →
      ofReports reports' = ofReports reports ∧
      (ofReports reports').abandonedCount = (ofReports reports).abandonedCount ∧
      (ofReports reports').ends = (ofReports reports).ends ∧
      (ofReports reports').settledRuns = (ofReports reports).settledRuns ∧
      ∀ committed, (ofReports reports').redelivery committed = (ofReports reports).redelivery committed := by
  refine ⟨fun _ => status_eq_abandoned_iff, fun _ => status_eq_settled_iff, fun _ => status_eq_none_iff,
    abandonedCount_ofReports reports, fun reports' h => ?_⟩
  have heq := ofReports_congr h
  exact ⟨heq, congrArg abandonedCount heq, congrArg ends heq, congrArg settledRuns heq,
    fun committed => congrArg (redelivery · committed) heq⟩

/-- Offset 3 is given up and settled, offset 4 settled; then the same comes in another order, with a report repeated. -/
theorem determined_repeated :
    let p : Partition := ⟨"events", 0⟩
    let reports : List (Coordinates × Status) :=
      [(⟨p, 3⟩, .abandoned), (⟨p, 3⟩, .settled), (⟨p, 4⟩, .settled)]
    let reports' : List (Coordinates × Status) :=
      [(⟨p, 4⟩, .settled), (⟨p, 3⟩, .settled), (⟨p, 4⟩, .settled), (⟨p, 3⟩, .abandoned)]
    (∀ r, r ∈ reports' ↔ r ∈ reports) ∧ ofReports reports' = ofReports reports ∧
      (ofReports reports').status ⟨p, 3⟩ = some .abandoned ∧ (ofReports reports').abandonedCount = 1 ∧
      (ofReports reports').ends = .ofList [(p, 5)] := by
  intro p reports reports'
  have hsame : ∀ r, r ∈ reports' ↔ r ∈ reports := by
    intro r
    simp only [reports, reports', List.mem_cons, List.not_mem_nil, or_false]
    tauto
  obtain ⟨habandoned, -, -, hcount, hreports⟩ := determined_by_reports reports
  obtain ⟨heq, hcounts, hends, -⟩ := hreports reports' hsame
  refine ⟨hsame, heq, ?_, ?_, ?_⟩
  · rw [heq, habandoned]
    exact List.mem_cons_self
  · rw [hcounts, hcount]
    decide
  · rw [hends]
    decide

end Relay.Ledger
