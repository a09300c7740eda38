import Relay.Proofs.SettledRun

/-!
# Commit and rewind

What the strict service level commits of a batch and what it rewinds to are complements: of each partition
the one ends where the other begins. Offsets are signed words of 64 bits, and no sum on the way to either
leaves that range.
-/

namespace Relay.Ledger

/-! ## Sums of words -/

/-- Whether an offset is a signed word of 64 bits. -/
def IsWord (o : Int) : Prop := -9223372036854775808 ≤ o ∧ o ≤ 9223372036854775807

instance (o : Int) : Decidable (IsWord o) := inferInstanceAs (Decidable (_ ∧ _))

/-- The offset after another one, if it is a word. -/
def successor? (o : Int) : Option Int := if IsWord (o + 1) then some (o + 1) else none

/-- `runAfter`, where every sum has to be a word. -/
def checkedRunAfter (last : Int) : List (Int × Status) → Option Int
  | [] => some last
  | (offset, status) :: rest =>
    if status = .settled then
      match successor? last with
      | none => none
      | some next => if offset = next then checkedRunAfter offset rest else some last
    else some last

/-- The offset after the settled run, where every sum has to be a word. -/
def checkedRunEnd : List (Int × Status) → Option (Option Int)
  | [] => some none
  | (offset, status) :: rest =>
    if status = .settled then ((checkedRunAfter offset rest).bind successor?).map some else some none

/-- The offset after the last one, which has to be a word. -/
def checkedEnd (l : List (Int × Status)) : Option (Option Int) :=
  match (l.map (·.1)).getLast? with
  | none => some none
  | some last => (successor? last).map some

/-- The offsets that a reading finds for each partition, if no reading fails. -/
def collect (reading : List (Int × Status) → Option (Option Int)) :
    List (Partition × SortedMap Int Status) → Option (List (Partition × Int))
  | [] => some []
  | (p, offsets) :: rest =>
    match reading offsets.entries, collect reading rest with
    | some found, some more => some ((found.map fun o => (p, o)).toList ++ more)
    | _, _ => none

/-- Every offset of a ledger is a word and has a word after it. -/
def Bounded (l : Ledger) : Prop :=
  ∀ p m, (p, m) ∈ l.partitions.entries → ∀ e ∈ m.entries, IsWord e.1 ∧ IsWord (e.1 + 1)

theorem successor?_eq {o : Int} (h : IsWord (o + 1)) : successor? o = some (o + 1) := by
  simp [successor?, h]

theorem checkedRunAfter_eq {last : Int} {l : List (Int × Status)} (hlast : IsWord (last + 1))
    (h : ∀ e ∈ l, IsWord (e.1 + 1)) :
    checkedRunAfter last l = some (runAfter last l) ∧ IsWord (runAfter last l + 1) := by
  induction l generalizing last with
  | nil => exact ⟨rfl, hlast⟩
  | cons e rest ih =>
    obtain ⟨offset, status⟩ := e
    have hoffset : IsWord (offset + 1) := h _ List.mem_cons_self
    have hih := ih hoffset fun e he => h e (List.mem_cons_of_mem _ he)
    simp only [checkedRunAfter, runAfter, successor?_eq hlast]
    by_cases hs : status = .settled
    · by_cases ho : offset = last + 1
      · simpa [hs, ho] using ho ▸ hih
      · simpa [hs, ho] using hlast
    · simpa [hs] using hlast

theorem checkedRunEnd_eq {l : List (Int × Status)} (h : ∀ e ∈ l, IsWord (e.1 + 1)) :
    checkedRunEnd l = some ((run? l).map (· + 1)) := by
  cases l with
  | nil => rfl
  | cons e rest =>
    obtain ⟨offset, status⟩ := e
    by_cases hs : status = .settled
    · obtain ⟨h1, h2⟩ := checkedRunAfter_eq (h _ List.mem_cons_self)
        fun e he => h e (List.mem_cons_of_mem _ he)
      simp only [checkedRunEnd, run?, hs, if_true]
      rw [h1, Option.bind_some, successor?_eq h2]
      rfl
    · simp [checkedRunEnd, run?, hs]

theorem checkedEnd_eq {l : List (Int × Status)} (h : ∀ e ∈ l, IsWord (e.1 + 1)) :
    checkedEnd l = some ((l.map (·.1)).getLast?.map (· + 1)) := by
  unfold checkedEnd
  cases hl : (l.map (·.1)).getLast? with
  | none => rfl
  | some last =>
    obtain ⟨e, he, rfl⟩ := List.mem_map.1 (List.mem_of_getLast? hl)
    simp only [successor?_eq (h e he)]
    rfl

theorem collect_eq {reading : List (Int × Status) → Option (Option Int)}
    (found : List (Int × Status) → Option Int) {l : List (Partition × SortedMap Int Status)}
    (h : ∀ e ∈ l, reading e.2.entries = some (found e.2.entries)) :
    collect reading l = some (l.filterMap fun e => (found e.2.entries).map fun o => (e.1, o)) := by
  induction l with
  | nil => rfl
  | cons e rest ih =>
    obtain ⟨p, m⟩ := e
    have hm : reading m.entries = some (found m.entries) := h _ List.mem_cons_self
    have hrest := ih fun e he => h e (List.mem_cons_of_mem _ he)
    simp only [collect, hm, hrest]
    cases hf : found m.entries <;> simp [hf]

/-! ## Ledgers of reports -/

theorem exists_status_of_get? (reports : List (Coordinates × Status)) {p : Partition}
    {m : SortedMap Int Status} (h : (ofReports reports).partitions.get? p = some m) :
    ∃ o, (ofReports reports).status ⟨p, o⟩ ≠ none := by
  refine ofReports_induction (P := fun l => ∀ p m, l.partitions.get? p = some m →
    ∃ o, l.status ⟨p, o⟩ ≠ none) reports ?_ ?_ p m h
  · intro p m hm
    cases hm
  · intro l r _ ih p m hm
    by_cases hp : p = r.1.partition
    · subst hp
      refine ⟨r.1.offset, ?_⟩
      rw [status_report, if_pos rfl]
      simp
    · have hc : compare p r.1.partition ≠ .eq := fun e => hp (Std.LawfulEqCmp.eq_of_compare e)
      obtain ⟨o, ho⟩ := ih p m (by simpa [report, hc] using hm)
      refine ⟨o, ?_⟩
      rwa [status_report, if_neg fun e => hp (congrArg Coordinates.partition e)]

theorem bounded_ofReports {reports : List (Coordinates × Status)}
    (h : ∀ r ∈ reports, IsWord r.1.offset ∧ IsWord (r.1.offset + 1)) : (ofReports reports).Bounded := by
  have hstatus : ∀ c, (ofReports reports).status c ≠ none → IsWord c.offset ∧ IsWord (c.offset + 1) := by
    refine ofReports_induction (P := fun l => ∀ c, l.status c ≠ none →
      IsWord c.offset ∧ IsWord (c.offset + 1)) reports (fun c hc => absurd rfl hc) ?_
    intro l r hr ih c hc
    by_cases he : c = r.1
    · exact he ▸ h r hr
    · rw [status_report, if_neg he] at hc
      exact ih c hc
  intro p m hm e he
  refine hstatus ⟨p, e.1⟩ ?_
  have hp := (SortedMap.get?_eq_some_iff _).2 hm
  have ho : m.get? e.1 = some e.2 := (SortedMap.get?_eq_some_iff m).2 he
  simp [status, offsets, hp, ho]

/-! ## Complements -/

/-- The commit of a ledger at the strict service level, and the rewind after it, are complements. -/
structure Complementary (l : Ledger) : Prop where
  /-- The partitions of the ledger are those that reach from one offset to another. -/
  spans : ∀ p, l.partitions.contains p = true ↔ ∃ first last next, l.Spans p first last next
  /-- Of each of them, what is settled without a gap is committed. -/
  commit : ∀ p first last next, l.Spans p first last next →
    (ServiceLevel.strict.acknowledge l).offsets.get? p = if first < next then some next else none
  /-- The rewind goes to the first offset that is not settled. -/
  rewind : ∀ p first last next, l.Spans p first last next →
    (l.redelivery (ServiceLevel.strict.acknowledge l).offsets).get? p =
      if next ≤ last then some next else none
  /-- No other partition is committed or rewound. -/
  outside : ∀ p, l.partitions.contains p = false →
    (ServiceLevel.strict.acknowledge l).offsets.get? p = none ∧
      (l.redelivery (ServiceLevel.strict.acknowledge l).offsets).get? p = none
  /-- The commit does not reach beyond the batch. -/
  within : ∀ p first last next, l.Spans p first last next →
    l.ends.get? p = some (last + 1) ∧ next ≤ last + 1
  /-- It reaches the end of the batch if and only if nothing is missing or abandoned. -/
  whole : ∀ p first last next, l.Spans p first last next →
    (next = last + 1 ↔ ∀ o, first ≤ o → o ≤ last → l.status ⟨p, o⟩ = some .settled)
  /-- The other service levels commit the end of the batch. -/
  others : ServiceLevel.force.acknowledge l = .batch l.ends ∧
    ServiceLevel.atMostOnce.acknowledge l = .batch l.ends
  /-- The commit comes out the same where every sum has to be a word. -/
  commit_checked : collect checkedRunEnd l.partitions.entries =
    some (ServiceLevel.strict.acknowledge l).offsets.entries
  /-- The end of the batch comes out the same where every sum has to be a word. -/
  ends_checked : collect checkedEnd l.partitions.entries = some l.ends.entries

/-- Commit and rewind are complements for every list of reports. -/
theorem complementary_ofReports (reports : List (Coordinates × Status))
    (h : ∀ r ∈ reports, -9223372036854775808 ≤ r.1.offset ∧ r.1.offset < 9223372036854775807) :
    (ofReports reports).Complementary := by
  have hbounded : (ofReports reports).Bounded := bounded_ofReports fun r hr => by
    obtain ⟨h1, h2⟩ := h r hr
    exact ⟨⟨h1, by omega⟩, by omega, by omega⟩
  have hnone : ∀ p, (ofReports reports).partitions.contains p = false →
      ∀ o, (ofReports reports).status ⟨p, o⟩ = none := by
    intro p hp o
    have hp : (ofReports reports).partitions.get? p = none := by simpa [SortedMap.contains] using hp
    simp only [status, offsets, hp]
    rfl
  refine
    { spans := fun p => ⟨fun hp => ?_, ?_⟩
      commit := fun p first last next hs => hs.get?_commit
      rewind := fun p first last next hs => hs.get?_redelivery_commit
      outside := fun p hp => ?_
      within := fun p first last next hs => ⟨hs.get?_ends, hs.next_le⟩
      whole := fun p first last next hs => hs.next_eq_iff
      others := ⟨rfl, rfl⟩
      commit_checked := ?_
      ends_checked := ?_ }
  · -- spans
    obtain ⟨m, hm⟩ := Option.isSome_iff_exists.1 hp
    obtain ⟨o, ho⟩ := exists_status_of_get? reports hm
    exact exists_spans ho
  · rintro ⟨first, last, next, hs⟩
    by_contra hp
    exact hs.lowest.1 (hnone p (by simpa using hp) first)
  · -- outside
    obtain ⟨h1, h2, -⟩ := get?_of_status_eq_none (hnone p hp)
      (ServiceLevel.strict.acknowledge (ofReports reports)).offsets
    exact ⟨h1, h2⟩
  · -- commit_checked
    rw [collect_eq (fun l => (run? l).map (· + 1)) fun e he =>
      checkedRunEnd_eq fun x hx => (hbounded e.1 e.2 he x hx).2]
    simp only [ServiceLevel.acknowledge, Acknowledgement.offsets, SortedMap.map, settledRuns,
      SortedMap.filterMap, List.map_filterMap, Option.map_map]
    rfl
  · -- ends_checked
    rw [collect_eq (fun l => (l.map (·.1)).getLast?.map (· + 1)) fun e he =>
      checkedEnd_eq fun x hx => (hbounded e.1 e.2 he x hx).2]
    rfl

/-- A batch with a gap, an abandoned record and negative offsets. -/
theorem complementary_gap :
    let p : Partition := ⟨"events", 0⟩
    let q : Partition := ⟨"events", 1⟩
    let reports : List (Coordinates × Status) :=
      [(⟨p, -2⟩, .settled), (⟨p, -1⟩, .settled), (⟨p, 1⟩, .settled), (⟨q, 7⟩, .settled),
        (⟨q, 7⟩, .abandoned), (⟨q, 7⟩, .settled)]
    (∀ r ∈ reports, -9223372036854775808 ≤ r.1.offset ∧ r.1.offset < 9223372036854775807) ∧
      (ofReports reports).Complementary :=
  ⟨by decide, complementary_ofReports _ (by decide)⟩

end Relay.Ledger
