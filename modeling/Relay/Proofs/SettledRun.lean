import Mathlib.Data.Int.LeastGreatest
import Mathlib.Order.Bounds.Basic
import Relay.ServiceLevel

/-!
# The settled run of a ledger

A service level commits the settled run of each partition and rewinds to what lies behind it. Both
readings, and the end of the batch, are located here by three offsets of a partition: the lowest, the
highest, and the first from the lowest on that is not settled.
-/

namespace Relay

/-! ## Lowest and highest keys -/

section Keys

variable {m : SortedMap Int Status}

theorem SortedMap.isLeast_of_head? {first : Int} (h : m.keys.head? = some first) :
    IsLeast {o | m.get? o ≠ none} first := by
  obtain ⟨rest, hk⟩ : ∃ rest, m.keys = first :: rest := by
    cases hm : m.keys with
    | nil => simp [hm] at h
    | cons k rest => exact ⟨rest, by simpa [hm] using h⟩
  have hs : m.keys.Pairwise fun a b => compare a b = .lt := List.pairwise_map.2 m.sorted
  rw [hk, List.pairwise_cons] at hs
  refine ⟨(m.mem_keys_iff first).1 (by simp [hk]), fun o ho => ?_⟩
  have ho := (m.mem_keys_iff o).2 ho
  rw [hk] at ho
  rcases List.mem_cons.1 ho with rfl | ho
  · exact le_rfl
  · exact (Std.compare_eq_lt.1 (hs.1 o ho)).le

theorem SortedMap.isGreatest_of_getLast? {last : Int} (h : m.keys.getLast? = some last) :
    IsGreatest {o | m.get? o ≠ none} last := by
  obtain ⟨rest, hk⟩ := List.getLast?_eq_some_iff.1 h
  have hs : m.keys.Pairwise fun a b => compare a b = .lt := List.pairwise_map.2 m.sorted
  rw [hk, List.pairwise_append] at hs
  refine ⟨(m.mem_keys_iff last).1 (by simp [hk]), fun o ho => ?_⟩
  have ho := (m.mem_keys_iff o).2 ho
  rw [hk] at ho
  rcases List.mem_append.1 ho with ho | ho
  · exact (Std.compare_eq_lt.1 (hs.2.2 o ho last (by simp))).le
  · exact (List.mem_singleton.1 ho).le

end Keys

namespace Ledger

/-! ## The run -/

/-- A run that continues after `last` stops before the first offset that is not settled. -/
theorem isLeast_runAfter {last : Int} {l : List (Int × Status)}
    (hs : l.Pairwise fun a b => compare a.1 b.1 = .lt) (hl : ∀ e ∈ l, last < e.1) :
    IsLeast {o | last < o ∧ SortedMap.find? o l ≠ some .settled} (runAfter last l + 1) := by
  induction l generalizing last with
  | nil => exact ⟨⟨Int.lt_succ last, by simp [SortedMap.find?]⟩, fun o ho => ho.1⟩
  | cons e rest ih =>
    obtain ⟨offset, status⟩ := e
    obtain ⟨hfirst, hrest⟩ := List.pairwise_cons.1 hs
    have hlt : ∀ e ∈ rest, offset < e.1 := fun e he => Std.compare_eq_lt.1 (hfirst e he)
    have hlast : last < offset := hl _ List.mem_cons_self
    by_cases hc : status = .settled ∧ offset = last + 1
    · obtain ⟨rfl, rfl⟩ := hc
      obtain ⟨⟨h1, h2⟩, h3⟩ := ih hrest hlt
      have hrun : runAfter last ((last + 1, .settled) :: rest) = runAfter (last + 1) rest := by
        simp [runAfter]
      rw [hrun]
      refine ⟨⟨by omega, ?_⟩, fun o ho => ?_⟩
      · rwa [SortedMap.find?_cons_of_ne (by simp only; omega)]
      · obtain ⟨ho1, ho2⟩ := ho
        by_cases he : o = last + 1
        · simp [SortedMap.find?, he] at ho2
        · rw [SortedMap.find?_cons_of_ne he] at ho2
          exact h3 ⟨by omega, ho2⟩
    · have hrun : runAfter last ((offset, status) :: rest) = last := by simp [runAfter, hc]
      rw [hrun]
      refine ⟨⟨by omega, fun hf => ?_⟩, fun o ho => ho.1⟩
      have hm := SortedMap.mem_of_find?_eq_some hf
      rcases List.mem_cons.1 hm with he | hm
      · obtain ⟨rfl, rfl⟩ := Prod.mk.inj he
        exact hc ⟨rfl, rfl⟩
      · have := hlt _ hm
        simp only at this
        omega

/-- A partition of a ledger reaches from `first` to `last`, and `next` is its first offset, from `first`
on, that is not settled. -/
structure Spans (l : Ledger) (p : Partition) (first last next : Int) : Prop where
  /-- The lowest offset. -/
  lowest : IsLeast {o | l.status ⟨p, o⟩ ≠ none} first
  /-- The highest offset. -/
  highest : IsGreatest {o | l.status ⟨p, o⟩ ≠ none} last
  /-- The first offset that is not settled. -/
  unsettled : IsLeast {o | first ≤ o ∧ l.status ⟨p, o⟩ ≠ some .settled} next

/-- The run of a partition ends before the first offset that is not settled; there is no run if that is
the lowest offset. -/
theorem run?_offsets {l : Ledger} {p : Partition} {first last next : Int} (h : l.Spans p first last next) :
    (run? (l.offsets p).entries).map (· + 1) = if first < next then some next else none := by
  have hsorted := (l.offsets p).sorted
  have hstatus : ∀ o, l.status ⟨p, o⟩ = SortedMap.find? o (l.offsets p).entries := fun o => rfl
  have hfirst : l.status ⟨p, first⟩ ≠ none := h.lowest.1
  obtain ⟨⟨hle, hnext⟩, hleast⟩ := h.unsettled
  cases he : (l.offsets p).entries with
  | nil => simp [hstatus, he, SortedMap.find?] at hfirst
  | cons e rest =>
    obtain ⟨offset, status⟩ := e
    rw [he] at hsorted
    obtain ⟨hhead, hrest⟩ := List.pairwise_cons.1 hsorted
    have hlt : ∀ e ∈ rest, offset < e.1 := fun e he => Std.compare_eq_lt.1 (hhead e he)
    have hat : l.status ⟨p, offset⟩ = some status := by simp [hstatus, he, SortedMap.find?]
    have hoff : first = offset := by
      have h1 : first ≤ offset := h.lowest.2 (by simp [hat])
      obtain ⟨s, hs⟩ := Option.ne_none_iff_exists'.1 hfirst
      rw [hstatus, he] at hs
      rcases List.mem_cons.1 (SortedMap.mem_of_find?_eq_some hs) with hm | hm
      · exact congrArg Prod.fst hm
      · have := hlt _ hm
        simp only at this
        omega
    subst hoff
    cases status with
    | abandoned =>
      have : next ≤ first := hleast ⟨le_rfl, by simp [hat]⟩
      simp [run?, show ¬ first < next by omega]
    | settled =>
      obtain ⟨⟨h1, h2⟩, h3⟩ := isLeast_runAfter hrest hlt
      have hrun : next = runAfter first rest + 1 := by
        refine le_antisymm (hleast ⟨by omega, ?_⟩) (h3 ⟨?_, ?_⟩)
        · rwa [hstatus, he, SortedMap.find?_cons_of_ne (by simp only; omega)]
        · rcases eq_or_lt_of_le hle with e | e
          · exact absurd hat (e ▸ hnext)
          · exact e
        · intro hf
          have hne : next ≠ first := fun e => hnext (e ▸ hat)
          refine hnext ?_
          rwa [hstatus, he, SortedMap.find?_cons_of_ne hne]
      simp [run?, hrun, h1]

/-! ## The three readings -/

/-- A partition with an offset reaches from a lowest to a highest one. -/
theorem exists_spans {l : Ledger} {p : Partition} {o : Int} (h : l.status ⟨p, o⟩ ≠ none) :
    ∃ first last next, l.Spans p first last next := by
  have hk : o ∈ (l.offsets p).keys := ((l.offsets p).mem_keys_iff o).2 h
  obtain ⟨first, hfirst⟩ : ∃ first, (l.offsets p).keys.head? = some first := by
    cases hm : (l.offsets p).keys with
    | nil => simp [hm] at hk
    | cons k rest => exact ⟨k, rfl⟩
  obtain ⟨last, hlast⟩ : ∃ last, (l.offsets p).keys.getLast? = some last :=
    ⟨_, List.getLast?_eq_some_getLast (List.ne_nil_of_mem hk)⟩
  have hgreatest := SortedMap.isGreatest_of_getLast? hlast
  have hbeyond : l.status ⟨p, last + 1⟩ = none := by
    by_contra hn
    have : last + 1 ≤ last := hgreatest.2 hn
    omega
  have hle : first ≤ last := (SortedMap.isLeast_of_head? hfirst).2 hgreatest.1
  obtain ⟨next, hnext, hleast⟩ := Int.exists_least_of_bdd
    (P := fun o => first ≤ o ∧ l.status ⟨p, o⟩ ≠ some .settled) ⟨first, fun _ ho => ho.1⟩
    ⟨last + 1, by omega, by simp [hbeyond]⟩
  exact ⟨first, last, next, SortedMap.isLeast_of_head? hfirst, hgreatest, hnext, hleast⟩

namespace Spans

variable {l : Ledger} {p : Partition} {first last next : Int}

theorem head?_keys (h : l.Spans p first last next) : (l.offsets p).keys.head? = some first := by
  have hk : first ∈ (l.offsets p).keys := ((l.offsets p).mem_keys_iff first).2 h.lowest.1
  cases hm : (l.offsets p).keys with
  | nil => simp [hm] at hk
  | cons k rest =>
    have : IsLeast {o | (l.offsets p).get? o ≠ none} k := SortedMap.isLeast_of_head? (by simp [hm])
    rw [h.lowest.unique this]
    rfl

theorem getLast?_keys (h : l.Spans p first last next) : (l.offsets p).keys.getLast? = some last := by
  have hk : last ∈ (l.offsets p).keys := ((l.offsets p).mem_keys_iff last).2 h.highest.1
  have hlast := List.getLast?_eq_some_getLast (List.ne_nil_of_mem hk)
  rw [hlast, (SortedMap.isGreatest_of_getLast? hlast).unique h.highest]

theorem first_le_next (h : l.Spans p first last next) : first ≤ next := h.unsettled.1.1

theorem first_le_last (h : l.Spans p first last next) : first ≤ last := h.lowest.2 h.highest.1

theorem next_le (h : l.Spans p first last next) : next ≤ last + 1 := by
  refine h.unsettled.2 ⟨by have := h.first_le_last; omega, fun hs => ?_⟩
  have : last + 1 ≤ last := h.highest.2 (by simp [hs])
  omega

theorem settled_of_lt (h : l.Spans p first last next) {o : Int} (h1 : first ≤ o) (h2 : o < next) :
    l.status ⟨p, o⟩ = some .settled := by
  by_contra hn
  have : next ≤ o := h.unsettled.2 ⟨h1, hn⟩
  omega

/-- The batch is settled to its end if and only if nothing in its range is missing or abandoned. -/
theorem next_eq_iff (h : l.Spans p first last next) :
    next = last + 1 ↔ ∀ o, first ≤ o → o ≤ last → l.status ⟨p, o⟩ = some .settled := by
  constructor
  · rintro rfl o h1 h2
    exact h.settled_of_lt h1 (by omega)
  · intro hall
    have hle := h.next_le
    by_contra hne
    exact h.unsettled.1.2 (hall next h.first_le_next (by omega))

theorem get?_ends (h : l.Spans p first last next) : l.ends.get? p = some (last + 1) := by
  rw [Ledger.get?_ends, h.getLast?_keys]
  rfl

theorem get?_commit (h : l.Spans p first last next) :
    (ServiceLevel.strict.acknowledge l).offsets.get? p = if first < next then some next else none := by
  rw [← run?_offsets h]
  simp only [ServiceLevel.acknowledge, Acknowledgement.offsets]
  rw [SortedMap.get?_map, get?_settledRuns]

/-- What comes again starts where the commit stops, or at the lowest offset if nothing is committed. -/
theorem get?_redelivery (h : l.Spans p first last next) (committed : Offsets) :
    (l.redelivery committed).get? p =
      if (committed.get? p).getD first ≤ last then some ((committed.get? p).getD first) else none := by
  rw [Ledger.get?_redelivery, h.head?_keys, h.getLast?_keys]

/-- What comes again after the commit starts at the first offset that is not settled. -/
theorem get?_redelivery_commit (h : l.Spans p first last next) :
    (l.redelivery (ServiceLevel.strict.acknowledge l).offsets).get? p =
      if next ≤ last then some next else none := by
  have hresume : ((ServiceLevel.strict.acknowledge l).offsets.get? p).getD first = next := by
    rw [h.get?_commit]
    have := h.first_le_next
    split
    · rfl
    · simp only [Option.getD_none]
      omega
  rw [h.get?_redelivery, hresume]

end Spans

/-- A partition without offsets is neither committed nor rewound. -/
theorem get?_of_status_eq_none {l : Ledger} {p : Partition} (h : ∀ o, l.status ⟨p, o⟩ = none)
    (committed : Offsets) :
    (ServiceLevel.strict.acknowledge l).offsets.get? p = none ∧
      (l.redelivery committed).get? p = none ∧ l.ends.get? p = none := by
  have hm : (l.offsets p).entries = [] := by
    have := (l.offsets p).isEmpty_iff.2 h
    simpa [SortedMap.isEmpty] using this
  refine ⟨?_, ?_, ?_⟩
  · simp only [ServiceLevel.acknowledge, Acknowledgement.offsets]
    rw [SortedMap.get?_map, get?_settledRuns, hm]
    rfl
  · rw [get?_redelivery, SortedMap.keys, hm]
    rfl
  · rw [get?_ends, SortedMap.keys, hm]
    rfl

end Ledger

end Relay
