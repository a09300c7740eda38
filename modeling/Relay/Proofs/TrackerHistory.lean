import Mathlib.Data.Set.Card
import Mathlib.Order.Bounds.Basic
import Relay.Tracker

/-!
# What a tracker remembers of its calls

A tracker is told of accepted offsets and of partitions to forget, and asked which offsets would move a commit
forward. Of all that it keeps, for each partition, the greatest offset marked since the partition was last cleared. That
is a greatest element of a set, so neither the order of the marks counts nor how often a mark comes or with which others
it comes together.
-/

namespace Relay.Tracker

/-- A call on a tracker. -/
inductive Call where
  /-- Remember accepted offsets. -/
  | mark (offsets : Offsets)
  /-- Forget a partition. -/
  | clear (p : Partition)
  /-- Ask which offsets advance. -/
  | advancing (offsets : Offsets)
  deriving DecidableEq

/-- The answer to a call, if it has one, and the tracker after it. -/
def serve (t : Tracker) : Call → Option Offsets × Tracker
  | .mark offsets => (none, t.mark offsets)
  | .clear p => (none, t.clear p)
  | .advancing offsets => (some (t.advancing offsets), t)

/-- The tracker after calls on a new one. -/
def ofCalls (calls : List Call) : Tracker := calls.foldl (fun t call => (t.serve call).2) .empty

/-- An offset was marked for a partition, and the partition not cleared since. -/
def Marked (calls : List Call) (p : Partition) (o : Int) : Prop :=
  ∃ earlier offsets later, calls = earlier ++ .mark offsets :: later ∧ .clear p ∉ later ∧ offsets.get? p = some o

variable {calls calls' : List Call} {p : Partition} {o : Int} {ms ms' : List Offsets}

/-! ## Marks since the last clearing -/

theorem not_marked_nil : ¬Marked [] p o := by
  rintro ⟨earlier, offsets, later, h, -⟩
  simp at h

theorem marked_concat {call : Call} :
    Marked (calls ++ [call]) p o ↔
      (∃ offsets, call = .mark offsets ∧ offsets.get? p = some o) ∨ (call ≠ .clear p ∧ Marked calls p o) := by
  constructor
  · rintro ⟨earlier, offsets, later, h, hlater, ho⟩
    obtain rfl | ⟨later, last, rfl⟩ := List.eq_nil_or_concat' later
    · obtain ⟨-, hcall⟩ := List.append_inj' h rfl
      exact .inl ⟨offsets, List.singleton_inj.1 hcall, ho⟩
    · rw [← List.cons_append, ← List.append_assoc] at h
      obtain ⟨rfl, hcall⟩ := List.append_inj' h rfl
      obtain rfl : call = last := List.singleton_inj.1 hcall
      simp only [List.mem_append, List.mem_singleton, not_or] at hlater
      exact .inr ⟨fun hc => hlater.2 hc.symm, earlier, offsets, later, rfl, hlater.1, ho⟩
  · rintro (⟨offsets, rfl, ho⟩ | ⟨hcall, earlier, offsets, later, rfl, hlater, ho⟩)
    · exact ⟨calls, offsets, [], rfl, List.not_mem_nil, ho⟩
    · refine ⟨earlier, offsets, later ++ [call], by simp, ?_, ho⟩
      simp only [List.mem_append, List.mem_singleton, not_or]
      exact ⟨hlater, fun hc => hcall hc.symm⟩

theorem marked_mark {offsets : Offsets} :
    Marked (calls ++ [.mark offsets]) p o ↔ offsets.get? p = some o ∨ Marked calls p o := by
  simp [marked_concat]

theorem marked_clear {q : Partition} : Marked (calls ++ [.clear q]) p o ↔ q ≠ p ∧ Marked calls p o := by
  simp [marked_concat]

theorem marked_advancing {offsets : Offsets} : Marked (calls ++ [.advancing offsets]) p o ↔ Marked calls p o := by
  simp [marked_concat]

/-- Of marks in a row, each counts, and what was marked before them. -/
theorem marked_append_marks :
    Marked (calls ++ ms.map .mark) p o ↔ (∃ m ∈ ms, m.get? p = some o) ∨ Marked calls p o := by
  induction ms using List.reverseRecOn with
  | nil => simp
  | append_singleton ms m ih =>
    rw [List.map_append, ← List.append_assoc, List.map_singleton, marked_mark, ih, ← or_assoc]
    simp only [List.mem_append, List.mem_singleton, or_and_right, exists_or, exists_eq_left]
    rw [or_comm (a := m.get? p = some o)]

theorem marked_marks : Marked (ms.map .mark) p o ↔ ∃ m ∈ ms, m.get? p = some o := by
  rw [← List.nil_append (ms.map Call.mark), marked_append_marks, or_iff_left not_marked_nil]

/-! ## Greatest elements -/

/-- The greatest element of a set, or none if the set is empty. -/
def IsLatest (s : Set Int) : Option Int → Prop
  | none => s = ∅
  | some o => IsGreatest s o

theorem IsLatest.unique {s : Set Int} {a b : Option Int} (ha : IsLatest s a) (hb : IsLatest s b) : a = b := by
  cases a with
  | none =>
    cases b with
    | none => rfl
    | some b =>
      obtain rfl : s = ∅ := ha
      exact absurd hb.1 (Set.notMem_empty b)
  | some a =>
    cases b with
    | none =>
      obtain rfl : s = ∅ := hb
      exact absurd ha.1 (Set.notMem_empty a)
    | some b => exact congrArg some (IsGreatest.unique ha hb)

theorem IsLatest.eq_some_iff {s : Set Int} {a : Option Int} (h : IsLatest s a) : a = some o ↔ IsGreatest s o :=
  ⟨fun ha => by rwa [ha] at h, fun ho => h.unique (b := some o) ho⟩

theorem IsLatest.eq_none_iff {s : Set Int} {a : Option Int} (h : IsLatest s a) : a = none ↔ ∀ o, o ∉ s := by
  rw [← Set.eq_empty_iff_forall_notMem]
  exact ⟨fun ha => by rwa [ha] at h, fun hs => h.unique (b := none) hs⟩

theorem isLatest_singleton (a : Option Int) : IsLatest {o | a = some o} a := by
  cases a with
  | none =>
    rw [IsLatest]
    simp
  | some a =>
    rw [IsLatest]
    simp [eq_comm (a := a)]

/-- Of two sets together, the greater of the two. -/
theorem IsLatest.union {s t : Set Int} {a b : Option Int} (ha : IsLatest s a) (hb : IsLatest t b) :
    IsLatest (s ∪ t) (Option.merge max a b) := by
  cases a with
  | none =>
    obtain rfl : s = ∅ := ha
    rwa [Set.empty_union, Option.merge_none_left]
  | some a =>
    cases b with
    | none =>
      obtain rfl : t = ∅ := hb
      rwa [Set.union_empty, Option.merge_none_right]
    | some b => exact IsGreatest.union ha hb

/-! ## The state -/

theorem ofCalls_append (calls calls' : List Call) :
    ofCalls (calls ++ calls') = calls'.foldl (fun t call => (t.serve call).2) (ofCalls calls) :=
  List.foldl_append

theorem ofCalls_concat (calls : List Call) (call : Call) :
    ofCalls (calls ++ [call]) = ((ofCalls calls).serve call).2 := ofCalls_append calls [call]

theorem get?_mark_eq_merge (t : Tracker) (offsets : Offsets) (p : Partition) :
    (t.mark offsets).get? p = Option.merge max (offsets.get? p) (t.get? p) := by
  rw [get?_mark]
  cases offsets.get? p with
  | none => rw [Option.merge_none_left]
  | some o => cases t.get? p <;> simp

/-- One call keeps the tracker at the greatest offset marked since the last clearing. -/
theorem isLatest_serve {t : Tracker} (call : Call) (h : ∀ p, IsLatest {o | Marked calls p o} (t.get? p)) (p : Partition) :
    IsLatest {o | Marked (calls ++ [call]) p o} ((t.serve call).2.get? p) := by
  cases call with
  | mark offsets =>
    simp only [serve, get?_mark_eq_merge, marked_mark]
    exact (isLatest_singleton (offsets.get? p)).union (h p)
  | clear q =>
    rw [serve, get?_clear]
    simp only [marked_clear]
    split
    · next hq => simp [IsLatest, hq]
    · next hq => simpa [hq] using h p
  | advancing offsets =>
    simp only [marked_advancing]
    exact h p

/-- A tracker holds, for each partition, the greatest offset marked since the last clearing. -/
theorem isLatest_ofCalls (calls : List Call) (p : Partition) :
    IsLatest {o | Marked calls p o} ((ofCalls calls).get? p) := by
  induction calls using List.reverseRecOn generalizing p with
  | nil =>
    rw [IsLatest.eq_def]
    simp [ofCalls, empty, get?, not_marked_nil]
  | append_singleton calls call ih =>
    rw [ofCalls_concat]
    exact isLatest_serve call ih p

/-- Two trackers with the same offset for each partition are equal. -/
theorem ext_get? {t t' : Tracker} (h : ∀ p, t.get? p = t'.get? p) : t = t' := by
  obtain ⟨committed⟩ := t
  obtain ⟨committed'⟩ := t'
  exact congrArg mk (SortedMap.ext_get? h)

/-- Calls that leave the same greatest offsets leave the same tracker. -/
theorem ofCalls_congr
    (h : ∀ p o, IsGreatest {o | Marked calls p o} o ↔ IsGreatest {o | Marked calls' p o} o) :
    ofCalls calls = ofCalls calls' := by
  refine ext_get? fun p => Option.ext fun o => ?_
  rw [(isLatest_ofCalls calls p).eq_some_iff, (isLatest_ofCalls calls' p).eq_some_iff]
  exact h p o

/-- Marks in a row are one mark of what they leave in a new tracker. -/
theorem foldl_marks (calls : List Call) (ms : List Offsets) :
    ofCalls (calls ++ ms.map .mark) = (ofCalls calls).mark (ofCalls (ms.map .mark)).committed := by
  refine ext_get? fun p => (isLatest_ofCalls _ p).unique ?_
  have hms := isLatest_ofCalls (ms.map .mark) p
  have hset : {o | Marked (calls ++ ms.map .mark) p o} = {o | Marked (ms.map .mark) p o} ∪ {o | Marked calls p o} := by
    ext o
    simp only [Set.mem_ofPred_eq, Set.mem_union, marked_append_marks, marked_marks]
  rw [hset, get?_mark_eq_merge]
  exact hms.union (isLatest_ofCalls calls p)

/-- Marks in a row may come in another order, and more than once. -/
theorem ofCalls_marks_congr (h : ∀ m, m ∈ ms' ↔ m ∈ ms) :
    ofCalls (ms'.map .mark) = ofCalls (ms.map .mark) := by
  refine ofCalls_congr fun p o => ?_
  simp only [marked_marks, h]

/-- As many partitions are counted as have an offset. -/
theorem size_eq_encard (t : Tracker) : (t.size : ℕ∞) = {p | t.get? p ≠ none}.encard := by
  have hkeys : {p | t.get? p ≠ none} = (t.committed.keys.toFinset : Set Partition) := by
    ext p
    rw [Set.mem_ofPred_eq, List.coe_toFinset, Set.mem_ofPred_eq, SortedMap.mem_keys_iff]
    rfl
  have hnodup : t.committed.keys.Nodup := t.committed.nodup_keys
  rw [hkeys, Set.encard_coe_eq_coe_finsetCard, List.toFinset_card_of_nodup hnodup, SortedMap.keys, List.length_map]
  rfl

/-! ## What advances -/

/-- Nothing advances that was marked before, up to the same offset or a later one. -/
theorem isEmpty_advancing {offsets : Offsets}
    (h : ∀ p o, offsets.get? p = some o → ∃ marked, o ≤ marked ∧ Marked calls p marked) :
    ((ofCalls calls).advancing offsets).isEmpty = true := by
  refine (SortedMap.isEmpty_iff _).2 fun p => Option.eq_none_iff_forall_ne_some.2 fun o ho => ?_
  obtain ⟨hoffset, hlater⟩ := get?_advancing_eq_some.1 ho
  obtain ⟨marked, hle, hmarked⟩ := h p o hoffset
  cases hc : (ofCalls calls).get? p with
  | none => exact (isLatest_ofCalls calls p).eq_none_iff.1 hc marked hmarked
  | some committed =>
    have hgreatest : IsGreatest {o | Marked calls p o} committed := (isLatest_ofCalls calls p).eq_some_iff.1 hc
    have hup := hgreatest.2 hmarked
    have hlt := hlater committed hc
    omega

/-- After any calls a tracker holds, for each partition, the greatest offset marked since the partition was last
cleared, and counts the partitions that have one. Marks in a row may be reordered or repeated, and may be merged
into one mark; in all, histories of the same greatest offsets leave the same tracker. It answers which offsets
advance with those beyond what it holds, and is not changed by that. -/
theorem ofCalls_holds_latest (calls : List Call) :
    (∀ p o, (ofCalls calls).get? p = some o ↔ IsGreatest {o | Marked calls p o} o) ∧
    (∀ p, (ofCalls calls).get? p = none ↔ ∀ o, ¬Marked calls p o) ∧
    ((ofCalls calls).size : ℕ∞) = {p | (ofCalls calls).get? p ≠ none}.encard ∧
    (∀ (ms ms' : List Offsets) later, (∀ m, m ∈ ms' ↔ m ∈ ms) →
      ofCalls (calls ++ ms'.map .mark ++ later) = ofCalls (calls ++ ms.map .mark ++ later)) ∧
    (∀ (ms : List Offsets) later, ofCalls (calls ++ .mark (ofCalls (ms.map .mark)).committed :: later) =
      ofCalls (calls ++ ms.map .mark ++ later)) ∧
    (∀ calls', (∀ p o, IsGreatest {o | Marked calls' p o} o ↔ IsGreatest {o | Marked calls p o} o) →
      ofCalls calls' = ofCalls calls) ∧
    ∀ offsets, ∃ answer, (ofCalls calls).serve (.advancing offsets) = (some answer, ofCalls calls) ∧
      (∀ p o, answer.get? p = some o ↔
        offsets.get? p = some o ∧ ∀ committed, (ofCalls calls).get? p = some committed → committed < o) ∧
      ((∀ p o, offsets.get? p = some o → ∃ marked, o ≤ marked ∧ Marked calls p marked) → answer.isEmpty = true) := by
  refine ⟨fun p _ => (isLatest_ofCalls calls p).eq_some_iff, fun p => (isLatest_ofCalls calls p).eq_none_iff,
    size_eq_encard _, fun ms ms' later h => ?_, fun ms later => ?_, fun calls' h => ofCalls_congr h, fun offsets => ?_⟩
  · rw [ofCalls_append, ofCalls_append _ later, foldl_marks, foldl_marks, ofCalls_marks_congr h]
  · rw [← List.singleton_append, ← List.append_assoc, ofCalls_append, ofCalls_append _ later, ofCalls_concat, foldl_marks]
    rfl
  · exact ⟨_, rfl, fun p o => get?_advancing_eq_some, isEmpty_advancing⟩

/-- Of two partitions marked, one is cleared and marked anew, lower than before; the marks after that may be merged. -/
theorem ofCalls_holds_latest_cleared :
    let p : Partition := ⟨"events", 0⟩
    let q : Partition := ⟨"events", 1⟩
    let calls : List Call := [.mark (.ofList [(p, 100), (q, 200)]), .clear p]
    let ms : List Offsets := [.ofList [(p, 7)], .ofList [(p, 5), (q, 201)]]
    let t := ofCalls (calls ++ ms.map .mark)
    t.get? p = some 7 ∧ t.get? q = some 201 ∧ t.size = 2 ∧
      ofCalls (calls ++ ms.reverse.map .mark) = t ∧ ofCalls (calls ++ [.mark (.ofList [(p, 7), (q, 201)])]) = t ∧
      t.advancing (.ofList [(p, 8), (q, 201)]) = .ofList [(p, 8)] := by
  intro p q calls ms t
  obtain ⟨-, -, -, hreorder, hmerge, -⟩ := ofCalls_holds_latest calls
  have hreordered := hreorder ms ms.reverse [] fun m => List.mem_reverse
  have hmerged := hmerge ms []
  have hmark : (ofCalls (ms.map .mark)).committed = .ofList [(p, 7), (q, 201)] := by decide
  rw [hmark] at hmerged
  simp only [List.append_nil] at hreordered hmerged
  exact ⟨by decide, by decide, by decide, hreordered, hmerged, by decide⟩

end Relay.Tracker
