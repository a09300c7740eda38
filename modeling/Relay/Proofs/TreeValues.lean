import Mathlib.Data.List.Nodup
import Relay.Proofs.Masks

/-!
# Trees and their values

A tree that has a value within some levels has the same value within more (`value?_mono`), so a tree stands for
one value at most (`Denotes`). The tree of a value stands for that value, if its objects have their members in
key order (`value?_ofValue`).
-/

namespace Relay

/-- Where no key is repeated, a map of a list has its entries. -/
theorem SortedMap.perm_ofList {κ ν : Type} [Ord κ] [Std.TransOrd κ] [Std.LawfulEqOrd κ] {l : List (κ × ν)}
    (h : (l.map (·.1)).Nodup) : (ofList l).entries.Perm l := by
  have hreverse : (l.reverse.map (·.1)).Nodup := by
    rw [List.map_reverse]
    exact List.nodup_reverse.2 h
  refine (List.perm_ext_iff_of_nodup (nodup_keys _).of_map h.of_map).2 fun e => ?_
  rw [← get?_eq_some_iff, get?_ofList, find?_eq_some_iff_mem hreverse, List.mem_reverse]

namespace Json

/-! ## More levels -/

namespace Tree

mutual

theorem value?_succ {l : Nat} : ∀ {t : Tree} {v : Value}, t.value? l = some v → t.value? (l + 1) = some v
  | .null, _, h | .bool _, _, h | .number _, _, h | .text _, _, h => h
  | .list items, v, h => by
    cases l with
    | zero => simp [value?] at h
    | succ l =>
      obtain ⟨vs, hvs, rfl⟩ := Option.map_eq_some_iff.1 h
      rw [value?, values?_succ hvs]
      rfl
  | .object ms, v, h => by
    cases l with
    | zero => simp [value?] at h
    | succ l =>
      obtain ⟨vs, hvs, rfl⟩ := Option.map_eq_some_iff.1 h
      rw [value?, memberValues?_succ hvs]
      rfl

theorem values?_succ {l : Nat} :
    ∀ {ts : List Tree} {vs : List Value}, values? l ts = some vs → values? (l + 1) ts = some vs
  | [], _, h => h
  | t :: ts, vs, h => by
    rw [values?] at h
    split at h
    · next v vs' hv hvs =>
      obtain rfl := Option.some.inj h
      rw [values?, value?_succ hv, values?_succ hvs]
    · simp at h

theorem memberValues?_succ {l : Nat} :
    ∀ {ms : List (Option String × Tree)} {vs : List (String × Value)}, memberValues? l ms = some vs →
      memberValues? (l + 1) ms = some vs
  | [], _, h => h
  | (none, t) :: ms, vs, h => by simp [memberValues?] at h
  | (some k, t) :: ms, vs, h => by
    unfold memberValues? at h
    split at h
    · next k' v vs' hk hv hvs =>
      obtain rfl := Option.some.inj h
      obtain rfl := Option.some.inj hk
      simp only [memberValues?, value?_succ hv, memberValues?_succ hvs]
    · simp at h

end

theorem value?_mono {l l' : Nat} {t : Tree} {v : Value} (hle : l ≤ l') (h : t.value? l = some v) :
    t.value? l' = some v := by
  induction hle with
  | refl => exact h
  | step _ ih => exact value?_succ ih

/-- A tree has a value within a number of levels. -/
def Valued (l : Nat) (t : Tree) : Prop := ∃ v, t.value? l = some v

/-- A tree stands for a value. -/
def Denotes (t : Tree) (v : Value) : Prop := ∃ l, t.value? l = some v

variable {l l' : Nat} {t : Tree}

theorem Valued.mono (hle : l ≤ l') (h : t.Valued l) : t.Valued l' := by
  obtain ⟨v, hv⟩ := h
  exact ⟨v, value?_mono hle hv⟩

/-- Where a tree has a value at all, it is the one that the tree stands for. -/
theorem Denotes.value? {v : Value} (h : t.Denotes v) (ht : t.Valued l) : t.value? l = some v := by
  obtain ⟨l', hv⟩ := h
  obtain ⟨v', hv'⟩ := ht
  have hmax := value?_mono (Nat.le_max_left l' l) hv
  have hmax' := value?_mono (Nat.le_max_right l' l) hv'
  obtain rfl : v = v' := Option.some.inj (hmax.symm.trans hmax')
  exact hv'

/-! ## Parts of trees that have values -/

theorem valued_of_values? {ts : List Tree} {vs : List Value} (h : values? l ts = some vs) :
    ∀ t ∈ ts, t.Valued l := by
  induction ts generalizing vs with
  | nil => simp
  | cons t ts ih =>
    rw [values?] at h
    split at h
    · next v vs' hv hvs => exact List.forall_mem_cons.2 ⟨⟨v, hv⟩, ih hvs⟩
    · simp at h

theorem Valued.items {ts : List Tree} (h : (Tree.list ts).Valued l) :
    ∃ l', l = l' + 1 ∧ ∀ t ∈ ts, t.Valued l' := by
  obtain ⟨v, hv⟩ := h
  cases l with
  | zero => simp [Tree.value?] at hv
  | succ l =>
    obtain ⟨vs, hvs, -⟩ := Option.map_eq_some_iff.1 hv
    exact ⟨l, rfl, valued_of_values? hvs⟩

theorem Valued.of_item {ts : List Tree} (h : (Tree.list ts).Valued l) (ht : t ∈ ts) : t.Valued l := by
  obtain ⟨l', rfl, hts⟩ := h.items
  exact (hts t ht).mono (Nat.le_succ l')

/-- A member whose key and tree have values. -/
def ValuedMember (l : Nat) (m : Option String × Tree) : Prop := m.1.isSome = true ∧ m.2.Valued l

theorem exists_memberValues?_iff {ms : List (Option String × Tree)} :
    (∃ vs, memberValues? l ms = some vs) ↔ ∀ m ∈ ms, ValuedMember l m := by
  induction ms with
  | nil => simp [memberValues?]
  | cons m ms ih =>
    obtain ⟨k, t⟩ := m
    rw [List.forall_mem_cons, ← ih]
    constructor
    · rintro ⟨vs, h⟩
      unfold memberValues? at h
      split at h
      · next k' v vs' hv hvs => exact ⟨⟨rfl, v, hv⟩, vs', hvs⟩
      · simp at h
    · rintro ⟨⟨hk, v, hv⟩, vs, hvs⟩
      obtain ⟨k, rfl⟩ := Option.isSome_iff_exists.1 hk
      have hvalue : t.value? l = some v := hv
      exact ⟨(k, v) :: vs, by simp only [memberValues?, hvalue, hvs]⟩

theorem valued_object_iff {ms : List (Option String × Tree)} :
    (Tree.object ms).Valued (l + 1) ↔ ∀ m ∈ ms, ValuedMember l m := by
  rw [← exists_memberValues?_iff]
  constructor
  · rintro ⟨v, hv⟩
    obtain ⟨vs, hvs, -⟩ := Option.map_eq_some_iff.1 hv
    exact ⟨vs, hvs⟩
  · rintro ⟨vs, hvs⟩
    exact ⟨.ofMembers vs, by rw [Tree.value?, hvs]; rfl⟩

theorem Valued.members {ms : List (Option String × Tree)} (h : (Tree.object ms).Valued l) :
    ∃ l', l = l' + 1 ∧ ∀ m ∈ ms, ValuedMember l' m := by
  cases l with
  | zero =>
    obtain ⟨v, hv⟩ := h
    simp [Tree.value?] at hv
  | succ l => exact ⟨l, rfl, valued_object_iff.1 h⟩

end Tree

/-! ## Trees of values -/

namespace Value

mutual

/-- How many arrays and objects stand in one another. -/
def depth : Value → Nat
  | .list items => depthItems items + 1
  | .object ms => depthMembers ms + 1
  | _ => 0

/-- The largest depth of items. -/
def depthItems : List Value → Nat
  | [] => 0
  | v :: vs => max (depth v) (depthItems vs)

/-- The largest depth of members. -/
def depthMembers : List (String × Value) → Nat
  | [] => 0
  | (_, v) :: ms => max (depth v) (depthMembers ms)

end

theorem canonicalItems_of_mem {items : List Value} (h : ∀ v ∈ items, v.Canonical) : CanonicalItems items := by
  induction items with
  | nil => simp only [CanonicalItems]
  | cons v vs ih =>
    obtain ⟨hv, hvs⟩ := List.forall_mem_cons.1 h
    exact ⟨hv, ih hvs⟩

end Value

namespace Tree

mutual

/-- The tree of a value has that value, within as many levels as the value is deep. -/
theorem value?_ofValue : ∀ {l : Nat} {v : Value}, v.Canonical → v.depth ≤ l → (ofValue v).value? l = some v
  | _, .null, _, _ | _, .bool _, _, _ | _, .number _, _, _ | _, .text _, _, _ => by simp [ofValue, value?]
  | 0, .list _, _, h | 0, .object _, _, h => by simp [Value.depth] at h
  | l + 1, .list items, hc, h => by
    rw [Value.Canonical] at hc
    rw [ofValue, value?, values?_ofItems hc (Nat.le_of_succ_le_succ h)]
    rfl
  | l + 1, .object ms, hc, h => by
    rw [Value.Canonical] at hc
    have hentries : (SortedMap.ofList ms).entries = ms :=
      congrArg SortedMap.entries (SortedMap.ofList_entries (⟨ms, hc.1⟩ : SortedMap String Value))
    rw [ofValue, value?, memberValues?_ofMembers hc.2 (Nat.le_of_succ_le_succ h), Option.map_some, Value.ofMembers,
      hentries]

theorem values?_ofItems : ∀ {l : Nat} {vs : List Value}, Value.CanonicalItems vs → Value.depthItems vs ≤ l →
    values? l (ofItems vs) = some vs
  | _, [], _, _ => rfl
  | l, v :: vs, hc, h => by
    rw [Value.CanonicalItems] at hc
    rw [Value.depthItems, Nat.max_le] at h
    rw [ofItems, values?, value?_ofValue hc.1 h.1, values?_ofItems hc.2 h.2]

theorem memberValues?_ofMembers : ∀ {l : Nat} {ms : List (String × Value)}, Value.CanonicalMembers ms →
    Value.depthMembers ms ≤ l → memberValues? l (ofMembers ms) = some ms
  | _, [], _, _ => rfl
  | l, (k, v) :: ms, hc, h => by
    rw [Value.CanonicalMembers] at hc
    rw [Value.depthMembers, Nat.max_le] at h
    simp only [ofMembers, memberValues?, value?_ofValue hc.1 h.1, memberValues?_ofMembers hc.2 h.2]

end

theorem ofItems_eq (vs : List Value) : ofItems vs = vs.map ofValue := by
  induction vs with
  | nil => rfl
  | cons v vs ih => rw [ofItems, ih, List.map_cons]

theorem ofMembers_eq (ms : List (String × Value)) : ofMembers ms = ms.map fun m => (some m.1, ofValue m.2) := by
  induction ms with
  | nil => rfl
  | cons m ms ih => rw [ofMembers, ih, List.map_cons]

/-- The tree of an object of members that are not in key order. -/
theorem exists_ofValue_ofMembers {ms : List (String × Value)} (h : (ms.map (·.1)).Nodup) :
    ∃ members, ofValue (.ofMembers ms) = .object members ∧
      members.Perm (ms.map fun m => (some m.1, ofValue m.2)) := by
  refine ⟨_, rfl, ?_⟩
  rw [ofMembers_eq]
  exact (SortedMap.perm_ofList h).map _

end Tree

end Json

end Relay
