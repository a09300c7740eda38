/-!
# Sorted maps

Finite maps as lists of entries in strictly increasing key order. The order makes the list canonical:
two maps with the same look-ups are equal (`ext_get?`).
-/

namespace Relay

/-- A finite map whose entries are listed in strictly increasing key order. -/
structure SortedMap (κ ν : Type) [Ord κ] where
  /-- The entries, in key order. -/
  entries : List (κ × ν)
  /-- Keys increase strictly. -/
  sorted : entries.Pairwise fun a b => compare a.1 b.1 = .lt

namespace SortedMap

variable {κ ν μ : Type} [Ord κ]

/-- The map without entries. -/
def empty : SortedMap κ ν := ⟨[], .nil⟩

instance : Inhabited (SortedMap κ ν) := ⟨empty⟩
instance : EmptyCollection (SortedMap κ ν) := ⟨empty⟩
instance [BEq κ] [BEq ν] : BEq (SortedMap κ ν) := ⟨fun a b => a.entries == b.entries⟩
instance [Repr κ] [Repr ν] : Repr (SortedMap κ ν) := ⟨fun m n => reprPrec m.entries n⟩

instance [DecidableEq κ] [DecidableEq ν] : DecidableEq (SortedMap κ ν)
  | ⟨a, _⟩, ⟨b, _⟩ =>
    if h : a = b then isTrue (by subst h; rfl)
    else isFalse fun e => h (SortedMap.mk.inj e)

/-- Whether there is no entry. -/
def isEmpty (m : SortedMap κ ν) : Bool := m.entries.isEmpty

/-- The number of entries. -/
def size (m : SortedMap κ ν) : Nat := m.entries.length

/-- The keys, in increasing order. -/
def keys (m : SortedMap κ ν) : List κ := m.entries.map (·.1)

/-- The values, in key order. -/
def values (m : SortedMap κ ν) : List ν := m.entries.map (·.2)

/-- Look a key up in a list of entries. -/
def find? (k : κ) : List (κ × ν) → Option ν
  | [] => none
  | (k', v) :: rest => if compare k k' = .eq then some v else find? k rest

/-- The value at a key. -/
def get? (m : SortedMap κ ν) (k : κ) : Option ν := find? k m.entries

/-- Whether the key has an entry. -/
def contains (m : SortedMap κ ν) (k : κ) : Bool := (m.get? k).isSome

/-- Put an entry into its place in a list of entries, replacing one of the same key. -/
def place (k : κ) (v : ν) : List (κ × ν) → List (κ × ν)
  | [] => [(k, v)]
  | (k', v') :: rest =>
    match compare k k' with
    | .lt => (k, v) :: (k', v') :: rest
    | .eq => (k, v) :: rest
    | .gt => (k', v') :: place k v rest

section Lawful

variable [Std.TransOrd κ] [Std.LawfulEqOrd κ]

omit [Std.TransOrd κ] [Std.LawfulEqOrd κ] in
theorem mem_place {k : κ} {v : ν} {e : κ × ν} {l : List (κ × ν)} (h : e ∈ place k v l) :
    e = (k, v) ∨ e ∈ l := by
  induction l with
  | nil => simpa [place] using h
  | cons x rest ih =>
    obtain ⟨k', v'⟩ := x
    unfold place at h
    split at h
    · simpa using h
    · rcases List.mem_cons.1 h with h | h
      · exact .inl h
      · exact .inr (List.mem_cons_of_mem _ h)
    · rcases List.mem_cons.1 h with h | h
      · exact .inr (h ▸ List.mem_cons_self)
      · exact (ih h).imp_right (List.mem_cons_of_mem _)

theorem sorted_place {k : κ} {v : ν} {l : List (κ × ν)}
    (h : l.Pairwise fun a b => compare a.1 b.1 = .lt) :
    (place k v l).Pairwise fun a b => compare a.1 b.1 = .lt := by
  induction l with
  | nil => simp [place]
  | cons x rest ih =>
    obtain ⟨k', v'⟩ := x
    obtain ⟨hx, hrest⟩ := List.pairwise_cons.1 h
    unfold place
    split
    · rename_i hlt
      refine List.pairwise_cons.2 ⟨fun e he => ?_, h⟩
      rcases List.mem_cons.1 he with rfl | he
      · exact hlt
      · exact Std.TransCmp.lt_trans hlt (hx e he)
    · rename_i heq
      have : k = k' := Std.LawfulEqCmp.eq_of_compare heq
      subst this
      exact List.pairwise_cons.2 ⟨hx, hrest⟩
    · rename_i hgt
      refine List.pairwise_cons.2 ⟨fun e he => ?_, ih hrest⟩
      rcases mem_place he with rfl | he
      · exact Std.OrientedCmp.gt_iff_lt.1 hgt
      · exact hx e he

/-- The map with the value at a key set. -/
def insert (m : SortedMap κ ν) (k : κ) (v : ν) : SortedMap κ ν :=
  ⟨place k v m.entries, sorted_place m.sorted⟩

/-- The map of a list of entries; of entries with one key the last counts. -/
def ofList (l : List (κ × ν)) : SortedMap κ ν := l.foldl (fun m e => m.insert e.1 e.2) empty

theorem mem_of_mem_ofList {l : List (κ × ν)} {e : κ × ν} (h : e ∈ (ofList l).entries) : e ∈ l := by
  have hfold : ∀ (rest : List (κ × ν)) (m : SortedMap κ ν),
      e ∈ (rest.foldl (fun m e => m.insert e.1 e.2) m).entries → e ∈ m.entries ∨ e ∈ rest := by
    intro rest
    induction rest with
    | nil => exact fun _ hm => .inl hm
    | cons x rest ih =>
      intro m hm
      rcases ih _ hm with hm | hm
      · rcases mem_place hm with rfl | hm
        · exact .inr List.mem_cons_self
        · exact .inl hm
      · exact .inr (List.mem_cons_of_mem _ hm)
  rcases hfold l empty h with h | h
  · simp [empty] at h
  · exact h

end Lawful

/-- The map without the entries that fail a test. -/
def filter (p : κ → ν → Bool) (m : SortedMap κ ν) : SortedMap κ ν :=
  ⟨m.entries.filter fun e => p e.1 e.2, m.sorted.filter _⟩

/-- The map without a key. -/
def erase (m : SortedMap κ ν) (k : κ) : SortedMap κ ν := m.filter fun k' _ => compare k k' != .eq

/-- The map with each value replaced. -/
def map (f : κ → ν → μ) (m : SortedMap κ ν) : SortedMap κ μ :=
  ⟨m.entries.map fun e => (e.1, f e.1 e.2),
    List.pairwise_map.2 (m.sorted.imp fun h => h)⟩

/-- The map with each value replaced, or dropped where the function gives none. -/
def filterMap (f : κ → ν → Option μ) (m : SortedMap κ ν) : SortedMap κ μ :=
  ⟨m.entries.filterMap fun e => (f e.1 e.2).map fun v => (e.1, v), by
    refine List.pairwise_filterMap.2 (m.sorted.imp fun h => ?_)
    intro b hb b' hb'
    obtain ⟨_, _, rfl⟩ := Option.map_eq_some_iff.1 hb
    obtain ⟨_, _, rfl⟩ := Option.map_eq_some_iff.1 hb'
    exact h⟩

/-! ## Look-ups -/

@[simp] theorem get?_empty (k : κ) : (empty : SortedMap κ ν).get? k = none := rfl

section Lawful

variable [Std.TransOrd κ] [Std.LawfulEqOrd κ]

omit [Std.TransOrd κ] in
theorem find?_place (k k' : κ) (v : ν) (l : List (κ × ν)) :
    find? k' (place k v l) = if compare k' k = .eq then some v else find? k' l := by
  induction l with
  | nil => rfl
  | cons x rest ih =>
    obtain ⟨k'', v''⟩ := x
    unfold place
    split
    · rfl
    · rename_i heq
      have : k = k'' := Std.LawfulEqCmp.eq_of_compare heq
      subst this
      simp only [find?]
      split <;> rfl
    · rename_i hgt
      simp only [find?, ih]
      by_cases h : compare k' k'' = .eq
      · have : k' = k'' := Std.LawfulEqCmp.eq_of_compare h
        subst this
        rw [if_pos h, if_neg, if_pos h]
        intro e
        rw [Std.LawfulEqCmp.eq_of_compare e] at hgt
        simp at hgt
      · simp [h]

/-- Setting a key changes the look-up at that key alone. -/
@[simp] theorem get?_insert (m : SortedMap κ ν) (k k' : κ) (v : ν) :
    (m.insert k v).get? k' = if compare k' k = .eq then some v else m.get? k' :=
  find?_place k k' v m.entries

omit [Std.TransOrd κ] in
theorem find?_eq_some_of_mem {l : List (κ × ν)}
    (h : l.Pairwise fun a b => compare a.1 b.1 = .lt) {k : κ} {v : ν} (hm : (k, v) ∈ l) :
    find? k l = some v := by
  induction l with
  | nil => simp at hm
  | cons x rest ih =>
    obtain ⟨hx, hrest⟩ := List.pairwise_cons.1 h
    rcases List.mem_cons.1 hm with rfl | hm
    · simp [find?]
    · have hlt := hx _ hm
      have hne : compare k x.1 ≠ .eq := by
        intro e
        rw [Std.LawfulEqCmp.eq_of_compare e] at hlt
        simp at hlt
      rw [find?, if_neg hne]
      exact ih hrest hm

omit [Std.TransOrd κ] in
theorem mem_of_find?_eq_some {l : List (κ × ν)} {k : κ} {v : ν} (h : find? k l = some v) :
    (k, v) ∈ l := by
  induction l with
  | nil => simp [find?] at h
  | cons x rest ih =>
    obtain ⟨k', v'⟩ := x
    simp only [find?] at h
    split at h
    · rename_i e
      have : k = k' := Std.LawfulEqCmp.eq_of_compare e
      subst this
      simp_all
    · exact List.mem_cons_of_mem _ (ih h)

omit [Std.TransOrd κ] in
/-- Where no key is repeated, the look-ups of a list are its entries. -/
theorem find?_eq_some_iff_mem {l : List (κ × ν)} (h : (l.map (·.1)).Nodup) {k : κ} {v : ν} :
    find? k l = some v ↔ (k, v) ∈ l := by
  refine ⟨mem_of_find?_eq_some, fun hm => ?_⟩
  induction l with
  | nil => simp at hm
  | cons x rest ih =>
    obtain ⟨hx, hrest⟩ := List.nodup_cons.1 h
    rcases List.mem_cons.1 hm with rfl | hm
    · simp [find?]
    · have hne : compare k x.1 ≠ .eq := by
        intro e
        have hmem : k ∈ rest.map (·.1) := List.mem_map_of_mem hm
        rw [Std.LawfulEqCmp.eq_of_compare e] at hmem
        exact hx hmem
      rw [find?, if_neg hne]
      exact ih hrest hm

omit [Std.TransOrd κ] [Std.LawfulEqOrd κ] in
theorem find?_append (k : κ) (a b : List (κ × ν)) : find? k (a ++ b) = (find? k a).or (find? k b) := by
  induction a with
  | nil => rfl
  | cons x a ih =>
    rw [List.cons_append, find?, find?]
    split
    · rfl
    · exact ih

/-- Of entries with one key, the last counts in a map of a list. -/
theorem get?_ofList (l : List (κ × ν)) (k : κ) : (ofList l).get? k = find? k l.reverse := by
  have hfold : ∀ (rest : List (κ × ν)) (m : SortedMap κ ν),
      (rest.foldl (fun m e => m.insert e.1 e.2) m).get? k = (find? k rest.reverse).or (m.get? k) := by
    intro rest
    induction rest with
    | nil => exact fun _ => rfl
    | cons x rest ih =>
      intro m
      rw [List.foldl_cons, ih, List.reverse_cons, find?_append, get?, get?, insert, find?_place]
      cases find? k rest.reverse with
      | some v => rfl
      | none => by_cases hk : compare k x.1 = .eq <;> simp [find?, hk]
  rw [ofList, hfold, get?_empty, Option.or_none]

omit [Std.TransOrd κ] in
/-- The look-ups of a map are its entries. -/
theorem get?_eq_some_iff (m : SortedMap κ ν) {k : κ} {v : ν} :
    m.get? k = some v ↔ (k, v) ∈ m.entries :=
  ⟨mem_of_find?_eq_some, find?_eq_some_of_mem m.sorted⟩

omit [Std.TransOrd κ] in
theorem nodup_keys (m : SortedMap κ ν) : (m.entries.map (·.1)).Nodup := by
  refine List.pairwise_map.2 (m.sorted.imp fun hlt heq => ?_)
  rw [heq] at hlt
  simp at hlt

omit [Std.TransOrd κ] in
theorem find?_reverse (m : SortedMap κ ν) (k : κ) : find? k m.entries.reverse = m.get? k := by
  apply Option.ext
  intro v
  have hnodup : (m.entries.reverse.map (·.1)).Nodup := by
    rw [List.map_reverse]
    exact (List.reverse_perm _).nodup_iff.2 m.nodup_keys
  rw [find?_eq_some_iff_mem hnodup, List.mem_reverse, get?_eq_some_iff]

omit [Std.TransOrd κ] in
/-- A filtered map keeps the entries that pass the test. -/
theorem get?_filter (p : κ → ν → Bool) (m : SortedMap κ ν) (k : κ) :
    (m.filter p).get? k = (m.get? k).filter (p k) := by
  apply Option.ext
  intro v
  rw [get?_eq_some_iff, Option.filter_eq_some_iff, get?_eq_some_iff]
  simp [filter]

omit [Std.TransOrd κ] in
/-- Erasing a key changes the look-up at that key alone. -/
@[simp] theorem get?_erase (m : SortedMap κ ν) (k k' : κ) :
    (m.erase k).get? k' = if compare k k' = .eq then none else m.get? k' := by
  rw [erase, get?_filter]
  cases h : m.get? k' <;> by_cases e : compare k k' = .eq <;> simp [e, Option.filter]

omit [Std.TransOrd κ] in
/-- Replacing values replaces the values of look-ups. -/
theorem get?_map (f : κ → ν → μ) (m : SortedMap κ ν) (k : κ) :
    (m.map f).get? k = (m.get? k).map (f k) := by
  apply Option.ext
  intro v
  rw [get?_eq_some_iff, Option.map_eq_some_iff]
  simp only [map, List.mem_map, Prod.mk.injEq]
  constructor
  · rintro ⟨⟨k', u⟩, hm, rfl, rfl⟩
    exact ⟨u, (get?_eq_some_iff m).2 hm, rfl⟩
  · rintro ⟨u, hu, rfl⟩
    exact ⟨(k, u), (get?_eq_some_iff m).1 hu, rfl, rfl⟩

omit [Std.TransOrd κ] in
/-- Replacing or dropping values replaces or drops the values of look-ups. -/
theorem get?_filterMap (f : κ → ν → Option μ) (m : SortedMap κ ν) (k : κ) :
    (m.filterMap f).get? k = (m.get? k).bind (f k) := by
  apply Option.ext
  intro v
  rw [get?_eq_some_iff, Option.bind_eq_some_iff]
  simp only [filterMap, List.mem_filterMap, Option.map_eq_some_iff, Prod.mk.injEq]
  constructor
  · rintro ⟨⟨k', u⟩, hm, x, hx, rfl, rfl⟩
    exact ⟨u, (get?_eq_some_iff m).2 hm, hx⟩
  · rintro ⟨u, hu, hx⟩
    exact ⟨(k, u), (get?_eq_some_iff m).1 hu, v, hx, rfl, rfl⟩

omit [Std.TransOrd κ] in
/-- The keys are what can be looked up. -/
theorem mem_keys_iff (m : SortedMap κ ν) (k : κ) : k ∈ m.keys ↔ m.get? k ≠ none := by
  simp only [keys, List.mem_map, Option.ne_none_iff_exists', get?_eq_some_iff]
  constructor
  · rintro ⟨⟨k', v⟩, hm, rfl⟩
    exact ⟨v, hm⟩
  · rintro ⟨v, hm⟩
    exact ⟨(k, v), hm, rfl⟩

omit [Std.TransOrd κ] in
/-- A map is empty if nothing can be looked up. -/
theorem isEmpty_iff (m : SortedMap κ ν) : m.isEmpty = true ↔ ∀ k, m.get? k = none := by
  rw [isEmpty, List.isEmpty_iff]
  constructor
  · intro h k
    simp [get?, h, find?]
  · intro h
    cases he : m.entries with
    | nil => rfl
    | cons e rest =>
      have hk := (get?_eq_some_iff m).2 (he ▸ List.mem_cons_self : (e.1, e.2) ∈ m.entries)
      simp [h] at hk

omit [Std.TransOrd κ] in
theorem isEmpty_of_get? {m : SortedMap κ ν} {k : κ} {v : ν} (h : m.get? k = some v) :
    m.isEmpty = false := by
  cases he : m.isEmpty with
  | false => rfl
  | true =>
    have hk := (isEmpty_iff m).1 he k
    simp [hk] at h

omit [Std.TransOrd κ] in
theorem find?_cons_of_ne {k : κ} {e : κ × ν} (h : k ≠ e.1) (l : List (κ × ν)) :
    find? k (e :: l) = find? k l := by
  have hne : compare k e.1 ≠ .eq := fun he => h (Std.LawfulEqCmp.eq_of_compare he)
  rw [find?, if_neg hne]

omit [Std.TransOrd κ] in
/-- A key below all keys of a list is not in it. -/
theorem find?_eq_none_of_lt {l : List (κ × ν)} {k : κ} (h : ∀ e ∈ l, compare k e.1 = .lt) :
    find? k l = none := by
  cases hf : find? k l with
  | none => rfl
  | some v =>
    have hlt := h _ (mem_of_find?_eq_some hf)
    simp at hlt

theorem eq_of_find?_eq {l l' : List (κ × ν)}
    (h : l.Pairwise fun a b => compare a.1 b.1 = .lt)
    (h' : l'.Pairwise fun a b => compare a.1 b.1 = .lt)
    (e : ∀ k, find? k l = find? k l') : l = l' := by
  induction l generalizing l' with
  | nil =>
    cases l' with
    | nil => rfl
    | cons x rest =>
      have := e x.1
      simp [find?] at this
  | cons x rest ih =>
    cases l' with
    | nil =>
      have := e x.1
      simp [find?] at this
    | cons y rest' =>
      obtain ⟨hx, hrest⟩ := List.pairwise_cons.1 h
      obtain ⟨hy, hrest'⟩ := List.pairwise_cons.1 h'
      have hxm : x ∈ y :: rest' :=
        mem_of_find?_eq_some ((e x.1).symm.trans (find?_eq_some_of_mem h List.mem_cons_self))
      have hym : y ∈ x :: rest :=
        mem_of_find?_eq_some ((e y.1).trans (find?_eq_some_of_mem h' List.mem_cons_self))
      have hxy : x = y := by
        rcases List.mem_cons.1 hxm with hxm | hxm
        · exact hxm
        · rcases List.mem_cons.1 hym with hym | hym
          · exact hym.symm
          · have h1 := hy x hxm
            have h2 := Std.TransCmp.lt_trans h1 (hx y hym)
            simp at h2
      subst hxy
      congr 1
      refine ih hrest hrest' fun k => ?_
      by_cases hk : k = x.1
      · rw [hk, find?_eq_none_of_lt hx, find?_eq_none_of_lt hy]
      · have hfind := e k
        rwa [find?_cons_of_ne hk, find?_cons_of_ne hk] at hfind

/-- Maps with the same look-ups are equal. -/
theorem ext_get? {m m' : SortedMap κ ν} (h : ∀ k, m.get? k = m'.get? k) : m = m' := by
  obtain ⟨l, hl⟩ := m
  obtain ⟨l', hl'⟩ := m'
  have : l = l' := eq_of_find?_eq hl hl' h
  subst this
  rfl

/-- The entries of one map put over those of another. -/
def amend (m newer : SortedMap κ ν) : SortedMap κ ν := ofList (m.entries ++ newer.entries)

theorem get?_amend (m newer : SortedMap κ ν) (k : κ) : (m.amend newer).get? k = (newer.get? k).or (m.get? k) := by
  rw [amend, get?_ofList, List.reverse_append, find?_append, find?_reverse, find?_reverse]

theorem filter_congr {f g : κ → ν → Bool} {m : SortedMap κ ν} (h : ∀ k v, m.get? k = some v → f k v = g k v) :
    m.filter f = m.filter g := by
  refine ext_get? fun k => ?_
  rw [get?_filter, get?_filter]
  cases hv : m.get? k with
  | none => rfl
  | some v => simp only [Option.filter, h k v hv]

omit [Std.LawfulEqOrd κ] in
theorem find?_ne_none_of_mem {l : List (κ × ν)} {k : κ} {v : ν} (h : (k, v) ∈ l) : find? k l ≠ none := by
  induction l with
  | nil => simp at h
  | cons e rest ih =>
    rw [find?]
    split
    · simp
    · next hne =>
      rcases List.mem_cons.1 h with rfl | h
      · exact absurd Std.ReflCmp.compare_self hne
      · exact ih h

/-- A list with the entries of a map, in any order and any number of times, has its look-ups. -/
theorem find?_eq_get? {m : SortedMap κ ν} {l : List (κ × ν)} (h : ∀ e, e ∈ l ↔ e ∈ m.entries) (k : κ) :
    find? k l = m.get? k := by
  cases hfind : find? k l with
  | some v => exact ((get?_eq_some_iff m).2 ((h _).1 (mem_of_find?_eq_some hfind))).symm
  | none =>
    refine (Option.eq_none_iff_forall_ne_some.2 fun v hv => ?_).symm
    exact find?_ne_none_of_mem ((h (k, v)).2 ((get?_eq_some_iff m).1 hv)) hfind

/-- A map is the map of its entries. -/
theorem ofList_entries (m : SortedMap κ ν) : ofList m.entries = m :=
  ext_get? fun k => (get?_ofList m.entries k).trans (m.find?_reverse k)

end Lawful

theorem eq_empty_of_isEmpty {m : SortedMap κ ν} (h : m.isEmpty = true) : m = empty := by
  obtain ⟨entries, sorted⟩ := m
  obtain rfl : entries = [] := List.isEmpty_iff.1 h
  rfl

theorem keys_of_isEmpty {m : SortedMap κ ν} (h : m.isEmpty = true) : m.keys = [] := by
  rw [eq_empty_of_isEmpty h]
  rfl

theorem isEmpty_map {m : SortedMap κ ν} (h : m.isEmpty = true) (f : κ → ν → μ) : (m.map f).isEmpty = true := by
  rw [eq_empty_of_isEmpty h]
  rfl

theorem isEmpty_filter {m : SortedMap κ ν} (h : m.isEmpty = true) (f : κ → ν → Bool) :
    (m.filter f).isEmpty = true := by
  rw [eq_empty_of_isEmpty h]
  rfl

/-- Whether every entry passes a test. -/
def all (m : SortedMap κ ν) (p : κ → ν → Bool) : Bool := m.entries.all fun e => p e.1 e.2

end SortedMap

end Relay
