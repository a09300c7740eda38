import Relay.Tracker

/-!
# Offsets as partition lists

Offsets are handed to the group coordinator in the partition lists of a client library, and in such lists the
coordinator names the partitions that it takes away. Of the library little is known: it keeps what is added in order,
and it refuses negative offsets (`PartitionLists.Lawful`). That is enough for a list to name the same partitions in
both directions. What was written into a list can be read back, and if the list is revoked, the tracker forgets the
partitions of the offsets that it was made of, and no other.
-/

namespace Relay

namespace PartitionLists

variable {L : Type} {lib : PartitionLists L}

/-- What is promised of a library. Of a partition that is already in the list nothing is promised, except that a
negative offset is refused. -/
structure Lawful (lib : PartitionLists L) : Prop where
  elements_empty : ∀ n, lib.elements (lib.empty n) = []
  add_new : ∀ list topic number offset, 0 ≤ number → 0 ≤ offset →
    (∀ e ∈ lib.elements list, e.topic = topic → e.number ≠ number) →
    ∃ list', lib.add list topic number offset = .ok list' ∧
      lib.elements list' = lib.elements list ++ [⟨topic, number, offset⟩]
  add_negative : ∀ list topic number offset, offset < 0 → ∃ reason, lib.add list topic number offset = .error reason

/-! ## Writing a list -/

theorem put_new (hlib : lib.Lawful) {list : L} {e : Partition × Int} (hnumber : 0 ≤ e.1.number) (hoffset : 0 ≤ e.2)
    (hnew : ∀ c ∈ lib.read list, c.partition ≠ e.1) :
    ∃ list', lib.put list e = .ok list' ∧ lib.read list' = lib.read list ++ [⟨e.1, e.2⟩] := by
  have hother : ∀ x ∈ lib.elements list, x.topic = e.1.topic → x.number ≠ e.1.number := by
    intro x hx htopic hnum
    have hmem : x.coordinates ∈ lib.read list := List.mem_map_of_mem hx
    refine hnew _ hmem ?_
    show Partition.mk x.topic x.number = e.1
    rw [htopic, hnum]
  obtain ⟨list', hadd, helements⟩ := hlib.add_new list e.1.topic e.1.number e.2 hnumber hoffset hother
  refine ⟨list', ?_, ?_⟩
  · rw [put, hadd]
    rfl
  · rw [read, helements, List.map_append]
    rfl

/-- Entries of different partitions that are not in a list come to stand behind it, in their order. -/
theorem foldlM_put (hlib : lib.Lawful) {entries : List (Partition × Int)} {list : L}
    (hnumbers : ∀ e ∈ entries, 0 ≤ e.1.number) (hoffsets : ∀ e ∈ entries, 0 ≤ e.2)
    (hdistinct : (entries.map (·.1)).Nodup) (hnew : ∀ c ∈ lib.read list, ∀ e ∈ entries, c.partition ≠ e.1) :
    ∃ list', entries.foldlM lib.put list = .ok list' ∧
      lib.read list' = lib.read list ++ entries.map fun e => ⟨e.1, e.2⟩ := by
  induction entries generalizing list with
  | nil => exact ⟨list, rfl, by simp⟩
  | cons e rest ih =>
    obtain ⟨hnumber, hnumbers⟩ := List.forall_mem_cons.1 hnumbers
    obtain ⟨hoffset, hoffsets⟩ := List.forall_mem_cons.1 hoffsets
    obtain ⟨hfirst, hdistinct⟩ := List.nodup_cons.1 hdistinct
    obtain ⟨list₁, hput, hread⟩ := put_new hlib hnumber hoffset fun c hc => hnew c hc e List.mem_cons_self
    -- No later entry is for a partition of the list as it is now.
    have hnew₁ : ∀ c ∈ lib.read list₁, ∀ e' ∈ rest, c.partition ≠ e'.1 := by
      intro c hc e' he'
      rw [hread] at hc
      rcases List.mem_append.1 hc with hc | hc
      · exact hnew c hc e' (List.mem_cons_of_mem _ he')
      · obtain rfl := List.mem_singleton.1 hc
        intro heq
        exact hfirst (List.mem_map.2 ⟨e', he', heq.symm⟩)
    obtain ⟨list₂, hfold, hread₂⟩ := ih hnumbers hoffsets hdistinct hnew₁
    refine ⟨list₂, ?_, ?_⟩
    · rw [List.foldlM_cons, hput]
      exact hfold
    · rw [hread₂, hread, List.append_assoc, List.map_cons, List.singleton_append]

/-- A negative offset is refused wherever it stands. -/
theorem foldlM_put_negative (hlib : lib.Lawful) {entries : List (Partition × Int)} (list : L)
    (h : ∃ e ∈ entries, e.2 < 0) : ∃ reason, entries.foldlM lib.put list = .error (.commit reason) := by
  induction entries generalizing list with
  | nil => simp at h
  | cons e rest ih =>
    rw [List.foldlM_cons, put]
    cases hadd : lib.add list e.1.topic e.1.number e.2 with
    | error reason => exact ⟨reason, rfl⟩
    | ok list₁ =>
      -- The first entry was accepted, so the negative one comes later.
      have hlater : ∃ e' ∈ rest, e'.2 < 0 := by
        obtain ⟨e', he', hneg⟩ := h
        rcases List.mem_cons.1 he' with rfl | he'
        · obtain ⟨reason, hrefused⟩ := hlib.add_negative list e'.1.topic e'.1.number e'.2 hneg
          rw [hadd] at hrefused
          simp at hrefused
        · exact ⟨e', he', hneg⟩
      exact ih list₁ hlater

/-- With nothing in the list before, the entries of offsets are what the list says. -/
theorem ofOffsets_of_nonneg (hlib : lib.Lawful) {offsets : Offsets} (hnumbers : ∀ e ∈ offsets.entries, 0 ≤ e.1.number)
    (hoffsets : ∀ e ∈ offsets.entries, 0 ≤ e.2) :
    ∃ list, lib.ofOffsets offsets = .ok list ∧ lib.read list = offsets.entries.map fun e => ⟨e.1, e.2⟩ := by
  have hempty : lib.read (lib.empty offsets.size) = [] := by rw [read, hlib.elements_empty, List.map_nil]
  have hnew : ∀ c ∈ lib.read (lib.empty offsets.size), ∀ e ∈ offsets.entries, c.partition ≠ e.1 := by
    intro c hc
    rw [hempty] at hc
    simp at hc
  obtain ⟨list, hfold, hread⟩ := foldlM_put hlib hnumbers hoffsets offsets.nodup_keys hnew
  rw [hempty, List.nil_append] at hread
  exact ⟨list, hfold, hread⟩

/-! ## Plain lists -/

/-- Lists that hold their elements as they are. -/
def plain : PartitionLists (List Coordinates) where
  empty _ := []
  add list topic number offset :=
    if offset < 0 then .error "negative offset" else .ok (list ++ [⟨⟨topic, number⟩, offset⟩])
  elements list := list.map fun c => ⟨c.partition.topic, c.partition.number, c.offset⟩

theorem lawful_plain : plain.Lawful where
  elements_empty _ := rfl
  add_new list topic number offset _ hoffset _ := by
    refine ⟨_, if_neg (by omega), ?_⟩
    simp [plain]
  add_negative _ _ _ offset hoffset := ⟨_, if_pos hoffset⟩

theorem read_plain (list : List Coordinates) : plain.read list = list := by
  simp [read, plain, Function.comp_def, Listed.coordinates]

/-- An entry as it stands in the list of a commit. -/
def entry (e : Partition × Int) : Except AckError Coordinates :=
  if e.2 < 0 then .error (.commit "negative offset") else .ok ⟨e.1, e.2⟩

theorem put_plain (list : List Coordinates) (e : Partition × Int) :
    plain.put list e = (entry e).map fun c => list ++ [c] := by
  unfold put entry plain
  by_cases he : e.2 < 0
  · simp only [if_pos he]
    rfl
  · simp only [if_neg he]
    rfl

theorem foldlM_put_plain (entries : List (Partition × Int)) (list : List Coordinates) :
    entries.foldlM plain.put list = (entries.mapM entry).map (list ++ ·) := by
  induction entries generalizing list with
  | nil =>
    show Except.ok list = Except.ok (list ++ [])
    rw [List.append_nil]
  | cons e rest ih =>
    rw [List.foldlM_cons, List.mapM_cons, put_plain]
    cases entry e with
    | error reason => rfl
    | ok c =>
      show rest.foldlM plain.put (list ++ [c]) = _
      rw [ih]
      cases rest.mapM entry with
      | error reason => rfl
      | ok later =>
        show Except.ok (list ++ [c] ++ later) = Except.ok (list ++ c :: later)
        rw [List.append_assoc, List.singleton_append]

/-- The list of a commit is made in this way, of plain lists. -/
theorem commitList_eq (offsets : Offsets) : offsets.commitList = plain.ofOffsets offsets := by
  have hmap : offsets.commitList = offsets.entries.mapM entry := rfl
  rw [ofOffsets, foldlM_put_plain, hmap]
  cases offsets.entries.mapM entry <;> rfl

end PartitionLists

/-! ## Revoked lists -/

/-- Of a revoked list every partition is forgotten, and no other. -/
theorem Tracker.get?_revoked (t : Tracker) (list : List Coordinates) (p : Partition) :
    (t.notice (.revoked list)).get? p = if p ∈ list.map (·.partition) then none else t.get? p := by
  simp only [notice]
  induction list generalizing t with
  | nil => rfl
  | cons c rest ih =>
    rw [List.foldl_cons, ih, get?_clear]
    by_cases hrest : p ∈ rest.map (·.partition)
    · simp [hrest]
    · by_cases hc : c.partition = p
      · simp [hc]
      · have hne : p ≠ c.partition := fun heq => hc heq.symm
        simp [hrest, hc, hne]

/-! ## Both directions -/

open PartitionLists

/-- In any library, offsets of which none is negative become a list with one element for each entry, in partition order;
what it says is the list of the commit, and read back it gives the offsets again. If the list is revoked, the partitions
of the offsets are forgotten and every other one keeps its offset. With a negative offset there is no list. Assigned
partitions and failures change nothing. -/
theorem listed_both_ways {L : Type} {lib : PartitionLists L} (hlib : lib.Lawful) (offsets : Offsets)
    (hnumbers : ∀ e ∈ offsets.entries, 0 ≤ e.1.number) :
    ((∀ e ∈ offsets.entries, 0 ≤ e.2) →
      ∃ list, lib.ofOffsets offsets = .ok list ∧ offsets.commitList = .ok (lib.read list) ∧
        (lib.read list).map (fun c => (c.partition, c.offset)) = offsets.entries ∧
        SortedMap.ofList ((lib.read list).map fun c => (c.partition, c.offset)) = offsets ∧
        ∀ (t : Tracker) p,
          (t.notice (.revoked (lib.read list))).get? p = if offsets.get? p = none then t.get? p else none) ∧
    ((∃ e ∈ offsets.entries, e.2 < 0) →
      (∃ reason, lib.ofOffsets offsets = .error (.commit reason)) ∧
        ∃ reason, offsets.commitList = .error (.commit reason)) ∧
    ∀ (t : Tracker) (list : L), t.notice (.assigned (lib.read list)) = t ∧ t.notice .failed = t := by
  refine ⟨fun hoffsets => ?_, fun hnegative => ?_, fun t list => ⟨rfl, rfl⟩⟩
  · obtain ⟨list, hlist, hread⟩ := ofOffsets_of_nonneg hlib hnumbers hoffsets
    obtain ⟨coordinates, hplain, hsame⟩ := ofOffsets_of_nonneg lawful_plain hnumbers hoffsets
    rw [read_plain, ← hread] at hsame
    have hback : (lib.read list).map (fun c => (c.partition, c.offset)) = offsets.entries := by
      simp [hread, Function.comp_def]
    refine ⟨list, hlist, by rw [commitList_eq, hplain, hsame], hback, by rw [hback, SortedMap.ofList_entries], ?_⟩
    intro t p
    -- The partitions that the list names are the keys of the offsets.
    have hkeys : (lib.read list).map (·.partition) = offsets.keys := by simp [hread, SortedMap.keys]
    have hnamed : p ∈ (lib.read list).map (·.partition) ↔ offsets.get? p ≠ none := by
      rw [hkeys, SortedMap.mem_keys_iff]
    rw [Tracker.get?_revoked]
    by_cases hp : offsets.get? p = none
    · have hout : p ∉ (lib.read list).map (·.partition) := fun h => hnamed.1 h hp
      rw [if_neg hout, if_pos hp]
    · rw [if_pos (hnamed.2 hp), if_neg hp]
  · refine ⟨foldlM_put_negative hlib _ hnegative, ?_⟩
    rw [commitList_eq]
    exact foldlM_put_negative lawful_plain _ hnegative

/-- Of three partitions with committed offsets two are listed for a commit, and then revoked with that list. -/
theorem listed_and_revoked :
    let p : Partition := ⟨"events", 0⟩
    let q : Partition := ⟨"events", 3⟩
    let r : Partition := ⟨"aux", 1⟩
    let offsets : Offsets := .ofList [(p, 8), (r, 0)]
    let t : Tracker := ⟨.ofList [(p, 8), (q, 120), (r, 5)]⟩
    offsets.commitList = .ok [⟨r, 0⟩, ⟨p, 8⟩] ∧
      (t.notice (.revoked [⟨r, 0⟩, ⟨p, 8⟩])).get? p = none ∧ (t.notice (.revoked [⟨r, 0⟩, ⟨p, 8⟩])).get? r = none ∧
      (t.notice (.revoked [⟨r, 0⟩, ⟨p, 8⟩])).get? q = some 120 ∧
      ∃ reason, Offsets.commitList (.ofList [(p, 8), (q, -5)]) = .error (.commit reason) := by
  intro p q r offsets t
  obtain ⟨hlisted, -⟩ := listed_both_ways lawful_plain offsets (by decide)
  obtain ⟨list, -, hcommit, -, -, hrevoked⟩ := hlisted (by decide)
  rw [read_plain] at hcommit hrevoked
  obtain ⟨-, hrefused, -⟩ := listed_both_ways lawful_plain (.ofList [(p, 8), (q, -5)]) (by decide)
  obtain ⟨-, hreason⟩ := hrefused (by decide)
  obtain rfl : [⟨r, 0⟩, ⟨p, 8⟩] = list := by
    have hentries : offsets.entries = [(r, 0), (p, 8)] := by decide
    rw [Offsets.commitList, hentries] at hcommit
    exact Except.ok.inj hcommit
  exact ⟨hcommit, (hrevoked t p).trans (by decide), (hrevoked t r).trans (by decide), (hrevoked t q).trans (by decide),
    hreason⟩

end Relay
