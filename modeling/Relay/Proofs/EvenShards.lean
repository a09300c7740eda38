import Mathlib.Data.List.Nodup
import Relay.Proofs.Shards

/-!
# Shards are dealt out evenly

Every listed instance gets its shards in its own place of the list, also if a name is repeated. Each shard is
given away once, every instance has its shards in increasing order, and the first ones have at most one shard
more than the others. No sum and no product on the way leaves the range of its type: the same assignment comes
out where each of them has to be a word (`checkedShards`).
-/

namespace Relay.Strategy

/-! ## Arithmetic that has to stay within words -/

/-- The word of a number that is not too large. -/
def word? (k : Nat) : Option UInt32 := if k < UInt32.size then some (UInt32.ofNat k) else none

/-- The shards of the instance at a position, where every sum and product has to be a word. -/
def checkedShards (total n i : UInt32) : Option (List UInt32) := do
  let share := total / n
  let first ← word? (i.toNat * share.toNat)
  let next ← word? (i.toNat + 1)
  let stop ← word? (next.toNat * share.toNat)
  if i < total % n then
    let blocks ← word? (share.toNat * n.toNat)
    let leftOver ← word? (blocks.toNat + i.toNat)
    return block first stop ++ [leftOver]
  else
    return block first stop

variable {total : UInt32} {n i : Nat}

theorem word?_toNat (w : UInt32) : word? w.toNat = some w := by
  rw [word?, if_pos w.toNat_lt, UInt32.ofNat_toNat]

theorem checkedShards_eq (total : UInt32) (hi : i < n) (hn : n < UInt32.size) :
    checkedShards total (UInt32.ofNat n) (UInt32.ofNat i) =
      some (averageShards total (UInt32.ofNat n) (UInt32.ofNat i)) := by
  have hn32 : (UInt32.ofNat n).toNat = n := UInt32.toNat_ofNat_of_lt' hn
  have hi32 : (UInt32.ofNat i).toNat = i := UInt32.toNat_ofNat_of_lt' (Nat.lt_trans hi hn)
  have hnext32 : (UInt32.ofNat (i + 1)).toNat = i + 1 :=
    UInt32.toNat_ofNat_of_lt' (Nat.lt_of_le_of_lt hi hn)
  have hshare : (total / UInt32.ofNat n).toNat = total.toNat / n := by rw [UInt32.toNat_div, hn32]
  have hfirst : word? ((UInt32.ofNat i).toNat * (total / UInt32.ofNat n).toNat) =
      some (UInt32.ofNat i * (total / UInt32.ofNat n)) := by
    rw [hi32, hshare, ← toNat_first (Nat.le_of_lt hi) hn, word?_toNat]
  have hnext : word? ((UInt32.ofNat i).toNat + 1) = some (UInt32.ofNat (i + 1)) := by
    have hword := word?_toNat (UInt32.ofNat (i + 1))
    rw [hi32]
    rwa [hnext32] at hword
  have hstop : word? ((UInt32.ofNat (i + 1)).toNat * (total / UInt32.ofNat n).toNat) =
      some (UInt32.ofNat (i + 1) * (total / UInt32.ofNat n)) := by
    rw [hnext32, hshare, ← toNat_first (Nat.succ_le_of_lt hi) hn, word?_toNat]
  simp only [checkedShards, averageShards, ofNat_succ hi hn, hfirst, hnext, hstop, Option.bind_eq_bind,
    Option.bind_some]
  by_cases hlt : i < total.toNat % n
  · -- the blocks before a left-over shard are all shards but the left-over ones
    have hblocks : (total / UInt32.ofNat n * UInt32.ofNat n).toNat = total.toNat / n * n := by
      have hcomm : total / UInt32.ofNat n * UInt32.ofNat n = UInt32.ofNat n * (total / UInt32.ofNat n) :=
        UInt32.mul_comm ..
      rw [hcomm, toNat_first (Nat.le_refl n) hn, Nat.mul_comm]
    have hleft := toNat_leftOver hi hn hlt
    rw [if_pos ((ofNat_lt_mod hi hn).2 hlt), if_pos ((ofNat_lt_mod hi hn).2 hlt), hshare, hn32, ← hblocks,
      word?_toNat, Option.bind_some, hblocks, hi32, ← hleft, word?_toNat]
    rfl
  · rw [if_neg (mt (ofNat_lt_mod hi hn).1 hlt), if_neg (mt (ofNat_lt_mod hi hn).1 hlt), List.append_nil]
    rfl

/-! ## The numbers of all shards -/

theorem pairwise_numbers (total n i : Nat) (hi : i < n) : (numbers total n i).Pairwise (· < ·) := by
  rw [numbers, List.pairwise_append]
  refine ⟨List.pairwise_lt_range', ?_, ?_⟩
  · split
    · exact List.pairwise_singleton _ _
    · exact .nil
  · -- the block of an instance stands before all left-over shards
    intro a ha b hb
    have hstop : (i + 1) * (total / n) ≤ n * (total / n) := Nat.mul_le_mul_right _ hi
    have hsucc : (i + 1) * (total / n) = i * (total / n) + total / n := Nat.succ_mul ..
    have hcomm : total / n * n = n * (total / n) := Nat.mul_comm ..
    obtain ⟨-, ha⟩ := List.mem_range'_1.1 ha
    split at hb
    · obtain rfl := List.mem_singleton.1 hb
      omega
    · simp at hb

theorem length_numbers (total n i : Nat) :
    (numbers total n i).length = total / n + if i < total % n then 1 else 0 := by
  rw [numbers, List.length_append, List.length_range']
  split <;> rfl

theorem perm_numbers (total : Nat) (hn : 0 < n) :
    ((List.range n).flatMap (numbers total n)).Perm (List.range total) := by
  have hnodup : ((List.range n).flatMap (numbers total n)).Nodup := by
    refine List.nodup_flatMap.2 ⟨fun i hi => ?_, List.nodup_range.imp_of_mem fun hi hj hne => ?_⟩
    · exact (pairwise_numbers total n i (List.mem_range.1 hi)).imp Nat.ne_of_lt
    · intro shard hshard hshard'
      have hplace := ((mem_numbers (List.mem_range.1 hi)).1 hshard).2
      have hplace' := ((mem_numbers (List.mem_range.1 hj)).1 hshard').2
      exact hne (hplace.symm.trans hplace')
  refine (List.perm_ext_iff_of_nodup hnodup List.nodup_range).2 fun shard => ?_
  rw [List.mem_flatMap, List.mem_range]
  constructor
  · rintro ⟨i, hi, hshard⟩
    exact ((mem_numbers (List.mem_range.1 hi)).1 hshard).1
  · intro hlt
    have hplace := place_lt hn hlt
    exact ⟨place total n shard, List.mem_range.2 hplace, (mem_numbers hplace).2 ⟨hlt, rfl⟩⟩

/-! ## Assignments -/

theorem items_assign {instances : List Instance} (hne : instances ≠ []) (total : UInt32) :
    (average.assign total instances).items = instances.zipIdx.map fun y =>
      (y.1, averageShards total (UInt32.ofNat instances.length) (UInt32.ofNat y.2)) := by
  have hsome : instances.isEmpty = false := List.isEmpty_eq_false_iff.2 hne
  simp [assign, hsome]

/-- What the instances get, in their order. -/
theorem shards_assign {instances : List Instance} (hne : instances ≠ [])
    (hcount : instances.length < UInt32.size) (total : UInt32) :
    (average.assign total instances).items.map (·.2) =
      (List.range instances.length).map fun i =>
        (numbers total.toNat instances.length i).map UInt32.ofNat := by
  have hplaces : instances.zipIdx.map (·.2) = List.range instances.length := by
    rw [List.zipIdx_map_snd, List.range_eq_range']
  rw [items_assign hne, List.map_map, ← hplaces, List.map_map]
  refine List.map_congr_left fun y hy => ?_
  exact averageShards_eq total (List.snd_lt_of_mem_zipIdx hy) hcount

/-- Every instance has an item of its own, in the order of the list. The shards of all items together are the
shards below `total`, each once. Each item has its shards in increasing order; it has as many as the shortest
one or one more, and never more than an item before it. The same shards come out where every sum and product has
to be a word. -/
theorem assign_deals_evenly (total : UInt32) {instances : List Instance} (hne : instances ≠ [])
    (hcount : instances.length < UInt32.size) :
    let n := instances.length
    let items := (average.assign total instances).items
    let shards := items.map (·.2)
    items.map (·.1) = instances ∧
      shards.flatten.Perm ((List.range total.toNat).map UInt32.ofNat) ∧ shards.flatten.Nodup ∧
      (∀ given ∈ shards, given.Pairwise (· < ·)) ∧
      (∀ given ∈ shards, given.length = total.toNat / n ∨ given.length = total.toNat / n + 1) ∧
      (shards.map List.length).Pairwise (· ≥ ·) ∧
      (List.range n).map (fun i => checkedShards total (UInt32.ofNat n) (UInt32.ofNat i)) = shards.map some := by
  intro n items shards
  have hpos : 0 < n := List.length_pos_iff.2 hne
  have hshards : shards = (List.range n).map fun i => (numbers total.toNat n i).map UInt32.ofNat :=
    shards_assign hne hcount total
  have hword : ∀ i < n, ∀ k ∈ numbers total.toNat n i, (UInt32.ofNat k).toNat = k := by
    intro i hi k hk
    have hlt : k < total.toNat := ((mem_numbers hi).1 hk).1
    exact UInt32.toNat_ofNat_of_lt' (Nat.lt_trans hlt total.toNat_lt)
  have hgiven : ∀ given ∈ shards, ∃ i < n, (numbers total.toNat n i).map UInt32.ofNat = given := by
    intro given h
    rw [hshards, List.mem_map] at h
    obtain ⟨i, hi, hgiven⟩ := h
    exact ⟨i, List.mem_range.1 hi, hgiven⟩
  have hperm : shards.flatten.Perm ((List.range total.toNat).map UInt32.ofNat) := by
    have hflat : shards.flatten = ((List.range n).flatMap (numbers total.toNat n)).map UInt32.ofNat := by
      rw [hshards, List.map_flatMap, List.flatMap_def]
    rw [hflat]
    exact (perm_numbers total.toNat hpos).map UInt32.ofNat
  refine ⟨?_, hperm, ?_, ?_, ?_, ?_, ?_⟩
  · show items.map (·.1) = instances
    rw [show items = _ from items_assign hne total, List.map_map]
    exact List.zipIdx_map_fst 0 instances
  · -- numbers below the total are told apart by their words
    refine hperm.nodup_iff.2 (List.Nodup.map_on ?_ List.nodup_range)
    intro k hk k' hk' heq
    have htotal : total.toNat < UInt32.size := total.toNat_lt
    have hnat := congrArg UInt32.toNat heq
    rwa [UInt32.toNat_ofNat_of_lt' (Nat.lt_trans (List.mem_range.1 hk) htotal),
      UInt32.toNat_ofNat_of_lt' (Nat.lt_trans (List.mem_range.1 hk') htotal)] at hnat
  · intro given h
    obtain ⟨i, hi, rfl⟩ := hgiven given h
    refine List.pairwise_map.2 ((pairwise_numbers total.toNat n i hi).imp_of_mem fun hk hk' hlt => ?_)
    rwa [UInt32.lt_iff_toNat_lt, hword i hi _ hk, hword i hi _ hk']
  · intro given h
    obtain ⟨i, -, rfl⟩ := hgiven given h
    rw [List.length_map, length_numbers]
    split
    · exact .inr rfl
    · exact .inl rfl
  · rw [hshards, List.map_map]
    refine List.pairwise_map.2 (List.pairwise_lt_range.imp fun {i j} hlt => ?_)
    show (List.map _ _).length ≥ (List.map _ _).length
    rw [List.length_map, List.length_map, length_numbers, length_numbers]
    split <;> split <;> omega
  · rw [hshards, List.map_map]
    refine List.map_congr_left fun i hi => ?_
    have hi : i < n := List.mem_range.1 hi
    rw [checkedShards_eq total hi hcount, averageShards_eq total hi hcount]
    rfl

/-- Ten shards among four instances, of which two have one name. -/
theorem deals_evenly_repeated :
    let listed : List Instance := [⟨"a"⟩, ⟨"b"⟩, ⟨"a"⟩, ⟨"c"⟩]
    let items := (average.assign 10 listed).items
    items.map (·.2) = [[0, 1, 8], [2, 3, 9], [4, 5], [6, 7]] ∧ items.map (·.1) = listed ∧
      (items.map (·.2)).flatten.Perm ((List.range 10).map UInt32.ofNat) ∧
      (List.range 4).map (fun i => checkedShards 10 4 (UInt32.ofNat i)) = (items.map (·.2)).map some := by
  intro listed items
  obtain ⟨hinstances, hperm, -, -, -, -, hchecked⟩ :=
    assign_deals_evenly 10 (show listed ≠ [] by decide) (show listed.length < UInt32.size by decide)
  exact ⟨by decide, hinstances, hperm, hchecked⟩

end Relay.Strategy
