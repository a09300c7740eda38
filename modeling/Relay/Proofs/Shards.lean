import Mathlib.Data.List.Nodup
import Mathlib.Data.Nat.Basic
import Relay.Registry

/-!
# Every shard has one owner

The average strategy deals out shards by their number: the shards of the blocks stand in the order of the
instances, and behind all blocks the left-over shards stand in the same order. So the number of a shard alone
says at which place among the instances its owner stands (`Strategy.place`), and the coordinators of all
instances agree on it, whatever they were told before. A subscriber is provisioned by the owner of its shard
and by nobody else.
-/

namespace Relay

/-! ## Distinct instances -/

namespace Coordinator

variable {instances : List Instance} {x : Instance}

theorem distinct_foldl (instances seen : List Instance) (hseen : seen.Nodup) :
    let all := instances.foldl (fun seen x => if seen.contains x then seen else seen ++ [x]) seen
    all.Nodup ∧ ∀ x, x ∈ all ↔ x ∈ seen ∨ x ∈ instances := by
  induction instances generalizing seen with
  | nil => simp [hseen]
  | cons y rest ih =>
    rw [List.foldl_cons]
    by_cases hy : y ∈ seen
    · have hstay : (if seen.contains y then seen else seen ++ [y]) = seen := by simp [hy]
      rw [hstay]
      obtain ⟨hnodup, hmem⟩ := ih seen hseen
      refine ⟨hnodup, fun x => ?_⟩
      rw [hmem, List.mem_cons]
      constructor
      · rintro (hx | hx)
        · exact .inl hx
        · exact .inr (.inr hx)
      · rintro (hx | rfl | hx)
        · exact .inl hx
        · exact .inl hy
        · exact .inr hx
    · have hgrow : (if seen.contains y then seen else seen ++ [y]) = seen ++ [y] := by simp [hy]
      rw [hgrow]
      have hnodup : (seen ++ [y]).Nodup := by
        rw [List.nodup_append]
        exact ⟨hseen, by simp, by rintro a ha b hb rfl; exact hy (List.mem_singleton.1 hb ▸ ha)⟩
      obtain ⟨hnodup, hmem⟩ := ih (seen ++ [y]) hnodup
      refine ⟨hnodup, fun x => ?_⟩
      rw [hmem, List.mem_append, List.mem_singleton, List.mem_cons, or_assoc]

theorem nodup_distinct (instances : List Instance) : (distinct instances).Nodup :=
  (distinct_foldl instances [] .nil).1

theorem mem_distinct : x ∈ distinct instances ↔ x ∈ instances := by
  have hmem := (distinct_foldl instances [] .nil).2 x
  simpa [distinct] using hmem

theorem distinct_ne_nil (h : instances ≠ []) : distinct instances ≠ [] := by
  obtain ⟨x, hx⟩ := List.exists_mem_of_ne_nil _ h
  exact List.ne_nil_of_mem (mem_distinct.2 hx)

end Coordinator

/-! ## The place of a shard's owner -/

namespace Strategy

/-- The place of the owner of a shard among `n` instances: shards of the blocks are dealt out block by block,
those behind the blocks one by one. -/
def place (total n shard : Nat) : Nat :=
  if shard < n * (total / n) then shard / (total / n) else shard - n * (total / n)

theorem place_lt {total n shard : Nat} (hn : 0 < n) (h : shard < total) : place total n shard < n := by
  have hsum : n * (total / n) + total % n = total := Nat.div_add_mod total n
  have hrest : total % n < n := Nat.mod_lt total hn
  unfold place
  split
  · next hblock => exact Nat.div_lt_of_lt_mul (by rw [Nat.mul_comm]; exact hblock)
  · omega

/-- In numbers, the shards of the instance at a place are those whose owner stands there. -/
theorem place_eq_iff {total n i shard : Nat} (hi : i < n) :
    shard < total ∧ place total n shard = i ↔
      (i * (total / n) ≤ shard ∧ shard < (i + 1) * (total / n)) ∨
        (i < total % n ∧ shard = total / n * n + i) := by
  have hsum : n * (total / n) + total % n = total := Nat.div_add_mod total n
  have hrest : total % n < n := Nat.mod_lt total (by omega)
  have hcomm : total / n * n = n * (total / n) := Nat.mul_comm ..
  have hstop : (i + 1) * (total / n) ≤ n * (total / n) := Nat.mul_le_mul_right _ hi
  unfold place
  split
  · next hblock =>
    have hshare : 0 < total / n := Nat.pos_of_ne_zero fun h0 => by simp [h0] at hblock
    have hdiv : shard / (total / n) = i ↔ i * (total / n) ≤ shard ∧ shard < (i + 1) * (total / n) := by
      constructor
      · rintro rfl
        exact ⟨Nat.div_mul_le_self .., by rw [Nat.mul_comm]; exact Nat.lt_mul_div_succ shard hshare⟩
      · rintro ⟨hle, hlt⟩
        exact Nat.div_eq_of_lt_le hle hlt
    rw [hdiv]
    constructor
    · rintro ⟨-, h⟩
      exact .inl h
    · rintro (h | ⟨-, rfl⟩)
      · exact ⟨by omega, h⟩
      · omega
  · omega

/-- The numbers of the shards of the instance at a place: those of its block, and that of a left-over shard if
the instance is among the first. -/
def numbers (total n i : Nat) : List Nat :=
  List.range' (i * (total / n)) (total / n) ++ (if i < total % n then [total / n * n + i] else [])

theorem mem_numbers {total n i shard : Nat} (hi : i < n) :
    shard ∈ numbers total n i ↔ shard < total ∧ place total n shard = i := by
  have hstop : (i + 1) * (total / n) = i * (total / n) + total / n := Nat.succ_mul ..
  rw [place_eq_iff hi, numbers, List.mem_append, List.mem_range'_1, hstop]
  refine or_congr_right ?_
  by_cases hlt : i < total % n
  · rw [if_pos hlt, List.mem_singleton]
    exact ⟨fun h => ⟨hlt, h⟩, fun h => h.2⟩
  · rw [if_neg hlt]
    simp [hlt]

section Words

variable {total : UInt32} {n i : Nat}

/-- No block begins beyond the last shard, so the product is not too large for its type. -/
theorem toNat_first (hi : i ≤ n) (hn : n < UInt32.size) :
    (UInt32.ofNat i * (total / UInt32.ofNat n)).toNat = i * (total.toNat / n) := by
  have hblocks : n * (total.toNat / n) ≤ total.toNat := Nat.mul_div_le ..
  have hfirst : i * (total.toNat / n) ≤ n * (total.toNat / n) := Nat.mul_le_mul_right _ hi
  have htotal : total.toNat < UInt32.size := total.toNat_lt
  rw [UInt32.toNat_mul, UInt32.toNat_div, UInt32.toNat_ofNat_of_lt' hn,
    UInt32.toNat_ofNat_of_lt' (Nat.lt_of_le_of_lt hi hn)]
  exact Nat.mod_eq_of_lt (Nat.lt_of_le_of_lt (Nat.le_trans hfirst hblocks) htotal)

theorem ofNat_lt_mod (hi : i < n) (hn : n < UInt32.size) :
    UInt32.ofNat i < total % UInt32.ofNat n ↔ i < total.toNat % n := by
  rw [UInt32.lt_iff_toNat_lt, UInt32.toNat_mod, UInt32.toNat_ofNat_of_lt' hn,
    UInt32.toNat_ofNat_of_lt' (Nat.lt_trans hi hn)]

/-- A left-over shard is a shard, so its number is not too large for its type. -/
theorem toNat_leftOver (hi : i < n) (hn : n < UInt32.size) (hlt : i < total.toNat % n) :
    (total / UInt32.ofNat n * UInt32.ofNat n + UInt32.ofNat i).toNat = total.toNat / n * n + i := by
  have hsum : n * (total.toNat / n) + total.toNat % n = total.toNat := Nat.div_add_mod ..
  have hcomm : total.toNat / n * n = n * (total.toNat / n) := Nat.mul_comm ..
  have htotal : total.toNat < UInt32.size := total.toNat_lt
  rw [UInt32.toNat_add, UInt32.toNat_mul, UInt32.toNat_div, UInt32.toNat_ofNat_of_lt' hn,
    UInt32.toNat_ofNat_of_lt' (Nat.lt_trans hi hn)]
  rw [Nat.mod_eq_of_lt (show total.toNat / n * n < UInt32.size by omega)]
  exact Nat.mod_eq_of_lt (show total.toNat / n * n + i < UInt32.size by omega)

theorem ofNat_succ (hi : i < n) (hn : n < UInt32.size) : UInt32.ofNat i + 1 = UInt32.ofNat (i + 1) := by
  have hsucc : i + 1 < UInt32.size := Nat.lt_of_le_of_lt hi hn
  rw [← UInt32.toNat_inj, UInt32.toNat_add, UInt32.toNat_ofNat_of_lt' hsucc,
    UInt32.toNat_ofNat_of_lt' (Nat.lt_of_succ_lt hsucc)]
  exact Nat.mod_eq_of_lt hsucc

/-- The instance at a place has the shards of its numbers. -/
theorem averageShards_eq (total : UInt32) (hi : i < n) (hn : n < UInt32.size) :
    averageShards total (UInt32.ofNat n) (UInt32.ofNat i) = (numbers total.toNat n i).map UInt32.ofNat := by
  have hstop : (i + 1) * (total.toNat / n) - i * (total.toNat / n) = total.toNat / n := by
    rw [Nat.succ_mul, Nat.add_sub_cancel_left]
  simp only [averageShards, numbers, block, List.map_append, ofNat_succ hi hn,
    toNat_first (Nat.le_of_lt hi) hn, toNat_first (Nat.succ_le_of_lt hi) hn, hstop]
  congr 1
  by_cases hlt : i < total.toNat % n
  · rw [if_pos hlt, if_pos ((ofNat_lt_mod hi hn).2 hlt), List.map_singleton, ← toNat_leftOver hi hn hlt,
      UInt32.ofNat_toNat]
  · rw [if_neg hlt, if_neg (mt (ofNat_lt_mod hi hn).1 hlt)]
    rfl

/-- The instance at a place has the shards whose owner stands there. -/
theorem mem_averageShards {shard : UInt32} (hi : i < n) (hn : n < UInt32.size) :
    shard ∈ averageShards total (UInt32.ofNat n) (UInt32.ofNat i) ↔
      shard < total ∧ place total.toNat n shard.toNat = i := by
  rw [averageShards_eq total hi hn, List.mem_map, UInt32.lt_iff_toNat_lt, ← mem_numbers hi]
  constructor
  · rintro ⟨k, hk, rfl⟩
    have hlt : k < total.toNat := ((mem_numbers hi).1 hk).1
    rwa [UInt32.toNat_ofNat_of_lt' (Nat.lt_trans hlt total.toNat_lt)]
  · intro h
    exact ⟨shard.toNat, h, UInt32.ofNat_toNat⟩

end Words

/-- What the assignment gives to an instance that is listed once. -/
theorem shardsFor_assign {instances : List Instance} (hnodup : instances.Nodup) {total : UInt32} {i : Nat}
    {x : Instance} (hx : instances[i]? = some x) :
    (average.assign total instances).shardsFor x.id =
      averageShards total (UInt32.ofNat instances.length) (UInt32.ofNat i) := by
  obtain ⟨hi, hget⟩ := List.getElem?_eq_some_iff.1 hx
  have hne : instances.isEmpty = false := by
    cases instances with
    | nil => simp at hi
    | cons => rfl
  have hfind : (instances.zipIdx.map fun y =>
      (y.1, averageShards total (UInt32.ofNat instances.length) (UInt32.ofNat y.2))).find?
        (fun item => item.1.id == x.id) =
      some (x, averageShards total (UInt32.ofNat instances.length) (UInt32.ofNat i)) := by
    rw [List.find?_eq_some_iff_getElem]
    refine ⟨by simp, i, by simpa using hi, by simp [hget], fun j hj => ?_⟩
    have hother : instances[j] ≠ x := by
      intro heq
      have := (List.Nodup.getElem_inj_iff hnodup).1 (heq.trans hget.symm)
      omega
    simp only [List.getElem_map, List.getElem_zipIdx, Bool.not_eq_true', beq_eq_false_iff_ne, ne_eq]
    intro hid
    exact hother (by cases hj : instances[j]; cases x; simp_all)
  simp [assign, hne, Assignment.shardsFor, hfind]

/-- An instance that is not listed has no shards. -/
theorem shardsFor_assign_of_not_mem {instances : List Instance} {total : UInt32} {id : String}
    (h : ⟨id⟩ ∉ instances) : (average.assign total instances).shardsFor id = [] := by
  have hfind : ∀ items : List (Instance × List UInt32), (∀ item ∈ items, item.1 ∈ instances) →
      items.find? (fun item => item.1.id == id) = none := by
    intro items hitems
    rw [List.find?_eq_none]
    intro item hitem hid
    have hid : item.1.id = id := by simpa using hid
    exact h (hid ▸ hitems item hitem)
  unfold assign Assignment.shardsFor
  simp only
  split
  · rfl
  · rw [hfind]
    · rfl
    · intro item hitem
      obtain ⟨⟨x, i⟩, hx, rfl⟩ := List.mem_map.1 hitem
      exact List.fst_mem_of_mem_zipIdx hx

end Strategy

/-! ## Coordinators -/

namespace Coordinator

variable {total : UInt32} {id : String} {instances : List Instance} {x : Instance} {shard : UInt32}

/-- A coordinator that knows no instances yet. -/
def idle (strategy : Strategy) (total : UInt32) (id : String) : Coordinator := ⟨strategy, total, id, .empty⟩

/-- Of all the lists of instances that a coordinator took note of only the last one counts. -/
theorem foldl_update_append (c : Coordinator) (updates : List (List Instance)) (instances : List Instance) :
    (updates ++ [instances]).foldl update c = start c.strategy c.total c.instanceId instances := by
  have hsettings : ∀ updates : List (List Instance),
      (updates.foldl update c).strategy = c.strategy ∧ (updates.foldl update c).total = c.total ∧
        (updates.foldl update c).instanceId = c.instanceId := by
    intro updates
    induction updates generalizing c with
    | nil => exact ⟨rfl, rfl, rfl⟩
    | cons first rest ih => exact ih (c.update first)
  obtain ⟨hstrategy, htotal, hid⟩ := hsettings updates
  rw [List.foldl_append, List.foldl_cons, List.foldl_nil]
  simp only [update, start, hstrategy, htotal, hid]

/-- The instance of which a shard is, as long as there are instances. -/
def ownerOf (total : UInt32) (instances : List Instance) (shard : UInt32) : Instance :=
  let listed := distinct instances
  (listed[Strategy.place total.toNat listed.length shard.toNat]?).getD default

theorem getElem?_place (hne : instances ≠ []) (h : shard < total) :
    (distinct instances)[Strategy.place total.toNat (distinct instances).length shard.toNat]? =
      some (ownerOf total instances shard) := by
  have hpos : 0 < (distinct instances).length := List.length_pos_iff.2 (distinct_ne_nil hne)
  have hlt := Strategy.place_lt hpos (UInt32.lt_iff_toNat_lt.1 h)
  rw [ownerOf, List.getElem?_eq_getElem hlt]
  rfl

theorem ownerOf_mem (hne : instances ≠ []) (h : shard < total) : ownerOf total instances shard ∈ instances :=
  mem_distinct.1 (List.mem_of_getElem? (getElem?_place hne h))

/-- An instance has the shards it is the owner of. -/
theorem mem_owned_iff (hne : instances ≠ []) (hcount : (distinct instances).length < UInt32.size)
    (hx : x ∈ instances) :
    shard ∈ (start .average total x.id instances).owned ↔
      shard < total ∧ ownerOf total instances shard = x := by
  obtain ⟨i, hi, hget⟩ := List.getElem_of_mem (mem_distinct.2 hx)
  have hx : (distinct instances)[i]? = some x := by rw [List.getElem?_eq_getElem hi, hget]
  have howned : (start .average total x.id instances).owned =
      Strategy.averageShards total (UInt32.ofNat (distinct instances).length) (UInt32.ofNat i) :=
    Strategy.shardsFor_assign (nodup_distinct instances) hx
  rw [howned, Strategy.mem_averageShards hi hcount, and_congr_right_iff]
  intro hlt
  have hplace := getElem?_place hne hlt
  constructor
  · intro heq
    rw [heq, hx] at hplace
    exact (Option.some.inj hplace).symm
  · intro howner
    rw [howner, ← hx] at hplace
    exact (List.getElem?_inj hi (nodup_distinct instances)).1 hplace.symm |>.symm

theorem owned_of_not_mem (h : ⟨id⟩ ∉ instances) : (start .average total id instances).owned = [] :=
  Strategy.shardsFor_assign_of_not_mem (mt mem_distinct.1 h)

end Coordinator

theorem subscriberShard_lt {total : UInt32} (htotal : 1 ≤ total) (id : String) :
    subscriberShard id total < total := by
  have hpos : 0 < total := by
    rw [UInt32.le_iff_toNat_le] at htotal
    rw [UInt32.lt_iff_toNat_lt]
    exact htotal
  have hne : total ≠ 0 := by
    rintro rfl
    exact absurd hpos (by decide)
  rw [subscriberShard, if_neg hne]
  exact UInt32.mod_lt _ hpos

/-! ## Instances share the shards and the subscribers -/

open Coordinator in
/-- The coordinators of the listed instances, each after a history of its own that ends in one list, know what
a new coordinator would know. Their shards are disjoint and together all shards there are. Each registered
subscriber is left to one of them, with its pipeline, its place among the others and as often as it is
registered; an instance that is not listed is responsible for nobody. Matching sees every subscriber
everywhere. -/
theorem sharding_partitions (d : Directory) {total : UInt32} (htotal : 1 ≤ total) {instances : List Instance}
    (hne : instances ≠ []) (hcount : (distinct instances).length < UInt32.size)
    (history : String → List (List Instance)) :
    let coordinator (id : String) := (history id ++ [instances]).foldl update (idle .average total id)
    let view (id : String) := d.sharded (coordinator id)
    (∀ id, coordinator id = start .average total id instances) ∧
      (∀ x ∈ instances, ∀ y ∈ instances, x ≠ y → (coordinator x.id).owned.Disjoint (coordinator y.id).owned) ∧
      (∀ shard, (∃ x ∈ instances, shard ∈ (coordinator x.id).owned) ↔ shard < total) ∧
      (∃ owner : Subscriber → Instance, (∀ s, owner s ∈ instances) ∧
        ∀ x ∈ instances, ∀ pipeline,
          (view x.id).all.get? pipeline = (d.all.get? pipeline).map (·.filter fun s => owner s = x)) ∧
      (∀ id, (view id).all.keys = d.all.keys) ∧
      (∀ id, ⟨id⟩ ∉ instances → (coordinator id).owned = [] ∧
        ∀ pipeline, (view id).all.get? pipeline = (d.all.get? pipeline).map fun _ => []) ∧
      ∀ id pipeline, (view id).subscribers pipeline = d.subscribers pipeline := by
  intro coordinator view
  have hlast : ∀ id, coordinator id = start .average total id instances := fun id =>
    foldl_update_append (idle .average total id) (history id) instances
  have hall : ∀ id pipeline, (view id).all.get? pipeline = (d.all.get? pipeline).map
      (·.filter fun s => (start .average total id instances).owns s.id) := by
    intro id pipeline
    rw [← hlast]
    exact SortedMap.get?_map (fun _ subscribers => subscribers.filter fun s : Subscriber =>
      (coordinator id).owns s.id) d.all pipeline
  refine ⟨hlast, ?_, ?_, ?_, ?_, ?_, fun id pipeline => rfl⟩
  · intro x hx y hy hxy shard hshardx hshardy
    rw [hlast, mem_owned_iff hne hcount hx] at hshardx
    rw [hlast, mem_owned_iff hne hcount hy] at hshardy
    exact hxy (hshardx.2.symm.trans hshardy.2)
  · intro shard
    constructor
    · rintro ⟨x, hx, hshard⟩
      rw [hlast, mem_owned_iff hne hcount hx] at hshard
      exact hshard.1
    · intro hlt
      have hmem := ownerOf_mem hne hlt
      refine ⟨ownerOf total instances shard, hmem, ?_⟩
      rw [hlast, mem_owned_iff hne hcount hmem]
      exact ⟨hlt, rfl⟩
  · refine ⟨fun s => ownerOf total instances (subscriberShard s.id total), fun s => ?_, ?_⟩
    · exact ownerOf_mem hne (subscriberShard_lt htotal s.id)
    · intro x hx pipeline
      have howns : ∀ s : Subscriber, (start .average total x.id instances).owns s.id =
          decide (ownerOf total instances (subscriberShard s.id total) = x) := by
        intro s
        rw [Bool.eq_iff_iff, decide_eq_true_iff, owns, List.contains_iff_mem]
        have hmem : subscriberShard s.id total ∈ (start .average total x.id instances).owned ↔ _ :=
          mem_owned_iff hne hcount hx
        exact hmem.trans (and_iff_right (subscriberShard_lt htotal s.id))
      rw [hall]
      simp only [howns]
  · intro id
    show (d.all.map _).entries.map _ = _
    simp [SortedMap.map, SortedMap.keys, Function.comp_def]
  · intro id hid
    have hnone : (start .average total id instances).owned = [] := owned_of_not_mem hid
    refine ⟨by rw [hlast]; exact hnone, fun pipeline => ?_⟩
    rw [hall]
    simp only [owns, hnone, List.contains_nil, List.filter_false]

/-- Two instances share ten shards. One of them is listed twice, and their coordinators were told of another list
before. -/
theorem sharding_partitions_repeated :
    let earlier : List (List Instance) := [[⟨"c"⟩, ⟨"a"⟩]]
    let listed : List Instance := [⟨"a"⟩, ⟨"a"⟩, ⟨"b"⟩]
    let coordinator (id : String) :=
      (earlier ++ [listed]).foldl Coordinator.update (Coordinator.idle .average 10 id)
    (coordinator "a").owned = [0, 1, 2, 3, 4] ∧ (coordinator "b").owned = [5, 6, 7, 8, 9] ∧
      (∀ shard, (∃ x ∈ listed, shard ∈ (coordinator x.id).owned) ↔ shard < 10) ∧
      (coordinator "c").owned = [] := by
  intro earlier listed coordinator
  have hcount : (Coordinator.distinct listed).length < UInt32.size := by decide
  obtain ⟨-, -, hunion, -, -, hunlisted, -⟩ :=
    sharding_partitions Registry.empty.directory (show 1 ≤ (10 : UInt32) by decide)
      (show listed ≠ [] by decide) hcount fun _ => earlier
  exact ⟨by decide, by decide, hunion, (hunlisted "c" (by decide)).1⟩

end Relay
