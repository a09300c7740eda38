import Relay.Proofs.Masks

/-!
# Masks along members

Of the masks that lead through members of objects only, none can make another one miss its part. So it does not matter
in which order they come, how often, or from which policy, and once they are applied there is nothing left for them.
-/

namespace Relay.Json

/-- Whether the keys of one pointer are the first keys of another. -/
def Pointer.Covers (m q : String) : Prop := ∃ ks ∈ keys? m.toList, ∃ ks' ∈ keys? q.toList, ks <+: ks'

instance (m q : String) : Decidable (Pointer.Covers m q) :=
  inferInstanceAs (Decidable (∃ ks ∈ Pointer.keys? m.toList, ∃ ks' ∈ Pointer.keys? q.toList, ks <+: ks'))

theorem Pointer.keys?_ne_nil {m : String} {ks : List String} (hm : m ≠ "") (h : keys? m.toList = some ks) : ks ≠ [] := by
  rintro rfl
  cases hcs : m.toList with
  | nil => exact hm (String.toList_eq_nil_iff.1 hcs)
  | cons c cs =>
    rw [hcs, keys?] at h
    split at h
    · exact split_ne_nil cs (List.map_eq_nil_iff.1 (Option.some.inj h))
    · simp at h

/-- Steps into members do not move anything. -/
theorem Position.not_shifts_keys (ks : List String) (p : Position) : Shifts (ks.map .key) p = false := by
  induction ks generalizing p with
  | nil => simp [Shifts]
  | cons k ks ih => cases p <;> simp [Shifts, ih]

namespace Positions

/-- All positions of a set lead through members only. -/
def KeysOnly (gone : Positions) : Prop := ∀ p, gone p = true → ∃ ks : List String, p = ks.map .key

variable {gone : Positions}

theorem KeysOnly.item (h : gone.KeysOnly) (i : Nat) : gone [.item i] = false := by
  cases hgone : gone [.item i] with
  | false => rfl
  | true =>
    obtain ⟨ks, hks⟩ := h _ hgone
    cases ks <;> simp at hks

theorem KeysOnly.below (h : gone.KeysOnly) (s : Step) : (gone.below s).KeysOnly := by
  intro p hp
  obtain ⟨ks, hks⟩ := h _ hp
  cases ks with
  | nil => simp at hks
  | cons k ks => exact ⟨ks, (List.cons.inj hks).2⟩

theorem KeysOnly.steady (h : gone.KeysOnly) (p : Position) : gone.Steady p := by
  intro q hq hshifts
  obtain ⟨ks, rfl⟩ := h q hq
  rw [Position.not_shifts_keys] at hshifts
  simp at hshifts

end Positions

namespace Value

open Positions

/-- Whether a value has no parts, being neither a list nor an object. -/
def isScalar : Value → Bool
  | .list _ | .object _ => false
  | _ => true

/-- Whether a value is a list. -/
def isList : Value → Bool
  | .list _ => true
  | _ => false

/-- No key is looked up in a list. -/
def AvoidsLists (v : Value) (ks : List String) : Prop :=
  ∀ before k after, ks = before ++ k :: after → ∀ items, v.atPath? before ≠ some (.list items)

/-- A pointer that is not empty and of which no token is looked up in a list. -/
def ByKeys (v : Value) (m : String) : Prop := m ≠ "" ∧ ∀ ks ∈ Pointer.keys? m.toList, v.AvoidsLists ks

/-- The same key by key. -/
def avoidsLists (v : Value) : List String → Bool
  | [] => true
  | k :: ks => !v.isList && (v.child? k).all fun c => c.avoidsLists ks

section Keys

variable {v c : Value} {gone : Positions} {k k' : String} {ks ks' : List String} {p : Position}
  {read : String → Option Nat}

theorem AvoidsLists.here (h : v.AvoidsLists (k :: ks)) : v.isList = false := by
  cases v with
  | list items => exact absurd rfl (h [] k ks rfl items)
  | object _ | null | bool _ | number _ | text _ => rfl

theorem AvoidsLists.there (h : v.AvoidsLists (k :: ks)) (hc : v.child? k = some c) : c.AvoidsLists ks := by
  rintro before k' after rfl items hitems
  refine h (k :: before) k' after rfl items ?_
  rw [atPath?, hc]
  exact hitems

theorem AvoidsLists.cons (hv : v.isList = false) (h : ∀ c, v.child? k = some c → c.AvoidsLists ks) :
    v.AvoidsLists (k :: ks) := by
  intro before k' after hks items hitems
  cases before with
  | nil =>
    obtain rfl := Option.some.inj hitems
    simp [isList] at hv
  | cons k₁ before =>
    obtain ⟨rfl, hrest⟩ := List.cons.inj hks
    obtain ⟨c, hc, hlist⟩ := Option.bind_eq_some_iff.1 hitems
    exact h c hc before k' after hrest items hlist

theorem avoidsLists_iff : v.avoidsLists ks = true ↔ v.AvoidsLists ks := by
  induction ks generalizing v with
  | nil => exact iff_of_true rfl fun before k after h => by simp at h
  | cons k ks ih =>
    rw [avoidsLists, Bool.and_eq_true, Bool.not_eq_true']
    constructor
    · rintro ⟨hv, hchild⟩
      exact .cons hv fun c hc => ih.1 (by simpa [hc] using hchild)
    · intro h
      refine ⟨h.here, ?_⟩
      cases hc : v.child? k with
      | none => rfl
      | some c => exact ih.2 (h.there hc)

instance (v : Value) (ks : List String) : Decidable (v.AvoidsLists ks) := decidable_of_iff _ avoidsLists_iff

instance (v : Value) (m : String) : Decidable (v.ByKeys m) :=
  inferInstanceAs (Decidable (m ≠ "" ∧ ∀ ks ∈ Pointer.keys? m.toList, v.AvoidsLists ks))

theorem step?_of_not_list (h : v.isList = false) (read : String → Option Nat) (k : String) :
    v.step? read k = (v.child? k).map fun _ => .key k := by
  cases v with
  | list items => simp [isList] at h
  | object _ | null | bool _ | number _ | text _ => rfl

theorem key_of_step? (h : v.step? read k' = some (.key k)) : k = k' := by
  cases v with
  | object ms =>
    obtain ⟨_, -, hk⟩ := Option.map_eq_some_iff.1 h
    exact (Step.key.inj hk).symm
  | list items =>
    obtain ⟨i, -, hi⟩ := Option.bind_eq_some_iff.1 h
    split at hi <;> simp at hi
  | null | bool _ | number _ | text _ => simp [step?] at h

theorem part?_of_not_list (h : v.isList = false) (k : String) : v.part? (.key k) = v.child? k := by
  cases v with
  | list items => simp [isList] at h
  | object _ | null | bool _ | number _ | text _ => rfl

theorem position?_of_not_list (h : v.isList = false) (k : String) (ks : List String) :
    v.position? (k :: ks) = (v.child? k).bind fun c => (c.position? ks).map (.key k :: ·) := by
  rw [position?, step?_of_not_list h]
  cases hc : v.child? k with
  | none => rfl
  | some c => simp only [Option.map_some, Option.bind_some, part?_of_not_list h, hc]

theorem removed?_of_not_list (h : v.isList = false) (k k' : String) (ks : List String) :
    v.removed? (k :: k' :: ks) = (v.child? k).bind fun c => (c.removed? (k' :: ks)).map (.key k :: ·) := by
  rw [removed?, step?_of_not_list h]
  cases hc : v.child? k with
  | none => rfl
  | some c => simp only [Option.map_some, Option.bind_some, part?_of_not_list h, hc]

/-- Keys that are looked up in objects only lead through the members with these keys. -/
theorem position?_of_avoidsLists (h : v.AvoidsLists ks) (hp : v.position? ks = some p) : p = ks.map .key := by
  induction ks generalizing v p with
  | nil => exact (Option.some.inj hp).symm
  | cons k ks ih =>
    rw [position?_of_not_list h.here] at hp
    obtain ⟨c, hc, hp⟩ := Option.bind_eq_some_iff.1 hp
    obtain ⟨p, hrest, rfl⟩ := Option.map_eq_some_iff.1 hp
    rw [ih (h.there hc) hrest, List.map_cons]

/-- How indices are written does not matter where there are none. -/
theorem removed?_of_avoidsLists (h : v.AvoidsLists ks) (hks : ks ≠ []) : v.removed? ks = v.position? ks := by
  induction ks generalizing v with
  | nil => exact absurd rfl hks
  | cons k ks ih =>
    rw [position?_of_not_list h.here]
    cases ks with
    | nil =>
      rw [removed?, step?_of_not_list h.here]
      cases v.child? k <;> rfl
    | cons k' ks =>
      rw [removed?_of_not_list h.here]
      cases hc : v.child? k with
      | none => rfl
      | some c => rw [Option.bind_some, Option.bind_some, ih (h.there hc) (by simp)]

/-- Where only members are removed, keys lead where they led before, or nowhere. -/
theorem position?_strip (hgone : gone.KeysOnly) (v : Value) (ks : List String) :
    (v.strip gone).position? ks = (v.position? ks).filter gone.spares := by
  induction ks generalizing v gone with
  | nil => rfl
  | cons k ks ih =>
    -- no item goes, so none can move up to the one that a key leads to
    have hstep : (v.strip gone).step? Pointer.index? k = (v.step? Pointer.index? k).filter fun s => !gone [s] :=
      step?_strip fun _ _ j _ => hgone.item j
    rw [position?, position?, hstep]
    cases hs : v.step? Pointer.index? k with
    | none => rfl
    | some s =>
      obtain ⟨c, hc⟩ := exists_part_of_step? hs
      cases hstays : gone [s] with
      | true =>
        simp only [Option.filter, hstays, Option.bind_some, hc]
        cases c.position? ks <;> simp [spares, hstays]
      | false =>
        have hpart := part?_strip (v := v) hstays fun _ _ j _ => hgone.item j
        simp only [Option.filter, hstays, Bool.not_false, if_true, Option.bind_some, hpart, hc, Option.map_some,
          ih (hgone.below s)]
        cases c.position? ks with
        | none => rfl
        | some p => by_cases hp : (gone.below s).spares p = true <;> simp [spares, hstays, hp]

/-- A part that stands behind a member was reached by the key of the member. -/
theorem prefix_of_position? (hp : v.position? ks' = some p) (h : ks.map Step.key <+: p) : ks <+: ks' := by
  induction ks generalizing v ks' p with
  | nil => exact List.nil_prefix
  | cons k ks ih =>
    cases ks' with
    | nil =>
      obtain rfl := Option.some.inj hp
      simp at h
    | cons k' ks' =>
      obtain ⟨s, hs, hp⟩ := Option.bind_eq_some_iff.1 hp
      obtain ⟨c, hc, hp⟩ := Option.bind_eq_some_iff.1 hp
      obtain ⟨p, hrest, rfl⟩ := Option.map_eq_some_iff.1 hp
      obtain ⟨rfl, hprefix⟩ := List.cons_prefix_cons.1 h
      rw [key_of_step? hs]
      exact List.cons_prefix_cons.2 ⟨rfl, ih hrest hprefix⟩

theorem isScalar_strip (gone : Positions) (v : Value) : (v.strip gone).isScalar = v.isScalar := by
  cases v <;> simp only [strip, isScalar]

theorem strip_of_isScalar (gone : Positions) (h : v.isScalar = true) : v.strip gone = v := by
  cases v with
  | list _ | object _ => simp [isScalar] at h
  | null | bool _ | number _ | text _ => rw [strip] <;> simp

theorem strip_eq_iff_of_isScalar (gone : Positions) (v : Value) {x : Value} (hx : x.isScalar = true) :
    v.strip gone = x ↔ v = x := by
  constructor
  · rintro rfl
    rw [isScalar_strip] at hx
    exact (strip_of_isScalar gone hx).symm
  · rintro rfl
    exact strip_of_isScalar gone hx

end Keys

/-! ## Sets of masks -/

section Sets

variable {v : Value} {ms ms' : List String} {m q : String} {p : Position}

theorem ByKeys.position (h : v.ByKeys m) (hp : v.address? m = some p) :
    ∃ ks, Pointer.keys? m.toList = some ks ∧ ks ≠ [] ∧ p = ks.map .key := by
  obtain ⟨ks, hks, hp⟩ := Option.bind_eq_some_iff.1 hp
  exact ⟨ks, hks, Pointer.keys?_ne_nil h.1 hks, position?_of_avoidsLists (h.2 ks hks) hp⟩

theorem ByKeys.target?_eq (h : v.ByKeys m) : v.target? m = v.address? m := by
  unfold target? address?
  cases hks : Pointer.keys? m.toList with
  | none => rfl
  | some ks => exact removed?_of_avoidsLists (h.2 ks hks) (Pointer.keys?_ne_nil h.1 hks)

theorem mem_addressed : v.addressed ms p = true ↔ ∃ m ∈ ms, v.address? m = some p := by
  simp only [addressed, only, List.any_eq_true, decide_eq_true_eq]

theorem addressed_congr (h : ∀ m, m ∈ ms' ↔ m ∈ ms) : v.addressed ms' = v.addressed ms := by
  funext p
  rw [Bool.eq_iff_iff, mem_addressed, mem_addressed]
  simp only [h]

variable (hms : ∀ m ∈ ms, v.ByKeys m)
include hms

theorem keysOnly_addressed : (v.addressed ms).KeysOnly := by
  intro p hp
  obtain ⟨m, hm, hp⟩ := mem_addressed.1 hp
  obtain ⟨ks, -, -, rfl⟩ := (hms m hm).position hp
  exact ⟨ks, rfl⟩

theorem unshifted_of_byKeys : v.Unshifted ms := by
  refine List.pairwise_of_forall_mem_list fun m hm m' _ p hp => ?_
  rw [(hms m hm).target?_eq] at hp
  obtain ⟨ks, -, -, rfl⟩ := (hms m hm).position hp
  simp [Position.not_shifts_keys]

/-- What masks leave depends on the set of the masks only. -/
theorem foldl_without_of_byKeys (hv : v.Canonical) (h : ∀ m, m ∈ ms' ↔ m ∈ ms) :
    ms'.foldl without v = v.strip (v.addressed ms) := by
  have hms' : ∀ m ∈ ms', v.ByKeys m := fun m hm => hms m ((h m).1 hm)
  rw [foldl_without_addressed hv (fun m hm => (hms' m hm).target?_eq) (unshifted_of_byKeys hms'), addressed_congr h]

theorem address?_masked (q : String) :
    (v.strip (v.addressed ms)).address? q = (v.address? q).filter (v.addressed ms).spares := by
  unfold address?
  cases Pointer.keys? q.toList with
  | none => rfl
  | some ks => exact position?_strip (keysOnly_addressed hms) v ks

theorem not_spares_of_mem (hm : m ∈ ms) (hp : v.address? m = some p) : (v.addressed ms).spares p = false := by
  obtain ⟨ks, -, hks, rfl⟩ := (hms m hm).position hp
  rw [Bool.eq_false_iff]
  intro hspared
  have hstays := spares_iff.1 hspared _ (by simpa using hks) List.prefix_rfl
  rw [mem_addressed.2 ⟨m, hm, hp⟩] at hstays
  simp at hstays

theorem address?_masked_of_mem (hm : m ∈ ms) : (v.strip (v.addressed ms)).address? m = none := by
  rw [address?_masked hms]
  cases hp : v.address? m with
  | none => rfl
  | some p => simp [Option.filter, not_spares_of_mem hms hm hp]

theorem without_masked (hv : v.Canonical) (hm : m ∈ ms) :
    (v.strip (v.addressed ms)).without m = v.strip (v.addressed ms) := by
  have htarget : (v.strip (v.addressed ms)).target? m = none := by
    rw [target?_strip ((keysOnly_addressed hms).steady _), (hms m hm).target?_eq, ← address?_masked hms]
    exact address?_masked_of_mem hms hm
  rw [without_eq (canonical_strip hv), htarget, strip_only_none]

theorem foldl_without_masked (hv : v.Canonical) :
    ms.foldl without (v.strip (v.addressed ms)) = v.strip (v.addressed ms) := by
  suffices ∀ rest : List String, (∀ m ∈ rest, m ∈ ms) →
      rest.foldl without (v.strip (v.addressed ms)) = v.strip (v.addressed ms) from this ms fun _ hm => hm
  intro rest hrest
  induction rest with
  | nil => rfl
  | cons m rest ih =>
    obtain ⟨hm, hrest⟩ := List.forall_mem_cons.1 hrest
    rw [List.foldl_cons, without_masked hms hv hm, ih hrest]

theorem spares_of_not_covered (hq : ∀ m ∈ ms, ¬ Pointer.Covers m q) (hp : v.address? q = some p) :
    (v.addressed ms).spares p = true := by
  refine spares_iff.2 fun t _ ht => Bool.eq_false_iff.2 fun hgone => ?_
  obtain ⟨m, hm, hmask⟩ := mem_addressed.1 hgone
  obtain ⟨ks, hks, -, rfl⟩ := (hms m hm).position hmask
  obtain ⟨ks', hks', hposition⟩ := Option.bind_eq_some_iff.1 hp
  exact hq m hm ⟨ks, hks, ks', hks', prefix_of_position? hposition ht⟩

/-- A pointer behind no mask leads to the same part as before, less what is masked in there. -/
theorem pointer?_masked (hq : ∀ m ∈ ms, ¬ Pointer.Covers m q) :
    ∃ gone, (v.strip (v.addressed ms)).pointer? q = (v.pointer? q).map (strip gone) := by
  rw [pointer?_eq, pointer?_eq, address?_masked hms]
  cases hp : v.address? q with
  | none => exact ⟨v.addressed ms, rfl⟩
  | some p =>
    have hspared := spares_of_not_covered hms hq hp
    have hat := at?_strip (v := v) hspared
    rw [((keysOnly_addressed hms).steady p).moved] at hat
    exact ⟨(v.addressed ms).behind p, by simpa [Option.filter, hspared] using hat⟩

end Sets

end Value

end Relay.Json

namespace Relay

open Json Json.Value

theorem isObject_strip {gone : Positions} {v : Value} (h : v.isObject = true) : (v.strip gone).isObject = true := by
  cases v <;> simp_all [isObject, strip]

theorem Routed.mask_of_isObject (r : Routed) {c : Carried} (h : c.value.isObject = true) :
    r.mask c = .ok ⟨r.subscriber.masks.foldl without c.value, c.own && r.subscriber.masks.isEmpty⟩ := by
  unfold mask
  cases r.subscriber.masks with
  | nil => simp
  | cons m ms => simp [h]

/-- Masks that are not empty and look nothing up in a list of the payload come to the same in every order, from whatever
policies and however often; applied again they change nothing. None of them leads anywhere in what is left, and a
pointer that no mask leads on the way to leads to the same scalars before and after. What is left is a copy, unless it
is all there was. -/
theorem mask_by_keys (r : Routed) (c : Carried) (hobject : c.value.isObject = true) (hcanonical : c.value.Canonical)
    (hmasks : ∀ m ∈ r.subscriber.masks, c.value.ByKeys m) :
    ∃ c', r.mask c = .ok c' ∧
      (∀ r' : Routed, (∀ m, m ∈ r'.subscriber.masks ↔ m ∈ r.subscriber.masks) → r'.mask c = .ok c') ∧
      r.mask c' = .ok c' ∧
      (∀ m ∈ r.subscriber.masks, c'.value.pointer? m = none) ∧
      (∀ q, (∀ m ∈ r.subscriber.masks, ¬ Pointer.Covers m q) → ∀ x : Value, x.isScalar = true →
        (c'.value.pointer? q = some x ↔ c.value.pointer? q = some x)) ∧
      (c'.own = true → c' = c) := by
  let masks := r.subscriber.masks
  let left := c.value.strip (c.value.addressed masks)
  have hmask : ∀ r' : Routed, (∀ m, m ∈ r'.subscriber.masks ↔ m ∈ masks) →
      r'.mask c = .ok ⟨left, c.own && masks.isEmpty⟩ := by
    intro r' hsame
    have hempty : r'.subscriber.masks.isEmpty = masks.isEmpty := by
      rw [Bool.eq_iff_iff, List.isEmpty_iff, List.isEmpty_iff, List.eq_nil_iff_forall_not_mem,
        List.eq_nil_iff_forall_not_mem]
      simp only [hsame]
    rw [r'.mask_of_isObject hobject, foldl_without_of_byKeys hmasks hcanonical hsame, hempty]
  have hagain : r.mask ⟨left, c.own && masks.isEmpty⟩ = .ok ⟨left, c.own && masks.isEmpty⟩ := by
    have hleft : left.isObject = true := isObject_strip hobject
    rw [r.mask_of_isObject hleft, foldl_without_masked hmasks hcanonical, Bool.and_assoc, Bool.and_self]
  refine ⟨_, hmask r fun _ => Iff.rfl, hmask, hagain, fun m hm => ?_, fun q hq x hx => ?_, fun hown => ?_⟩
  · show left.pointer? m = none
    rw [pointer?_eq, address?_masked_of_mem hmasks hm]
    rfl
  · obtain ⟨gone, hgone⟩ := pointer?_masked hmasks hq
    show left.pointer? q = some x ↔ _
    rw [hgone, Option.map_eq_some_iff]
    simp only [strip_eq_iff_of_isScalar gone _ hx, exists_eq_right]
  · obtain ⟨-, hempty⟩ := Bool.and_eq_true_iff.1 hown
    have hsame : r.mask c = .ok c := by rw [Routed.mask, if_pos hempty]
    exact Except.ok.inj ((hmask r fun _ => Iff.rfl).symm.trans hsame)

namespace Shielded

/-- A record of a payload with keys that are escaped in pointers. -/
def record : Record where
  coordinates := ⟨⟨"", 0⟩, 0⟩
  key := none
  headers := []
  value := .object [("a/b", .object [("x", .text "1"), ("y~", .null)]), ("c", .text "t"), ("list", .list [.text "p"])]

/-- The record, taken by a subscriber with masks in two policies. -/
def routed (masks masks' : List String) : Routed :=
  ⟨⟨"s", ⟨false, .all, [⟨"", none, masks⟩, ⟨"", none, masks'⟩]⟩, .standard⟩, record⟩

/-- What is left of its payload. -/
def left : Carried := ⟨.object [("c", .text "t"), ("list", .list [.text "p"])], false⟩

theorem canonical_record : record.value.Canonical := by
  simp only [record, Canonical, CanonicalItems, CanonicalMembers, and_true]
  decide

/-- Masks below each other, on the way through a text, and given twice. -/
theorem mask_in_any_order :
    (routed ["/a~1b/x", "/c/d"] ["/a~1b", "/a~1b/y~0", "/c/d"]).mask record.carried = .ok left ∧
      (routed [] ["/a~1b", "/c/d", "/a~1b/y~0", "/a~1b/x"]).mask record.carried = .ok left ∧
      (routed ["/a~1b/x", "/c/d"] ["/a~1b", "/a~1b/y~0", "/c/d"]).mask left = .ok left ∧
      left.value.pointer? "/a~1b/x" = none ∧ left.value.pointer? "/list/0" = some (.text "p") := by
  let r := routed ["/a~1b/x", "/c/d"] ["/a~1b", "/a~1b/y~0", "/c/d"]
  have hmasks : ∀ m ∈ r.subscriber.masks, record.carried.value.ByKeys m := by decide +kernel
  obtain ⟨c', hc', hsame, hagain, hgone, hkept, -⟩ :=
    mask_by_keys r record.carried rfl canonical_record hmasks
  have hleft : r.mask record.carried = .ok left := by rfl
  obtain rfl : c' = left := Except.ok.inj (hc'.symm.trans hleft)
  have huncovered : ∀ m ∈ r.subscriber.masks, ¬ Pointer.Covers m "/list/0" := by decide +kernel
  refine ⟨hc', hsame _ fun m => ?_, hagain, hgone _ (by decide), (hkept _ huncovered _ rfl).2 (by rfl)⟩
  simp [routed, r, Subscriber.masks]
  tauto

end Shielded

end Relay
