import Relay.Json.Reader
import Relay.Masking
import Relay.Proofs.Removal

/-!
# What the masks of a subscriber remove

Masks are applied one after the other, each to what the ones before it left. What they remove together can be traced
back to the payload (`Value.taken`). It is what the masks address in the payload, as long as none of them removes an
item of a list at or before the item through which a later one leads: then the items move up, and the later mask meets
another part than the one that it addresses in the payload.
-/

namespace Relay.Json

/-- Whether the removal of a part makes another part stand where a position leads. -/
def Position.Shifts : Position → Position → Bool
  | [.item i], .item j :: _ => decide (i ≤ j)
  | s :: q, t :: p => decide (s = t) && Shifts q p
  | _, _ => false

namespace Positions

/-- No part of a set shifts what stands along a position. -/
def Steady (gone : Positions) (p : Position) : Prop := ∀ q, gone q = true → ¬ Position.Shifts q p

variable {gone : Positions} {p q : Position} {s : Step} {i j : Nat}

theorem shifts_cons (hq : q ≠ []) : Position.Shifts (s :: q) (s :: p) = Position.Shifts q p := by
  obtain ⟨t, q, rfl⟩ := List.exists_cons_of_ne_nil hq
  cases s <;> simp [Position.Shifts]

theorem Steady.below (h : gone.Steady (s :: p)) : (gone.below s).Steady p := by
  intro q hq hshifts
  have hne : q ≠ [] := by
    rintro rfl
    simp [Position.Shifts] at hshifts
  refine h (s :: q) hq ?_
  rwa [shifts_cons hne]

theorem Steady.item (h : gone.Steady (.item i :: p)) (hj : j ≤ i) : gone [.item j] = false := by
  cases hgone : gone [.item j] with
  | false => rfl
  | true => exact absurd (by simp [Position.Shifts, hj]) (h _ hgone)

theorem Steady.moved (h : gone.Steady p) : gone.moved p = p := by
  induction p generalizing gone with
  | nil => rfl
  | cons s p ih =>
    cases s with
    | key k => rw [Positions.moved, ih h.below]
    | item i =>
      have hkept : gone.kept 0 i = i := kept_eq fun j hj => h.item (by omega)
      rw [Positions.moved, ih h.below, hkept]

/-- A position that stays where it is may be removed at once with a set before it. -/
theorem spares_andThen_only {p? : Option Position} (hp : ∀ p, p? = some p → gone.moved p = p) (q : Position) :
    (gone.andThen (only (p?.filter gone.spares))).spares q = spares (fun r => gone r || only p? r) q := by
  rw [Bool.eq_iff_iff, spares_iff, spares_iff]
  constructor
  · intro h r hne hr
    obtain ⟨hstays, hafter⟩ := Bool.or_eq_false_iff.1 (h r hne hr)
    have hspared : gone.spares r = true :=
      spares_iff.2 fun t hne ht => (Bool.or_eq_false_iff.1 (h t hne (ht.trans hr))).1
    refine Bool.or_eq_false_iff.2 ⟨hstays, ?_⟩
    refine decide_eq_false fun heq => ?_
    subst heq
    simp [only, Option.filter, hspared, hp r rfl] at hafter
  · intro h r hne hr
    obtain ⟨hstays, hother⟩ := Bool.or_eq_false_iff.1 (h r hne hr)
    have hspared : gone.spares r = true :=
      spares_iff.2 fun t hne ht => (Bool.or_eq_false_iff.1 (h t hne (ht.trans hr))).1
    refine Bool.or_eq_false_iff.2 ⟨hstays, ?_⟩
    refine decide_eq_false fun heq => ?_
    obtain ⟨hsome, hmoved⟩ := Option.filter_eq_some_iff.1 heq
    have hsame : gone.moved r = r := by
      have hfixed := hp _ hsome
      exact moved_inj hmoved hspared hfixed
    rw [hsame] at hsome
    simp [only, hsome] at hother

end Positions

namespace Value

open Positions

section Stripped

variable {gone : Positions} {read : String → Option Nat} {v c : Value} {k : String} {s : Step} {p : Position}

theorem length_stripItems (i : Nat) (items : List Value) :
    (stripItems gone i items).length = gone.kept i items.length := by
  induction items generalizing i with
  | nil => simp [stripItems, kept]
  | cons c cs ih =>
    rw [stripItems, List.length_cons, kept_succ_left]
    split
    · rw [ih, Nat.zero_add]
    · rw [List.length_cons, ih, Nat.add_comm]

/-- The step for a key is still there if its part is and no item moved up to it. -/
theorem step?_strip (h : ∀ i, v.step? read k = some (.item i) → ∀ j ≤ i, gone [.item j] = false) :
    (v.strip gone).step? read k = (v.step? read k).filter fun s => !gone [s] := by
  cases v with
  | object ms =>
    simp only [strip, step?, find?_stripMembers]
    by_cases hgone : gone [.key k] = true
    · cases SortedMap.find? k ms <;> simp [hgone, Option.filter]
    · cases SortedMap.find? k ms <;> simp [hgone, Option.filter]
  | list items =>
    simp only [step?] at h
    simp only [strip, step?, length_stripItems]
    cases hread : read k with
    | none => rfl
    | some i =>
      rw [hread] at h
      simp only [Option.bind_some] at h ⊢
      by_cases hi : i < items.length
      · rw [if_pos hi] at h ⊢
        have hstays : ∀ j ≤ i, gone [.item j] = false := h i rfl
        have hkept : gone.kept 0 i = i := kept_eq fun j hj => by simpa using hstays j (by omega)
        have hlt : i < gone.kept 0 items.length := by
          have := kept_lt_kept (hstays i (Nat.le_refl i)) hi
          omega
        rw [if_pos hlt]
        simp [Option.filter, hstays]
      · have hle : ¬ i < gone.kept 0 items.length := by
          have hfew : gone.kept 0 items.length ≤ items.length := kept_le
          omega
        rw [if_neg hi, if_neg hle]
        rfl
  | null | bool _ | number _ | text _ => rfl

theorem part?_strip (hs : gone [s] = false) (h : ∀ i, s = .item i → ∀ j ≤ i, gone [.item j] = false) :
    (v.strip gone).part? s = (v.part? s).map (strip (gone.below s)) := by
  have hspared : gone.spares [s] = true := by simp [spares, hs]
  have hmoved : gone.moved [s] = [s] := by
    cases s with
    | key k => rfl
    | item i =>
      have hkept : gone.kept 0 i = i := kept_eq fun j hj => by simpa using h i rfl j (by omega)
      simp [moved, hkept]
  have hat := at?_strip (v := v) hspared
  simp only [hmoved, at?, Option.bind_fun_some] at hat
  exact hat

/-- What is removed along keys is the same part as before, if it is still there and nothing moved up to it. -/
theorem removed?_strip {ks : List String} (h : gone.Steady (v.reach ks)) :
    (v.strip gone).removed? ks = (v.removed? ks).filter gone.spares := by
  induction ks generalizing v gone with
  | nil => rfl
  | cons k ks ih =>
    cases ks with
    | nil =>
      have hitem : ∀ i, v.step? Pointer.looseIndex? k = some (.item i) → ∀ j ≤ i, gone [.item j] = false := by
        intro i hi j hj
        simp only [reach, hi, Option.elim_some] at h
        exact h.item hj
      rw [removed?, removed?, step?_strip hitem]
      cases v.step? Pointer.looseIndex? k with
      | none => rfl
      | some s => by_cases hs : gone [s] = true <;> simp [Option.filter, spares, hs]
    | cons k' ks =>
      cases hs : v.step? Pointer.index? k with
      | none =>
        have hnone : (v.strip gone).step? Pointer.index? k = none := by
          rw [step?_strip (by simp [hs]), hs]
          rfl
        simp [removed?, hs, hnone]
      | some s =>
        obtain ⟨c, hc⟩ := exists_part_of_step? hs
        simp only [reach, hs, hc, Option.elim_some] at h
        have hitem : ∀ i, s = .item i → ∀ j ≤ i, gone [.item j] = false := by
          rintro i rfl j hj
          exact h.item hj
        have hstep : (v.strip gone).step? Pointer.index? k = (v.step? Pointer.index? k).filter fun s => !gone [s] :=
          step?_strip fun i hi => hitem i (Option.some.inj (hs.symm.trans hi))
        rw [removed?, removed?, hstep, hs]
        cases hgone : gone [s] with
        | true =>
          simp only [Option.filter, hgone, Option.bind_some, hc]
          cases c.removed? (k' :: ks) <;> simp [spares, hgone]
        | false =>
          simp only [Option.filter, hgone, Bool.not_false, if_true, Option.bind_some, part?_strip hgone hitem, hc,
            Option.map_some, ih h.below]
          cases c.removed? (k' :: ks) with
          | none => rfl
          | some p => by_cases hp : (gone.below s).spares p = true <;> simp [spares, hgone, hp]

theorem target?_strip {m : String} (h : gone.Steady (v.route m)) :
    (v.strip gone).target? m = (v.target? m).filter gone.spares := by
  unfold target? route at *
  cases hks : Pointer.keys? m.toList with
  | none => rfl
  | some ks =>
    rw [hks] at h
    exact removed?_strip h

/-- One more mask removes the part that it takes from the payload, if nothing moved up on its way. -/
theorem without_strip (hv : v.Canonical) {m : String} (h : gone.Steady (v.route m)) :
    (v.strip gone).without m = v.strip fun p => gone p || only (v.target? m) p := by
  rw [without_eq (canonical_strip hv), strip_strip, target?_strip h]
  refine strip_congr (spares_andThen_only fun p hp => ?_) v
  rw [route_of_target? hp] at h
  exact h.moved

end Stripped

/-! ## Many masks -/

/-- What masks remove one after the other, as positions of the value that they started from. -/
def taken (v : Value) : List String → Positions
  | [] => fun _ => false
  | m :: ms => (only (v.target? m)).andThen ((v.without m).taken ms)

/-- What masks address in a value. -/
def addressed (v : Value) (ms : List String) : Positions := fun p => ms.any fun m => only (v.address? m) p

/-- No mask removes an item at or before the one through which a later mask leads. -/
def Unshifted (v : Value) (ms : List String) : Prop :=
  ms.Pairwise fun m m' => ∀ p, v.target? m = some p → ¬ p.Shifts (v.route m')

theorem foldl_without {v : Value} (hv : v.Canonical) (ms : List String) : ms.foldl without v = v.strip (v.taken ms) := by
  induction ms generalizing v with
  | nil => exact (strip_nothing (fun _ => rfl) v).symm
  | cons m ms ih =>
    have hm := without_eq hv m
    have hcanonical : (v.without m).Canonical := hm ▸ canonical_strip hv
    rw [List.foldl_cons, ih hcanonical, taken, ← strip_strip, ← hm]

theorem foldl_without_strip {v : Value} (hv : v.Canonical) {ms : List String} (gone : Positions)
    (hsteady : ∀ m ∈ ms, gone.Steady (v.route m)) (hunshifted : v.Unshifted ms) :
    ms.foldl without (v.strip gone) = v.strip fun p => gone p || ms.any fun m => only (v.target? m) p := by
  induction ms generalizing gone with
  | nil => simp
  | cons m ms ih =>
    obtain ⟨hm, hms⟩ := List.pairwise_cons.1 hunshifted
    obtain ⟨hfirst, hlater⟩ := List.forall_mem_cons.1 hsteady
    have hrest : ∀ m' ∈ ms, Steady (fun p => gone p || only (v.target? m) p) (v.route m') := by
      intro m' hm' p hp
      rcases Bool.or_eq_true_iff.1 hp with hp | hp
      · exact hlater m' hm' p hp
      · exact hm m' hm' p (of_decide_eq_true hp)
    rw [List.foldl_cons, without_strip hv hfirst, ih _ hrest hms]
    simp only [List.any_cons, Bool.or_assoc]

/-- Masks that do not shift each other's parts remove what they address. -/
theorem foldl_without_addressed {v : Value} (hv : v.Canonical) {ms : List String}
    (hplain : ∀ m ∈ ms, v.target? m = v.address? m) (hunshifted : v.Unshifted ms) :
    ms.foldl without v = v.strip (v.addressed ms) := by
  have hfold := foldl_without_strip hv (fun _ => false) (fun _ _ _ hgone => by simp at hgone) hunshifted
  rw [strip_nothing fun _ => rfl] at hfold
  rw [hfold]
  congr 1
  funext p
  rw [Bool.false_or, addressed, Bool.eq_iff_iff, List.any_eq_true, List.any_eq_true]
  constructor
  · rintro ⟨m, hm, hp⟩
    exact ⟨m, hm, by rwa [← hplain m hm]⟩
  · rintro ⟨m, hm, hp⟩
    exact ⟨m, hm, by rwa [hplain m hm]⟩

/-! ## Decoded payloads -/

theorem canonicalMembers_of_mem {ms : List (String × Value)} (h : ∀ e ∈ ms, e.2.Canonical) : CanonicalMembers ms := by
  induction ms with
  | nil => simp only [CanonicalMembers]
  | cons e ms ih =>
    obtain ⟨he, hms⟩ := List.forall_mem_cons.1 h
    exact ⟨he, ih hms⟩

theorem canonical_ofMembers {ms : List (String × Value)} (h : CanonicalMembers ms) : (ofMembers ms).Canonical := by
  rw [ofMembers, Canonical]
  refine ⟨(SortedMap.ofList ms).sorted, canonicalMembers_of_mem fun e he => ?_⟩
  exact h.of_mem (SortedMap.mem_of_mem_ofList he)

end Value

mutual

theorem Tree.canonical_value? {levels : Nat} : ∀ {t : Tree} {v : Value}, t.value? levels = some v → v.Canonical
  | .list items, v, h => by
    cases levels with
    | zero => simp [value?] at h
    | succ l =>
      obtain ⟨vs, hvs, rfl⟩ := Option.map_eq_some_iff.1 h
      rw [Value.Canonical]
      exact canonical_values? hvs
  | .object ms, v, h => by
    cases levels with
    | zero => simp [value?] at h
    | succ l =>
      obtain ⟨vs, hvs, rfl⟩ := Option.map_eq_some_iff.1 h
      exact Value.canonical_ofMembers (canonical_memberValues? hvs)
  | .null, v, h | .bool _, v, h => by
    obtain rfl := Option.some.inj h
    simp only [Value.Canonical]
  | .number _, v, h | .text _, v, h => by
    obtain ⟨x, -, rfl⟩ := Option.map_eq_some_iff.1 h
    simp only [Value.Canonical]

theorem Tree.canonical_values? {levels : Nat} :
    ∀ {ts : List Tree} {vs : List Value}, values? levels ts = some vs → Value.CanonicalItems vs
  | [], vs, h => by
    obtain rfl := Option.some.inj h
    simp only [Value.CanonicalItems]
  | t :: ts, vs, h => by
    rw [values?] at h
    split at h
    · next v vs' hv hvs =>
      obtain rfl := Option.some.inj h
      exact ⟨canonical_value? hv, canonical_values? hvs⟩
    · simp at h

theorem Tree.canonical_memberValues? {levels : Nat} :
    ∀ {ms : List (Option String × Tree)} {vs : List (String × Value)}, memberValues? levels ms = some vs →
      Value.CanonicalMembers vs
  | [], vs, h => by
    obtain rfl := Option.some.inj h
    simp only [Value.CanonicalMembers]
  | (k, t) :: ms, vs, h => by
    unfold memberValues? at h
    split at h
    · next v vs' hv hvs =>
      obtain rfl := Option.some.inj h
      exact ⟨canonical_value? hv, canonical_memberValues? hvs⟩
    · simp at h

end

end Relay.Json

namespace Relay

/-- The payload of a decoded message has its members in key order. -/
theorem Message.canonical_decode {m : Message} {r : Record} (h : m.decode = .ok r) : r.value.Canonical := by
  unfold decode at h
  split at h
  · simp at h
  · split at h
    · simp at h
    · next v hv =>
      obtain rfl := Except.ok.inj h
      obtain ⟨text, -, htext⟩ := Option.bind_eq_some_iff.1 hv
      obtain ⟨tree, -, htree⟩ := Option.bind_eq_some_iff.1 htext
      exact Json.Tree.canonical_value? htree

open Json Json.Value Json.Positions

/-- Masking an object removes the parts that its masks take one after the other. If the last tokens of the masks are
written plainly and no mask shifts the parts of a later one, these are the parts that the masks address in the payload:
every other part is kept, at the place to which it moves, and nothing else is left. -/
theorem mask_removes (r : Routed) (c : Carried) (hobject : c.value.isObject = true)
    (hcanonical : c.value.Canonical) :
    let masks := r.subscriber.masks
    let gone := c.value.addressed masks
    ∃ c', r.mask c = .ok c' ∧ c'.value = c.value.strip (c.value.taken masks) ∧
      ((∀ m ∈ masks, c.value.target? m = c.value.address? m) → c.value.Unshifted masks →
        c'.value = c.value.strip gone ∧
          (∀ p, gone.spares p = true →
            c'.value.at? (gone.moved p) = (c.value.at? p).map (strip (gone.behind p))) ∧
          ∀ q x, c'.value.at? q = some x →
            ∃ p, gone.spares p = true ∧ gone.moved p = q ∧ (c.value.at? p).map (strip (gone.behind p)) = some x) := by
  intro masks gone
  obtain ⟨c', hc', hvalue⟩ : ∃ c', r.mask c = .ok c' ∧ c'.value = masks.foldl without c.value := by
    unfold Routed.mask
    split
    · next hnone =>
      have hmasks : masks = [] := List.isEmpty_iff.1 hnone
      exact ⟨c, rfl, by rw [hmasks]; rfl⟩
    · exact ⟨_, rfl, rfl⟩
  refine ⟨c', hc', hvalue.trans (foldl_without hcanonical masks), fun hplain hunshifted => ?_⟩
  have hstrip : c'.value = c.value.strip gone :=
    hvalue.trans (foldl_without_addressed hcanonical hplain hunshifted)
  refine ⟨hstrip, fun p hp => ?_, fun q x hx => ?_⟩
  · rw [hstrip]
    exact at?_strip hp
  · rw [hstrip] at hx
    exact exists_of_at?_strip hx

namespace Hidden

/-- A record of a payload with a list, taken by a subscriber that may not see what the masks address. -/
def routed (items : List Value) (masks : List String) : Routed where
  subscriber := ⟨"s", ⟨false, .all, [⟨"", none, masks⟩]⟩, .standard⟩
  record := ⟨⟨⟨"", 0⟩, 0⟩, none, [], .object [("items", .list items), ("key", .object [("a", .null), ("b", .null)])]⟩

/-- A mask on a later item goes before one through an earlier item, and one mask lies below another. -/
def routedBack : Routed :=
  routed [.object [("a", .null), ("b", .null)], .text "x", .text "y"] ["/items/2", "/key/a", "/items/0/a", "/key"]

theorem canonical_back : routedBack.record.value.Canonical := by
  simp only [routedBack, routed, Canonical, CanonicalItems, CanonicalMembers, and_true]
  decide

theorem mask_back_to_front :
    ∃ c', routedBack.mask routedBack.record.carried = .ok c' ∧
      c'.value = .object [("items", .list [.object [("b", .null)], .text "x"])] := by
  let v := routedBack.record.value
  have hmasks : routedBack.subscriber.masks = ["/items/2", "/key/a", "/items/0/a", "/key"] := rfl
  have h₁ : v.target? "/items/2" = some [.key "items", .item 2] := by decide +kernel
  have h₂ : v.target? "/key/a" = some [.key "key", .key "a"] := by decide +kernel
  have h₃ : v.target? "/items/0/a" = some [.key "items", .item 0, .key "a"] := by decide +kernel
  have h₄ : v.target? "/key" = some [.key "key"] := by decide +kernel
  have hplain : ∀ m ∈ routedBack.subscriber.masks, v.target? m = v.address? m := by
    rw [hmasks]
    simp only [List.forall_mem_cons, List.not_mem_nil, false_implies, implies_true, and_true]
    exact ⟨by decide +kernel, by decide +kernel, by decide +kernel, by decide +kernel⟩
  have hunshifted : v.Unshifted routedBack.subscriber.masks := by
    simp [hmasks, Unshifted, h₁, h₂, h₃, route_of_target? h₂, route_of_target? h₃, route_of_target? h₄,
      Position.Shifts]
  have hgone : v.addressed routedBack.subscriber.masks = fun p =>
      decide (p ∈ [[.key "items", .item 2], [.key "key", .key "a"], [.key "items", .item 0, .key "a"], [.key "key"]]) := by
    funext p
    rw [hmasks] at hplain ⊢
    simp only [List.forall_mem_cons] at hplain
    simp [addressed, ← hplain.1, ← hplain.2.1, ← hplain.2.2.1, ← hplain.2.2.2.1, h₁, h₂, h₃, h₄, only, eq_comm]
  obtain ⟨c', hc', -, hplainly⟩ := mask_removes routedBack routedBack.record.carried rfl canonical_back
  obtain ⟨hstrip, -⟩ := hplainly hplain hunshifted
  refine ⟨c', hc', hstrip.trans ?_⟩
  change v.strip (v.addressed routedBack.subscriber.masks) = _
  rw [hgone]
  rfl

/-- Masks on the items of a list in their order remove every other one: the second mask meets the item after the one
that it addresses. -/
example : (routed [.text "x", .text "y", .text "z"] ["/items/0", "/items/1"]).mask
    (routed [.text "x", .text "y", .text "z"] []).record.carried =
      .ok ⟨.object [("items", .list [.text "y"]), ("key", .object [("a", .null), ("b", .null)])], false⟩ := by
  cbv

end Hidden

end Relay
