import Relay.Proofs.Positions

/-!
# What a pointer removes

A pointer addresses a position of a value, or none (`Value.position?`). Removal takes the part at a position that is
found in the same way but for the last token (`Value.removed?`), where an index may have a sign or leading zeros; it
takes this part and no other (`without_eq`).
-/

namespace Relay.Json

namespace Pointer

theorem split_ne_nil : ∀ cs : List Char, split cs ≠ []
  | [] => by simp [split]
  | c :: cs => by
    rw [split]
    split
    · simp
    · split <;> simp

theorem split_append (a b : List Char) : split (a ++ '/' :: b) = split a ++ split b := by
  induction a with
  | nil => simp [split]
  | cons c a ih =>
    rw [List.cons_append, split, split, ih]
    split
    · rfl
    · cases ha : split a with
      | nil => exact absurd ha (split_ne_nil a)
      | cons part parts => rfl

theorem split_of_slash_not_mem {cs : List Char} (h : '/' ∉ cs) : split cs = [cs] := by
  induction cs with
  | nil => rfl
  | cons c cs ih =>
    obtain ⟨hc, hcs⟩ := List.ne_and_not_mem_of_not_mem_cons h
    rw [split, if_neg hc.symm, ih hcs]

/-- The last slash parts the last key from the pointer to its parent. -/
theorem keys?_append {a b : List Char} (h : '/' ∉ b) :
    keys? (a ++ '/' :: b) = (keys? a).map (· ++ [key b]) := by
  cases a with
  | nil => simp [keys?, split_of_slash_not_mem h]
  | cons c a =>
    simp only [List.cons_append, keys?]
    split
    · rw [split_append, split_of_slash_not_mem h]
      simp
    · rfl

theorem splitLast_append {a b : List Char} (h : '/' ∉ b) : splitLast (a ++ '/' :: b) = some (a, b) := by
  have hfree : ∀ c ∈ b.reverse, decide (c ≠ '/') = true := by
    intro c hc
    rw [decide_eq_true_eq]
    rintro rfl
    exact h (List.mem_reverse.1 hc)
  simp only [splitLast, List.reverse_append, List.reverse_cons, List.append_assoc, List.singleton_append]
  rw [List.takeWhile_append_of_pos hfree, List.dropWhile_append_of_pos hfree]
  simp

theorem splitLast_of_slash_not_mem {cs : List Char} (h : '/' ∉ cs) : splitLast cs = none := by
  have hfree : ∀ c ∈ cs.reverse, decide (c ≠ '/') = true := by
    intro c hc
    rw [decide_eq_true_eq]
    rintro rfl
    exact h (List.mem_reverse.1 hc)
  have hall : cs.reverse.dropWhile (fun c => decide (c ≠ '/')) = [] := by
    rw [← List.append_nil cs.reverse, List.dropWhile_append_of_pos hfree]
    rfl
  simp only [splitLast, hall]

/-- A text without a slash has no key, and any other text has a last slash. -/
theorem slash_cases (cs : List Char) : '/' ∉ cs ∨ ∃ a b, '/' ∉ b ∧ cs = a ++ '/' :: b := by
  induction cs with
  | nil => simp
  | cons c cs ih =>
    rcases ih with h | ⟨a, b, hb, rfl⟩
    · by_cases hc : c = '/'
      · exact .inr ⟨[], cs, h, by rw [hc]; rfl⟩
      · refine .inl fun hmem => ?_
        rcases List.mem_cons.1 hmem with heq | hmem
        · exact hc heq.symm
        · exact h hmem
    · exact .inr ⟨c :: a, b, hb, rfl⟩

end Pointer

namespace Value

open Positions

/-- The step to the child of a value at a key, where an index is read in a given way. -/
def step? (read : String → Option Nat) (v : Value) (k : String) : Option Step :=
  match v with
  | .object ms => (SortedMap.find? k ms).map fun _ => .key k
  | .list items => (read k).bind fun i => if i < items.length then some (.item i) else none
  | _ => none

/-- The position that keys lead to. -/
def position? (v : Value) : List String → Option Position
  | [] => some []
  | k :: ks =>
    (v.step? Pointer.index? k).bind fun s => (v.part? s).bind fun c => (c.position? ks).map (s :: ·)

/-- The position of the part that is removed for keys: the last one may be a loosely written index. -/
def removed? (v : Value) : List String → Option Position
  | [] => none
  | [k] => (v.step? Pointer.looseIndex? k).map fun s => [s]
  | k :: k' :: ks =>
    (v.step? Pointer.index? k).bind fun s => (v.part? s).bind fun c => (c.removed? (k' :: ks)).map (s :: ·)

/-- How far removal gets along keys. -/
def reach (v : Value) : List String → Position
  | [] => []
  | [k] => (v.step? Pointer.looseIndex? k).elim [] fun s => [s]
  | k :: k' :: ks =>
    (v.step? Pointer.index? k).elim [] fun s => (v.part? s).elim [] fun c => s :: c.reach (k' :: ks)

section Steps

variable {read : String → Option Nat} {v : Value} {k : String} {s : Step}

theorem exists_part_of_step? (h : v.step? read k = some s) : ∃ c, v.part? s = some c := by
  cases v with
  | object ms =>
    obtain ⟨c, hc, rfl⟩ := Option.map_eq_some_iff.1 h
    exact ⟨c, hc⟩
  | list items =>
    obtain ⟨i, -, hi⟩ := Option.bind_eq_some_iff.1 h
    split at hi
    · next hlt =>
      obtain rfl := Option.some.inj hi
      exact ⟨items[i], List.getElem?_eq_getElem hlt⟩
    · simp at hi
  | null | bool _ | number _ | text _ => simp [step?] at h

/-- The child of a value at a key is its part behind the step to it. -/
theorem child?_eq (v : Value) (k : String) : v.child? k = (v.step? Pointer.index? k).bind v.part? := by
  cases v with
  | object ms =>
    simp only [child?, step?]
    cases h : SortedMap.find? k ms <;> simp [part?, h]
  | list items =>
    simp only [child?, step?]
    cases Pointer.index? k with
    | none => rfl
    | some i =>
      simp only [Option.bind_some]
      split
      · rfl
      · next hge => simpa using hge
  | null | bool _ | number _ | text _ => rfl

/-- What a path of keys leads to is the part at its position. -/
theorem atPath?_eq (v : Value) (ks : List String) : v.atPath? ks = (v.position? ks).bind v.at? := by
  induction ks generalizing v with
  | nil => rfl
  | cons k ks ih =>
    rw [atPath?, position?, child?_eq]
    cases hs : v.step? Pointer.index? k with
    | none => rfl
    | some s =>
      obtain ⟨c, hc⟩ := exists_part_of_step? hs
      simp only [Option.bind_some, hc, ih]
      cases c.position? ks <;> simp [at?, hc]

/-- Removal gets to the part that it removes. -/
theorem reach_of_removed? {ks : List String} {p : Position} (h : v.removed? ks = some p) : v.reach ks = p := by
  induction ks generalizing v p with
  | nil => simp [removed?] at h
  | cons k ks ih =>
    cases ks with
    | nil =>
      obtain ⟨s, hs, rfl⟩ := Option.map_eq_some_iff.1 h
      simp [reach, hs]
    | cons k' ks =>
      obtain ⟨s, hs, h⟩ := Option.bind_eq_some_iff.1 h
      obtain ⟨c, hc, h⟩ := Option.bind_eq_some_iff.1 h
      obtain ⟨p, hp, rfl⟩ := Option.map_eq_some_iff.1 h
      simp [reach, hs, hc, ih hp]

end Steps

/-! ## Removing one part -/

section One

theorem below_only (s t : Step) (p : Position) :
    (only (some (s :: p))).below t = if s = t then only (some p) else fun _ => false := by
  funext q
  by_cases h : s = t <;> simp [below, only, h]

theorem only_singleton (s : Step) (p : Position) (t : Step) :
    only (some (s :: p)) [t] = decide (s = t ∧ p = []) := by
  simp [only]

theorem strip_nothing_eq : strip (fun _ => false) = id := funext (strip_nothing fun _ => rfl)

theorem strip_only_none (v : Value) : v.strip (only none) = v := strip_nothing (fun _ => rfl) v

theorem eraseKey_sublist (k : String) (ms : List (String × Value)) : (eraseKey k ms).Sublist ms := by
  induction ms with
  | nil => exact .slnil
  | cons e ms ih =>
    rw [eraseKey]
    split
    · exact List.sublist_cons_self _ _
    · exact ih.cons_cons _

theorem find?_eraseKey {ms : List (String × Value)} (h : ms.Pairwise fun a b => compare a.1 b.1 = .lt)
    (k k' : String) : SortedMap.find? k' (eraseKey k ms) = if k = k' then none else SortedMap.find? k' ms := by
  induction ms with
  | nil => simp [eraseKey, SortedMap.find?]
  | cons e ms ih =>
    obtain ⟨he, hms⟩ := List.pairwise_cons.1 h
    rw [eraseKey]
    split
    · next heq =>
      have hkey : k = e.1 := Std.LawfulEqCmp.eq_of_compare heq
      split
      · next hk => rw [← hk, hkey, SortedMap.find?_eq_none_of_lt he]
      · next hk => rw [SortedMap.find?_cons_of_ne fun hk' => hk (hkey.trans hk'.symm)]
    · next hne =>
      have hkey : k ≠ e.1 := fun hk => hne (by simp [hk])
      by_cases hk' : k' = e.1
      · rw [if_neg (hk' ▸ hkey)]
        simp [SortedMap.find?, hk']
      · rw [SortedMap.find?_cons_of_ne hk', SortedMap.find?_cons_of_ne hk', ih hms]

/-- Erasing a member is removing one part. -/
theorem eraseKey_eq {ms : List (String × Value)} (h : ms.Pairwise fun a b => compare a.1 b.1 = .lt) (k : String) :
    eraseKey k ms = stripMembers (only (some [.key k])) ms := by
  refine SortedMap.eq_of_find?_eq (h.sublist (eraseKey_sublist k ms)) (sorted_stripMembers h) fun k' => ?_
  rw [find?_eraseKey h, find?_stripMembers, only_singleton, below_only]
  by_cases hk : k = k'
  · simp [hk]
  · simp [hk, strip_nothing_eq]

/-- Replacing a member by what removal leaves of it is removing one part. -/
theorem place_eq {ms : List (String × Value)} (h : ms.Pairwise fun a b => compare a.1 b.1 = .lt) {k : String}
    {c : Value} (hc : SortedMap.find? k ms = some c) {p : Position} (hp : p ≠ []) :
    SortedMap.place k (c.strip (only (some p))) ms = stripMembers (only (some (.key k :: p))) ms := by
  refine SortedMap.eq_of_find?_eq (SortedMap.sorted_place h) (sorted_stripMembers h) fun k' => ?_
  rw [SortedMap.find?_place, find?_stripMembers, only_singleton, below_only]
  by_cases hk : k = k'
  · subst hk
    simp [hc, hp]
  · have hne : compare k' k ≠ .eq := fun heq => hk (Std.LawfulEqCmp.eq_of_compare heq).symm
    simp [hk, hne, strip_nothing_eq]

/-- Erasing an item is removing one part. -/
theorem eraseIdx_eq (items : List Value) (o i : Nat) :
    items.eraseIdx i = stripItems (only (some [.item (o + i)])) o items := by
  induction items generalizing o i with
  | nil => simp [stripItems]
  | cons c cs ih =>
    rw [stripItems, only_singleton, below_only]
    cases i with
    | zero =>
      have hrest : stripItems (only (some [.item o])) (o + 1) cs = cs := by
        refine stripItems_nothing (fun j p hj => ?_) cs
        have hne : o ≠ j := by omega
        simp [only, hne]
      simp [hrest]
    | succ i =>
      have hrest := ih (o + 1) i
      rw [show o + 1 + i = o + (i + 1) by omega] at hrest
      simp [strip_nothing_eq, hrest]

/-- Replacing an item by what removal leaves of it is removing one part. -/
theorem set_eq {items : List Value} (o i : Nat) {c : Value} (hc : items[i]? = some c) {p : Position} (hp : p ≠ []) :
    items.set i (c.strip (only (some p))) = stripItems (only (some (.item (o + i) :: p))) o items := by
  induction items generalizing o i with
  | nil => simp at hc
  | cons d ds ih =>
    rw [stripItems, only_singleton, below_only]
    cases i with
    | zero =>
      have hrest : stripItems (only (some (.item o :: p))) (o + 1) ds = ds := by
        refine stripItems_nothing (fun j q hj => ?_) ds
        have hne : o ≠ j := by omega
        simp [only, hne]
      obtain rfl : d = c := by simpa using hc
      simp [hrest, hp]
    | succ i =>
      have hrest := ih (o + 1) i (by simpa using hc)
      rw [show o + 1 + i = o + (i + 1) by omega] at hrest
      simp [strip_nothing_eq, hrest]

/-- A child is taken out by removing one part. -/
theorem takeChild_eq {v : Value} (hv : v.Canonical) (k : String) :
    takeChild k v =
      (v.removed? [k]).bind fun p => (v.at? p).map fun x => (x, v.strip (only (some p))) := by
  cases v with
  | object ms =>
    rw [Canonical] at hv
    simp only [takeChild, removed?, step?]
    cases hk : SortedMap.find? k ms with
    | none => rfl
    | some c => simp [at?, part?, hk, strip, eraseKey_eq hv.1]
  | list items =>
    simp only [takeChild, removed?, step?]
    cases Pointer.looseIndex? k with
    | none => rfl
    | some i =>
      have herase := eraseIdx_eq items 0 i
      rw [Nat.zero_add] at herase
      by_cases hi : i < items.length
      · simp [hi, at?, part?, strip, herase]
      · simp [hi]
  | null | bool _ | number _ | text _ => rfl

theorem removed?_ne_nil {v : Value} {ks : List String} {p : Position} (h : v.removed? ks = some p) : p ≠ [] := by
  rintro rfl
  match ks with
  | [] => simp [removed?] at h
  | [k] => simp [removed?] at h
  | k :: k' :: ks => simp [removed?, Option.bind_eq_some_iff] at h

theorem CanonicalItems.of_mem {items : List Value} {c : Value} (h : CanonicalItems items) (hc : c ∈ items) :
    c.Canonical := by
  induction items with
  | nil => simp at hc
  | cons d ds ih =>
    obtain ⟨hd, hds⟩ := h
    rcases List.mem_cons.1 hc with rfl | hc
    · exact hd
    · exact ih hds hc

theorem CanonicalMembers.of_mem {ms : List (String × Value)} {k : String} {c : Value} (h : CanonicalMembers ms)
    (hc : (k, c) ∈ ms) : c.Canonical := by
  induction ms with
  | nil => simp at hc
  | cons e ms ih =>
    obtain ⟨he, hms⟩ := h
    rcases List.mem_cons.1 hc with rfl | hc
    · exact he
    · exact ih hms hc

theorem canonical_part? {v c : Value} {s : Step} (hv : v.Canonical) (h : v.part? s = some c) : c.Canonical := by
  cases v with
  | object ms =>
    rw [Canonical] at hv
    cases s with
    | key k => exact hv.2.of_mem (SortedMap.mem_of_find?_eq_some h)
    | item i => simp [part?] at h
  | list items =>
    rw [Canonical] at hv
    cases s with
    | key k => simp [part?] at h
    | item i => exact hv.of_mem (List.mem_of_getElem? h)
  | null | bool _ | number _ | text _ => cases s <;> simp [part?] at h

/-- A part is taken out by removing one part. -/
theorem takeAtPath_eq {v : Value} (hv : v.Canonical) (ks : List String) (k : String) :
    takeAtPath (takeChild k) ks v =
      (v.removed? (ks ++ [k])).bind fun p => (v.at? p).map fun x => (x, v.strip (only (some p))) := by
  induction ks generalizing v with
  | nil => exact takeChild_eq hv k
  | cons k₁ ks ih =>
    obtain ⟨k₂, rest, hrest⟩ : ∃ k₂ rest, ks ++ [k] = k₂ :: rest := List.exists_cons_of_ne_nil (by simp)
    rw [hrest] at ih
    rw [List.cons_append, hrest, removed?]
    cases v with
    | object ms =>
      simp only [takeAtPath, step?]
      cases hc : SortedMap.find? k₁ ms with
      | none => rfl
      | some c =>
        have hpart : (object ms).part? (.key k₁) = some c := hc
        simp only [Option.bind_some, Option.map_some, hpart, ih (canonical_part? hv hpart)]
        rw [Canonical] at hv
        cases hp : c.removed? (k₂ :: rest) with
        | none => rfl
        | some p =>
          simp only [Option.bind_some, Option.map_some, at?, hpart]
          cases c.at? p with
          | none => rfl
          | some x => simp [strip, place_eq hv.1 hc (removed?_ne_nil hp)]
    | list items =>
      simp only [takeAtPath, step?]
      cases Pointer.index? k₁ with
      | none => rfl
      | some i =>
        by_cases hi : i < items.length
        · have hc : items[i]? = some items[i] := List.getElem?_eq_getElem hi
          have hpart : (list items).part? (.item i) = some items[i] := hc
          simp only [Option.bind_some, if_pos hi, hc, hpart, ih (canonical_part? hv hpart)]
          cases hp : items[i].removed? (k₂ :: rest) with
          | none => rfl
          | some p =>
            simp only [Option.bind_some, Option.map_some, at?, hpart]
            cases items[i].at? p with
            | none => rfl
            | some x =>
              have hset := set_eq 0 i hc (removed?_ne_nil hp)
              rw [Nat.zero_add] at hset
              simp [strip, hset]
        · simp [hi]
    | null | bool _ | number _ | text _ => rfl

theorem exists_at?_of_removed? {v : Value} {ks : List String} {p : Position} (h : v.removed? ks = some p) :
    ∃ x, v.at? p = some x := by
  induction ks generalizing v p with
  | nil => simp [removed?] at h
  | cons k ks ih =>
    cases ks with
    | nil =>
      obtain ⟨s, hs, rfl⟩ := Option.map_eq_some_iff.1 h
      obtain ⟨c, hc⟩ := exists_part_of_step? hs
      exact ⟨c, by simp [at?, hc]⟩
    | cons k' ks =>
      obtain ⟨s, -, h⟩ := Option.bind_eq_some_iff.1 h
      obtain ⟨c, hc, h⟩ := Option.bind_eq_some_iff.1 h
      obtain ⟨p, hp, rfl⟩ := Option.map_eq_some_iff.1 h
      obtain ⟨x, hx⟩ := ih hp
      exact ⟨x, by simp [at?, hc, hx]⟩

end One

/-! ## Pointers -/

/-- The position that a pointer addresses. -/
def address? (v : Value) (m : String) : Option Position := (Pointer.keys? m.toList).bind v.position?

/-- The position of the part that is removed for a pointer. -/
def target? (v : Value) (m : String) : Option Position := (Pointer.keys? m.toList).bind v.removed?

/-- How far removal gets along a pointer. -/
def route (v : Value) (m : String) : Position := (Pointer.keys? m.toList).elim [] v.reach

/-- A pointer leads to the part at the position that it addresses. -/
theorem pointer?_eq (v : Value) (m : String) : v.pointer? m = (v.address? m).bind v.at? := by
  unfold pointer? address?
  cases Pointer.keys? m.toList with
  | none => rfl
  | some ks => exact atPath?_eq v ks

theorem route_of_target? {v : Value} {m : String} {p : Position} (h : v.target? m = some p) : v.route m = p := by
  obtain ⟨ks, hks, hp⟩ := Option.bind_eq_some_iff.1 h
  simp [route, hks, reach_of_removed? hp]

/-- Removal takes the part at the position of the pointer, and nothing else. -/
theorem removePointer_eq {v : Value} (hv : v.Canonical) (m : String) :
    v.removePointer m = ((v.target? m).bind v.at?, v.strip (only (v.target? m))) := by
  unfold removePointer target?
  rcases Pointer.slash_cases m.toList with hslash | ⟨a, b, hb, heq⟩
  · have hkeys : (Pointer.keys? m.toList).bind v.removed? = none := by
      cases hm : m.toList with
      | nil => rfl
      | cons c cs =>
        have hc : c ≠ '/' := fun hc => hslash (by simp [hm, hc])
        simp [Pointer.keys?, hc]
    simp [Pointer.splitLast_of_slash_not_mem hslash, hkeys, strip_only_none]
  · rw [heq, Pointer.splitLast_append hb, Pointer.keys?_append hb]
    cases hks : Pointer.keys? a with
    | none => simp [hks, strip_only_none]
    | some ks =>
      cases hp : v.removed? (ks ++ [Pointer.key b]) with
      | none => simp [hks, takeAtPath_eq hv, hp, strip_only_none]
      | some p =>
        obtain ⟨x, hx⟩ := exists_at?_of_removed? hp
        simp [hks, takeAtPath_eq hv, hp, hx]

theorem without_eq {v : Value} (hv : v.Canonical) (m : String) : v.without m = v.strip (only (v.target? m)) := by
  rw [without, removePointer_eq hv]

end Value

end Relay.Json
