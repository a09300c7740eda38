import Relay.Proofs.Removal

/-!
# Removal and look-up

What a pointer addresses is found by look-up and taken out by removal. The two agree on what it is: removal takes out
the member or the item that look-up finds, and nothing else (`Value.TakenOut`). They part over one kind of pointer.
Look-up wants an index without sign and without leading zeros, while removal reads the last token as a number however
written. So a pointer whose last token misspells an index (`Value.Misspelt`) addresses nothing, and removal still takes
out an item.
-/

namespace Relay.Json

namespace Pointer

variable {k : String} {i : Nat} {c : Char} {cs : List Char}

/-- A number with a plus sign or a zero before it. -/
def Misspells (k : String) (i : Nat) : Prop :=
  ∃ cs, natural? cs = some i ∧ (k.toList = '+' :: cs ∨ k.toList = '0' :: cs)

/-! ## Two ways to read an index -/

theorem natural?_of_not_isDigit (h : c.isDigit = false) : natural? (c :: cs) = none := by
  simp [natural?, h]

theorem natural?_zero_cons (h : cs ≠ []) : natural? ('0' :: cs) = natural? cs := by
  simp [natural?, h]

theorem ne_nil_of_natural? (h : natural? cs = some i) : cs ≠ [] := by
  rintro rfl
  simp [natural?] at h

theorem index?_of_plus (h : k.toList = '+' :: cs) : index? k = none := by
  simp only [index?, h]
  exact natural?_of_not_isDigit rfl

theorem index?_of_zero (h : k.toList = '0' :: cs) (hcs : cs ≠ []) : index? k = none := by
  obtain ⟨c, cs, rfl⟩ := List.exists_cons_of_ne_nil hcs
  simp only [index?, h]

theorem looseIndex?_of_plus (h : k.toList = '+' :: cs) : looseIndex? k = natural? cs := by
  simp only [looseIndex?, h]

theorem looseIndex?_of_zero (h : k.toList = '0' :: cs) : looseIndex? k = natural? ('0' :: cs) := by
  simp only [looseIndex?, h]
  rfl

/-- Only with a plus sign or a zero at the front are there two ways to read an index. -/
theorem spelling_cases (k : String) :
    (∃ cs, k.toList = '+' :: cs) ∨ (∃ cs, k.toList = '0' :: cs) ∨ looseIndex? k = index? k := by
  by_cases hplus : ∃ cs, k.toList = '+' :: cs
  · exact .inl hplus
  · by_cases hzero : ∃ cs, k.toList = '0' :: cs
    · exact .inr (.inl hzero)
    · have hindex : index? k = natural? k.toList := by
        unfold index?
        split
        · next h => exact absurd ⟨[], h⟩ hzero
        · next h => exact absurd ⟨_, h⟩ hzero
        · rfl
      have hloose : looseIndex? k = natural? k.toList := by
        unfold looseIndex?
        split
        · next h => exact absurd ⟨_, h⟩ hplus
        · rfl
      exact .inr (.inr (hloose.trans hindex.symm))

theorem looseIndex?_of_index? (h : index? k = some i) : looseIndex? k = some i := by
  rcases spelling_cases k with ⟨cs, hcs⟩ | ⟨cs, hcs⟩ | hsame
  · rw [index?_of_plus hcs] at h
    simp at h
  · have hnil : cs = [] := by
      by_contra hne
      rw [index?_of_zero hcs hne] at h
      simp at h
    subst hnil
    rw [looseIndex?_of_zero hcs, ← h]
    simp only [index?, hcs]
    rfl
  · rw [hsame, h]

/-- Misspelt are the numbers that only the free way of reading takes for an index. -/
theorem misspells_iff : Misspells k i ↔ looseIndex? k = some i ∧ index? k = none := by
  constructor
  · rintro ⟨cs, hnatural, hcs | hcs⟩
    · exact ⟨(looseIndex?_of_plus hcs).trans hnatural, index?_of_plus hcs⟩
    · have hne : cs ≠ [] := ne_nil_of_natural? hnatural
      refine ⟨?_, index?_of_zero hcs hne⟩
      rw [looseIndex?_of_zero hcs, natural?_zero_cons hne, hnatural]
  · rintro ⟨hloose, hindex⟩
    rcases spelling_cases k with ⟨cs, hcs⟩ | ⟨cs, hcs⟩ | hsame
    · exact ⟨cs, (looseIndex?_of_plus hcs).symm.trans hloose, .inl hcs⟩
    · -- A lone zero would be an index.
      have hne : cs ≠ [] := by
        rintro rfl
        simp [index?, hcs] at hindex
      rw [looseIndex?_of_zero hcs, natural?_zero_cons hne] at hloose
      exact ⟨cs, hloose, .inr hcs⟩
    · rw [hsame, hindex] at hloose
      simp at hloose

end Pointer

namespace Value

open Positions

/-! ## Taking out one part -/

/-- A value, and the same without the part `x` at a position: one member or item less, and nothing else changed. -/
inductive TakenOut (x : Value) : Position → Value → Value → Prop
  | member (before after : List (String × Value)) (k : String) :
    TakenOut x [.key k] (.object (before ++ (k, x) :: after)) (.object (before ++ after))
  | item (before after : List Value) :
    TakenOut x [.item before.length] (.list (before ++ x :: after)) (.list (before ++ after))
  | inMember (before after : List (String × Value)) (k : String) {p : Position} {c c' : Value}
    (inside : TakenOut x p c c') :
    TakenOut x (.key k :: p) (.object (before ++ (k, c) :: after)) (.object (before ++ (k, c') :: after))
  | inItem (before after : List Value) {p : Position} {c c' : Value} (inside : TakenOut x p c c') :
    TakenOut x (.item before.length :: p) (.list (before ++ c :: after)) (.list (before ++ c' :: after))

section Split

variable {before after ms : List (String × Value)} {items : List Value} {k : String} {i : Nat} {x c c' : Value}
  {p : Position}

/-- In key order, the members before the one that is found have smaller keys. -/
theorem exists_split_of_find? (hms : ms.Pairwise fun a b => compare a.1 b.1 = .lt)
    (h : SortedMap.find? k ms = some c) :
    ∃ before after, ms = before ++ (k, c) :: after ∧ ∀ e ∈ before, compare e.1 k = .lt := by
  obtain ⟨before, after, rfl⟩ := List.append_of_mem (SortedMap.mem_of_find?_eq_some h)
  refine ⟨before, after, rfl, fun e he => ?_⟩
  obtain ⟨-, -, hcross⟩ := List.pairwise_append.1 hms
  exact hcross e he (k, c) List.mem_cons_self

theorem eraseKey_append (h : ∀ e ∈ before, compare e.1 k = .lt) :
    eraseKey k (before ++ (k, c) :: after) = before ++ after := by
  induction before with
  | nil => simp [eraseKey]
  | cons e before ih =>
    obtain ⟨he, hbefore⟩ := List.forall_mem_cons.1 h
    have hne : compare k e.1 ≠ .eq := by
      intro heq
      rw [Std.LawfulEqCmp.eq_of_compare heq] at he
      simp at he
    rw [List.cons_append, eraseKey, if_neg hne, ih hbefore, List.cons_append]

theorem place_append (h : ∀ e ∈ before, compare e.1 k = .lt) (x : Value) :
    SortedMap.place k x (before ++ (k, c) :: after) = before ++ (k, x) :: after := by
  induction before with
  | nil => simp [SortedMap.place]
  | cons e before ih =>
    obtain ⟨he, hbefore⟩ := List.forall_mem_cons.1 h
    have hgt : compare k e.1 = .gt := Std.OrientedCmp.gt_iff_lt.2 he
    simp only [List.cons_append, SortedMap.place, hgt, ih hbefore]

theorem takenOut_eraseKey (hms : ms.Pairwise fun a b => compare a.1 b.1 = .lt)
    (h : SortedMap.find? k ms = some x) : TakenOut x [.key k] (.object ms) (.object (eraseKey k ms)) := by
  obtain ⟨before, after, rfl, hbefore⟩ := exists_split_of_find? hms h
  rw [eraseKey_append hbefore]
  exact .member before after k

theorem takenOut_place (hms : ms.Pairwise fun a b => compare a.1 b.1 = .lt) (h : SortedMap.find? k ms = some c)
    (inside : TakenOut x p c c') : TakenOut x (.key k :: p) (.object ms) (.object (SortedMap.place k c' ms)) := by
  obtain ⟨before, after, rfl, hbefore⟩ := exists_split_of_find? hms h
  rw [place_append hbefore]
  exact .inMember before after k inside

theorem exists_split_of_getElem? (h : items[i]? = some c) :
    ∃ before after, before.length = i ∧ items = before ++ c :: after := by
  obtain ⟨hi, rfl⟩ := List.getElem?_eq_some_iff.1 h
  refine ⟨items.take i, items.drop (i + 1), List.length_take_of_le (Nat.le_of_lt hi), ?_⟩
  rw [List.getElem_cons_drop, List.take_append_drop]

theorem takenOut_eraseIdx (h : items[i]? = some x) :
    TakenOut x [.item i] (.list items) (.list (items.eraseIdx i)) := by
  obtain ⟨before, after, rfl, rfl⟩ := exists_split_of_getElem? h
  rw [List.eraseIdx_append_of_length_le (Nat.le_refl _), Nat.sub_self, List.eraseIdx_cons_zero]
  exact .item before after

theorem takenOut_set (h : items[i]? = some c) (inside : TakenOut x p c c') :
    TakenOut x (.item i :: p) (.list items) (.list (items.set i c')) := by
  obtain ⟨before, after, rfl, rfl⟩ := exists_split_of_getElem? h
  rw [List.set_append_right _ _ (Nat.le_refl _), Nat.sub_self, List.set_cons_zero]
  exact .inItem before after inside

/-- Stripping a value of one position takes out the part there. -/
theorem takenOut_strip {v : Value} (hv : v.Canonical) (hp : p ≠ []) (hx : v.at? p = some x) :
    TakenOut x p v (v.strip (only (some p))) := by
  induction p generalizing v with
  | nil => exact absurd rfl hp
  | cons s p ih =>
    obtain ⟨c, hc, hrest⟩ := Option.bind_eq_some_iff.1 hx
    have hcanonical : c.Canonical := canonical_part? hv hc
    cases v with
    | object ms =>
      cases s with
      | item i => simp [part?] at hc
      | key k =>
        rw [Canonical] at hv
        rw [strip]
        by_cases hnil : p = []
        · subst hnil
          obtain rfl : c = x := Option.some.inj hrest
          rw [← eraseKey_eq hv.1]
          exact takenOut_eraseKey hv.1 hc
        · rw [← place_eq hv.1 hc hnil]
          exact takenOut_place hv.1 hc (ih hcanonical hnil hrest)
    | list items =>
      cases s with
      | key k => simp [part?] at hc
      | item i =>
        have herase := eraseIdx_eq items 0 i
        have hset := set_eq 0 i hc (p := p)
        rw [Nat.zero_add] at herase hset
        rw [strip]
        by_cases hnil : p = []
        · subst hnil
          obtain rfl : c = x := Option.some.inj hrest
          rw [← herase]
          exact takenOut_eraseIdx hc
        · rw [← hset hnil]
          exact takenOut_set hc (ih hcanonical hnil hrest)
    | null | bool _ | number _ | text _ => cases s <;> simp [part?] at hc

end Split

/-! ## The last token -/

section Last

variable {parent last : String}

/-- The position that keys lead to, and a step from there for one more key, where an index is read in a given way. -/
def ending? (read : String → Option Nat) (v : Value) (ks : List String) (k : String) : Option Position :=
  (v.position? ks).bind fun q => (v.at? q).bind fun c => (c.step? read k).map fun s => q ++ [s]

theorem ending?_nil (read : String → Option Nat) (v : Value) (k : String) :
    ending? read v [] k = (v.step? read k).map fun s => [s] := rfl

theorem ending?_cons (read : String → Option Nat) (v : Value) (k' : String) (ks : List String) (k : String) :
    ending? read v (k' :: ks) k =
      (v.step? Pointer.index? k').bind fun s => (v.part? s).bind fun c => (ending? read c ks k).map (s :: ·) := by
  unfold ending?
  rw [position?]
  cases hs : v.step? Pointer.index? k' with
  | none => rfl
  | some s =>
    obtain ⟨c, hc⟩ := exists_part_of_step? hs
    simp only [Option.bind_some, hc]
    cases hq : c.position? ks with
    | none => rfl
    | some q =>
      simp only [Option.map_some, Option.bind_some, at?, hc]
      cases c.at? q with
      | none => rfl
      | some d => cases hd : d.step? read k <;> simp [hd]

theorem position?_concat (v : Value) (ks : List String) (k : String) :
    v.position? (ks ++ [k]) = ending? Pointer.index? v ks k := by
  induction ks generalizing v with
  | nil =>
    rw [List.nil_append, ending?_nil, position?]
    cases hs : v.step? Pointer.index? k with
    | none => rfl
    | some s =>
      obtain ⟨c, hc⟩ := exists_part_of_step? hs
      simp [hc, position?]
  | cons k' ks ih =>
    rw [List.cons_append, position?, ending?_cons]
    simp only [ih]

theorem removed?_concat (v : Value) (ks : List String) (k : String) :
    v.removed? (ks ++ [k]) = ending? Pointer.looseIndex? v ks k := by
  induction ks generalizing v with
  | nil => rw [List.nil_append, ending?_nil, removed?]
  | cons k' ks ih =>
    obtain ⟨k'', rest, hrest⟩ : ∃ k'' rest, ks ++ [k] = k'' :: rest := List.exists_cons_of_ne_nil (by simp)
    rw [List.cons_append, hrest, removed?, ending?_cons, ← hrest]
    simp only [ih]

theorem keys?_child (hlast : '/' ∉ last.toList) :
    Pointer.keys? (parent ++ "/" ++ last).toList =
      (Pointer.keys? parent.toList).map (· ++ [Pointer.key last.toList]) := by
  have htext : (parent ++ "/" ++ last).toList = parent.toList ++ '/' :: last.toList := by simp
  rw [htext, Pointer.keys?_append hlast]

theorem address?_child (v : Value) (hlast : '/' ∉ last.toList) :
    v.address? (parent ++ "/" ++ last) =
      (Pointer.keys? parent.toList).bind fun ks => ending? Pointer.index? v ks (Pointer.key last.toList) := by
  rw [address?, keys?_child hlast, Option.bind_map]
  simp only [Function.comp_def, position?_concat]

theorem target?_child (v : Value) (hlast : '/' ∉ last.toList) :
    v.target? (parent ++ "/" ++ last) =
      (Pointer.keys? parent.toList).bind fun ks => ending? Pointer.looseIndex? v ks (Pointer.key last.toList) := by
  rw [target?, keys?_child hlast, Option.bind_map]
  simp only [Function.comp_def, removed?_concat]

theorem parent_cases (m : String) :
    '/' ∉ m.toList ∨ ∃ parent last, '/' ∉ last.toList ∧ m = parent ++ "/" ++ last := by
  rcases Pointer.slash_cases m.toList with hslash | ⟨a, b, hb, hm⟩
  · exact .inl hslash
  · refine .inr ⟨String.ofList a, String.ofList b, by rwa [String.toList_ofList], String.toList_inj.1 ?_⟩
    simpa using hm

theorem keys?_of_slash_not_mem {m : String} (hm : m ≠ "") (hslash : '/' ∉ m.toList) :
    Pointer.keys? m.toList = none := by
  cases hcs : m.toList with
  | nil => exact absurd (String.toList_eq_nil_iff.1 hcs) hm
  | cons c cs =>
    have hc : c ≠ '/' := by
      rintro rfl
      exact hslash (by simp [hcs])
    rw [Pointer.keys?, if_neg hc]

end Last

/-! ## Misspelt pointers -/

/-- The last token of a pointer is looked up in a list and misspells the index of an item, the one at a position. -/
def Misspelt (v : Value) (m : String) (p : Position) : Prop :=
  ∃ parent last q items i, '/' ∉ last.toList ∧ m = parent ++ "/" ++ last ∧ v.address? parent = some q ∧
    v.at? q = some (.list items) ∧ i < items.length ∧ Pointer.Misspells (Pointer.key last.toList) i ∧ p = q ++ [.item i]

section Misspelt

variable {v c : Value} {p : Position} {s : Step} {k m : String} {ks : List String}

theorem step?_looseIndex_of_index (h : v.step? Pointer.index? k = some s) : v.step? Pointer.looseIndex? k = some s := by
  cases v with
  | list items =>
    obtain ⟨i, hi, hs⟩ := Option.bind_eq_some_iff.1 h
    simp only [step?, Pointer.looseIndex?_of_index? hi, Option.bind_some]
    exact hs
  | object ms => exact h
  | null | bool _ | number _ | text _ => simp [step?] at h

/-- The two ways to read a key lead to different steps at misspelt indices only. -/
theorem step?_differ :
    c.step? Pointer.looseIndex? k = some s ∧ c.step? Pointer.index? k = none ↔
      ∃ items i, c = .list items ∧ i < items.length ∧ Pointer.Misspells k i ∧ s = .item i := by
  constructor
  · rintro ⟨hloose, hindex⟩
    cases c with
    | list items =>
      obtain ⟨i, hi, hs⟩ := Option.bind_eq_some_iff.1 hloose
      by_cases hlt : i < items.length
      · rw [if_pos hlt] at hs
        refine ⟨items, i, rfl, hlt, Pointer.misspells_iff.2 ⟨hi, ?_⟩, (Option.some.inj hs).symm⟩
        -- An index that is also well spelt would have led to the same item.
        cases hj : Pointer.index? k with
        | none => rfl
        | some j =>
          have hij : j = i := Option.some.inj ((Pointer.looseIndex?_of_index? hj).symm.trans hi)
          subst hij
          simp [step?, hj, hlt] at hindex
      · rw [if_neg hlt] at hs
        simp at hs
    | object ms =>
      have hsame : (object ms).step? Pointer.index? k = some s := hloose
      rw [hindex] at hsame
      simp at hsame
    | null | bool _ | number _ | text _ => simp [step?] at hloose
  · rintro ⟨items, i, rfl, hlt, hk, rfl⟩
    obtain ⟨hloose, hindex⟩ := Pointer.misspells_iff.1 hk
    simp [step?, hloose, hindex, hlt]

theorem ending?_looseIndex_of_index (h : ending? Pointer.index? v ks k = some p) :
    ending? Pointer.looseIndex? v ks k = some p := by
  obtain ⟨q, hq, h⟩ := Option.bind_eq_some_iff.1 h
  obtain ⟨c, hc, h⟩ := Option.bind_eq_some_iff.1 h
  obtain ⟨s, hs, rfl⟩ := Option.map_eq_some_iff.1 h
  simp only [ending?, hq, hc, Option.bind_some, step?_looseIndex_of_index hs, Option.map_some]

theorem ending?_differ :
    ending? Pointer.looseIndex? v ks k = some p ∧ ending? Pointer.index? v ks k = none ↔
      ∃ q items i, v.position? ks = some q ∧ v.at? q = some (.list items) ∧ i < items.length ∧
        Pointer.Misspells k i ∧ p = q ++ [.item i] := by
  constructor
  · rintro ⟨hloose, hindex⟩
    obtain ⟨q, hq, hloose⟩ := Option.bind_eq_some_iff.1 hloose
    obtain ⟨c, hc, hloose⟩ := Option.bind_eq_some_iff.1 hloose
    obtain ⟨s, hs, rfl⟩ := Option.map_eq_some_iff.1 hloose
    simp only [ending?, hq, hc, Option.bind_some, Option.map_eq_none_iff] at hindex
    obtain ⟨items, i, rfl, hlt, hk, rfl⟩ := step?_differ.1 ⟨hs, hindex⟩
    exact ⟨q, items, i, hq, hc, hlt, hk, rfl⟩
  · rintro ⟨q, items, i, hq, hc, hlt, hk, rfl⟩
    obtain ⟨hloose, hindex⟩ := step?_differ.2 ⟨items, i, rfl, hlt, hk, rfl⟩
    simp only [ending?, hq, hc, Option.bind_some, hloose, hindex, Option.map_some, Option.map_none, and_self]

/-- What a pointer addresses is what removal takes. -/
theorem target?_of_address? (hm : m ≠ "") (h : v.address? m = some p) : v.target? m = some p := by
  rcases parent_cases m with hslash | ⟨parent, last, hlast, rfl⟩
  · rw [address?, keys?_of_slash_not_mem hm hslash] at h
    simp at h
  · rw [address?_child v hlast] at h
    obtain ⟨ks, hks, h⟩ := Option.bind_eq_some_iff.1 h
    rw [target?_child v hlast, hks, Option.bind_some]
    exact ending?_looseIndex_of_index h

/-- Misspelt are the pointers by which removal takes a part and which address none. -/
theorem misspelt_iff : v.Misspelt m p ↔ v.target? m = some p ∧ v.address? m = none := by
  constructor
  · rintro ⟨parent, last, q, items, i, hlast, rfl, hq, hlist, hlt, hk, rfl⟩
    obtain ⟨ks, hks, hq⟩ := Option.bind_eq_some_iff.1 hq
    rw [target?_child v hlast, address?_child v hlast, hks, Option.bind_some, Option.bind_some]
    exact ending?_differ.2 ⟨q, items, i, hq, hlist, hlt, hk, rfl⟩
  · rintro ⟨htarget, haddress⟩
    rcases parent_cases m with hslash | ⟨parent, last, hlast, rfl⟩
    · by_cases hm : m = ""
      · subst hm
        simp [address?, Pointer.keys?, position?] at haddress
      · rw [target?, keys?_of_slash_not_mem hm hslash] at htarget
        simp at htarget
    · rw [target?_child v hlast] at htarget
      rw [address?_child v hlast] at haddress
      obtain ⟨ks, hks, htarget⟩ := Option.bind_eq_some_iff.1 htarget
      rw [hks, Option.bind_some] at haddress
      obtain ⟨q, items, i, hq, hlist, hlt, hk, rfl⟩ := ending?_differ.1 ⟨htarget, haddress⟩
      refine ⟨parent, last, q, items, i, hlast, rfl, ?_, hlist, hlt, hk, rfl⟩
      rw [address?, hks, Option.bind_some, hq]

theorem target?_eq_address? (hm : m ≠ "") (h : ∀ p, ¬v.Misspelt m p) : v.target? m = v.address? m := by
  cases haddress : v.address? m with
  | some p => exact target?_of_address? hm haddress
  | none =>
    cases htarget : v.target? m with
    | none => rfl
    | some p => exact absurd (misspelt_iff.2 ⟨htarget, haddress⟩) (h p)

end Misspelt

/-! ## Agreement -/

/-- Removal by a pointer takes what look-up finds and nothing else, and does nothing where look-up finds nothing. -/
structure AgreesWithLookup (v : Value) (m : String) : Prop where
  found : ∀ x, (v.removePointer m).1 = some x ↔ v.pointer? m = some x
  only : ∀ x, v.pointer? m = some x → ∃ p, v.address? m = some p ∧ TakenOut x p v (v.removePointer m).2
  nothing : v.pointer? m = none → v.removePointer m = (none, v)

section Agreement

variable {v x : Value} {p : Position} {m : String}

theorem exists_at?_of_target? (h : v.target? m = some p) : p ≠ [] ∧ ∃ x, v.at? p = some x := by
  obtain ⟨ks, -, hp⟩ := Option.bind_eq_some_iff.1 h
  exact ⟨removed?_ne_nil hp, exists_at?_of_removed? hp⟩

/-- By the position that it finds, removal takes out the part there. -/
theorem takenOut_of_target? (hv : v.Canonical) (hp : v.target? m = some p) :
    ∃ x, v.at? p = some x ∧ (v.removePointer m).1 = some x ∧ TakenOut x p v (v.removePointer m).2 := by
  obtain ⟨hne, x, hx⟩ := exists_at?_of_target? hp
  rw [removePointer_eq hv, hp, Option.bind_some, hx]
  exact ⟨x, rfl, rfl, takenOut_strip hv hne hx⟩

theorem removePointer_of_found (hv : v.Canonical) (hm : m ≠ "") (h : v.pointer? m = some x) :
    (v.removePointer m).1 = some x ∧ ∃ p, v.address? m = some p ∧ TakenOut x p v (v.removePointer m).2 := by
  rw [pointer?_eq] at h
  obtain ⟨p, hp, hx⟩ := Option.bind_eq_some_iff.1 h
  obtain ⟨y, hy, hremoved, hout⟩ := takenOut_of_target? hv (target?_of_address? hm hp)
  obtain rfl : y = x := Option.some.inj (hy.symm.trans hx)
  exact ⟨hremoved, p, hp, hout⟩

theorem agreesWithLookup_of_spelt (hv : v.Canonical) (hm : m ≠ "") (h : ∀ p, ¬v.Misspelt m p) :
    v.AgreesWithLookup m := by
  have hsame : v.target? m = v.address? m := target?_eq_address? hm h
  have hfirst : (v.removePointer m).1 = v.pointer? m := by rw [removePointer_eq hv, hsame, pointer?_eq]
  refine ⟨fun x => by rw [hfirst], fun x hx => (removePointer_of_found hv hm hx).2, fun hnone => ?_⟩
  -- Every position that removal finds has a part, so there is none.
  have htarget : v.target? m = none := by
    cases hp : v.target? m with
    | none => rfl
    | some p =>
      obtain ⟨x, -, hx, -⟩ := takenOut_of_target? hv hp
      rw [hfirst, hnone] at hx
      simp at hx
  rw [removePointer_eq hv, htarget, strip_only_none, Option.bind_none]

/-- Removal agrees with look-up by every pointer that does not misspell an index of a list. What look-up finds is
removed in any case. By a misspelt pointer nothing is found, and the item with the misspelt index is removed. -/
theorem removal_agrees_iff (hv : v.Canonical) (hm : m ≠ "") :
    (v.AgreesWithLookup m ↔ ∀ p, ¬v.Misspelt m p) ∧
    (∀ x, v.pointer? m = some x → (v.removePointer m).1 = some x ∧
      ∃ p, v.address? m = some p ∧ TakenOut x p v (v.removePointer m).2) ∧
    ∀ p, v.Misspelt m p → v.pointer? m = none ∧
      ∃ x, v.at? p = some x ∧ (v.removePointer m).1 = some x ∧ TakenOut x p v (v.removePointer m).2 := by
  have hmisspelt : ∀ p, v.Misspelt m p → v.pointer? m = none ∧
      ∃ x, v.at? p = some x ∧ (v.removePointer m).1 = some x ∧ TakenOut x p v (v.removePointer m).2 := by
    intro p hp
    obtain ⟨htarget, haddress⟩ := misspelt_iff.1 hp
    refine ⟨?_, takenOut_of_target? hv htarget⟩
    rw [pointer?_eq, haddress, Option.bind_none]
  refine ⟨⟨fun hagrees p hp => ?_, agreesWithLookup_of_spelt hv hm⟩, fun x => removePointer_of_found hv hm, hmisspelt⟩
  obtain ⟨hnone, x, -, hremoved, -⟩ := hmisspelt p hp
  rw [hagrees.nothing hnone] at hremoved
  simp at hremoved

end Agreement

namespace Padded

/-- An object with a list. -/
def listed : Value := .object [("items", .list [.text "x", .text "y", .text "z"])]

theorem canonical_listed : listed.Canonical := by
  simp [listed, Canonical, CanonicalItems, CanonicalMembers]

theorem misspelt_listed : listed.Misspelt "/items/01" [.key "items", .item 1] := by
  refine ⟨"/items", "01", [.key "items"], [.text "x", .text "y", .text "z"], 1, by decide, by decide, by decide +kernel,
    rfl, by decide, ?_, rfl⟩
  exact ⟨['1'], by decide, .inr (by decide)⟩

/-- An index with a zero before it addresses nothing, and removal takes the item that the index without it addresses. -/
theorem removes_at_padded_index :
    listed.pointer? "/items/01" = none ∧ (listed.removePointer "/items/01").1 = some (.text "y") ∧
      ¬listed.AgreesWithLookup "/items/01" ∧
      listed.pointer? "/items/1" = some (.text "y") ∧ (listed.removePointer "/items/1").1 = some (.text "y") := by
  obtain ⟨hagrees, -, hmisspelt⟩ := removal_agrees_iff canonical_listed (m := "/items/01") (by decide)
  obtain ⟨hnone, x, hx, hremoved, -⟩ := hmisspelt _ misspelt_listed
  obtain rfl : Value.text "y" = x := Option.some.inj hx
  have hplain : listed.pointer? "/items/1" = some (.text "y") := rfl
  obtain ⟨-, hfound, -⟩ := removal_agrees_iff canonical_listed (m := "/items/1") (by decide)
  exact ⟨hnone, hremoved, fun h => hagrees.1 h _ misspelt_listed, hplain, (hfound _ hplain).1⟩

example : listed.removePointer "/items/+2" =
    (some (.text "z"), .object [("items", .list [.text "x", .text "y"])]) := by
  rfl

end Padded

end Value

end Relay.Json
