import Mathlib.Data.List.Infix
import Relay.Json.Pointer

/-!
# Positions in a JSON value

A position leads from a value to one of its parts, through the members of objects and the items of lists. A set of
positions can be removed all at once (`Value.strip`): what stands at one of them or below goes, and everything else
stays, although an item comes to stand further to the front if items before it went (`Positions.moved`). Removing one
set after another is removing one set (`Value.strip_strip`), once the positions of the second one are traced back to
where their parts stood at first.
-/

namespace Relay.Json

/-- A step from a value to a part of it. -/
inductive Step where
  | key (k : String)
  | item (i : Nat)
  deriving DecidableEq, Repr

/-- The steps from a value to a part of it. -/
abbrev Position := List Step

/-- A set of positions. -/
abbrev Positions := Position → Bool

namespace Positions

/-- The positions of a set that lie behind a step, from there on. -/
def below (gone : Positions) (s : Step) : Positions := fun p => gone (s :: p)

/-- The positions of a set that lie behind a position, from there on. -/
def behind (gone : Positions) (p : Position) : Positions := fun q => gone (p ++ q)

/-- Whether neither a position nor one above it is in a set; the start does not count. -/
def spares (gone : Positions) : Position → Bool
  | [] => true
  | s :: p => !gone [s] && (gone.below s).spares p

/-- The number of items of a list that stay, among `n` of them from the one at `i` on. -/
def kept (gone : Positions) (i n : Nat) : Nat := (List.range' i n).countP fun j => !gone [.item j]

/-- Where a part comes to stand when a set of positions is removed. -/
def moved (gone : Positions) : Position → Position
  | [] => []
  | .key k :: p => .key k :: (gone.below (.key k)).moved p
  | .item i :: p => .item (gone.kept 0 i) :: (gone.below (.item i)).moved p

/-- The set of one position, if there is one. -/
def only (p? : Option Position) : Positions := fun q => decide (p? = some q)

/-- What is removed by one set and then by another. -/
def andThen (gone after : Positions) : Positions := fun p => gone p || after (gone.moved p)

variable {gone after : Positions} {p q : Position} {s : Step} {i j n : Nat}

theorem spares_iff : gone.spares p = true ↔ ∀ q, q ≠ [] → q <+: p → gone q = false := by
  induction p generalizing gone with
  | nil =>
    refine iff_of_true rfl fun q hne hq => absurd (List.prefix_nil.1 hq) hne
  | cons s p ih =>
    rw [spares, Bool.and_eq_true, ih, Bool.not_eq_true']
    constructor
    · rintro ⟨hs, hbelow⟩ q hne hq
      rcases List.prefix_cons_iff.1 hq with rfl | ⟨r, rfl, hr⟩
      · exact absurd rfl hne
      · by_cases hnil : r = []
        · rwa [hnil]
        · exact hbelow r hnil hr
    · intro h
      refine ⟨h [s] (by simp) (by simp), fun q _ hq => h (s :: q) (by simp) ?_⟩
      exact List.cons_prefix_cons.2 ⟨rfl, hq⟩

theorem kept_succ_left : gone.kept i (n + 1) = (if gone [.item i] then 0 else 1) + gone.kept (i + 1) n := by
  unfold kept
  rw [List.range'_succ, List.countP_cons]
  by_cases h : gone [.item i] <;> simp [h, Nat.add_comm]

theorem kept_succ_right : gone.kept i (n + 1) = gone.kept i n + if gone [.item (i + n)] then 0 else 1 := by
  unfold kept
  rw [List.range'_1_concat, List.countP_append]
  by_cases h : gone [.item (i + n)] <;> simp [h]

theorem kept_le : gone.kept i n ≤ n := by
  have hle := List.countP_le_length (p := fun j => !gone [.item j]) (l := List.range' i n)
  rwa [List.length_range'] at hle

theorem kept_eq (h : ∀ j < n, gone [.item (i + j)] = false) : gone.kept i n = n := by
  induction n with
  | zero => rfl
  | succ n ih =>
    have hlast := h n (Nat.lt_succ_self n)
    rw [kept_succ_right, ih fun j hj => h j (Nat.lt_succ_of_lt hj), hlast]
    rfl

/-- Items that stay keep their order. -/
theorem kept_lt_kept (hi : gone [.item i] = false) (h : i < j) : gone.kept 0 i < gone.kept 0 j := by
  induction j with
  | zero => omega
  | succ j ih =>
    rw [kept_succ_right, Nat.zero_add]
    by_cases hij : i = j
    · subst hij
      simp [hi]
    · have := ih (by omega)
      omega

theorem kept_inj (hi : gone [.item i] = false) (hj : gone [.item j] = false) (h : gone.kept 0 i = gone.kept 0 j) :
    i = j := by
  rcases Nat.lt_trichotomy i j with hlt | heq | hlt
  · have := kept_lt_kept hi hlt
    omega
  · exact heq
  · have := kept_lt_kept hj hlt
    omega

/-- Parts that stay come to stand at different positions. -/
theorem moved_inj (hp : gone.spares p = true) (hq : gone.spares q = true) (h : gone.moved p = gone.moved q) : p = q := by
  induction p generalizing gone q with
  | nil =>
    match q with
    | [] => rfl
    | .key _ :: _ | .item _ :: _ => simp [moved] at h
  | cons s p ih =>
    rw [spares, Bool.and_eq_true, Bool.not_eq_true'] at hp
    match q with
    | [] => cases s <;> simp [moved] at h
    | t :: q =>
      rw [spares, Bool.and_eq_true, Bool.not_eq_true'] at hq
      have hstep : s = t := by
        cases s <;> cases t <;> simp only [moved, List.cons.injEq, Step.key.injEq, Step.item.injEq, reduceCtorEq,
          false_and] at h
        · exact congrArg _ h.1
        · exact congrArg _ (kept_inj hp.1 hq.1 h.1)
      subst hstep
      have hrest : (gone.below s).moved p = (gone.below s).moved q := by
        cases s <;> exact (List.cons.inj h).2
      rw [ih hp.2 hq.2 hrest]

end Positions

namespace Value

/-- The part of a value behind a step. -/
def part? : Value → Step → Option Value
  | .object ms, .key k => SortedMap.find? k ms
  | .list items, .item i => items[i]?
  | _, _ => none

/-- The part of a value at a position. -/
def at? (v : Value) : Position → Option Value
  | [] => some v
  | s :: p => (v.part? s).bind (at? · p)

mutual

/-- A value without its parts at the positions of a set. -/
def strip (gone : Positions) : Value → Value
  | .list items => .list (stripItems gone 0 items)
  | .object ms => .object (stripMembers gone ms)
  | v => v

/-- The items of a list, of which the first one has index `i`, without the parts at the positions of a set. -/
def stripItems (gone : Positions) (i : Nat) : List Value → List Value
  | [] => []
  | c :: cs =>
    if gone [.item i] then stripItems gone (i + 1) cs
    else strip (gone.below (.item i)) c :: stripItems gone (i + 1) cs

/-- The members of an object without the parts at the positions of a set. -/
def stripMembers (gone : Positions) : List (String × Value) → List (String × Value)
  | [] => []
  | (k, c) :: ms =>
    if gone [.key k] then stripMembers gone ms
    else (k, strip (gone.below (.key k)) c) :: stripMembers gone ms

end

open Positions

/-! ## Sets that remove the same -/

mutual

/-- What is removed depends on the spared positions alone. -/
theorem strip_congr {g g' : Positions} (h : ∀ p, g.spares p = g'.spares p) : ∀ v : Value, v.strip g = v.strip g'
  | .list items => by rw [strip, strip, stripItems_congr h]
  | .object ms => by rw [strip, strip, stripMembers_congr h]
  | .null | .bool _ | .number _ | .text _ => by simp only [strip]

theorem stripItems_congr {g g' : Positions} (h : ∀ p, g.spares p = g'.spares p) :
    ∀ (i : Nat) (items : List Value), stripItems g i items = stripItems g' i items
  | _, [] => by simp only [stripItems]
  | i, c :: cs => by
    have hhere : g [.item i] = g' [.item i] := by simpa [spares] using h [.item i]
    rw [stripItems, stripItems, hhere, stripItems_congr h]
    split
    · rfl
    · next hstays =>
      have hbelow : ∀ p, (g.below (.item i)).spares p = (g'.below (.item i)).spares p := by
        intro p
        simpa [spares, hhere, hstays] using h (.item i :: p)
      rw [strip_congr hbelow c]

theorem stripMembers_congr {g g' : Positions} (h : ∀ p, g.spares p = g'.spares p) :
    ∀ ms : List (String × Value), stripMembers g ms = stripMembers g' ms
  | [] => by simp only [stripMembers]
  | (k, c) :: ms => by
    have hhere : g [.key k] = g' [.key k] := by simpa [spares] using h [.key k]
    rw [stripMembers, stripMembers, hhere, stripMembers_congr h]
    split
    · rfl
    · next hstays =>
      have hbelow : ∀ p, (g.below (.key k)).spares p = (g'.below (.key k)).spares p := by
        intro p
        simpa [spares, hhere, hstays] using h (.key k :: p)
      rw [strip_congr hbelow c]

end

mutual

/-- Removing nothing changes nothing. -/
theorem strip_nothing {g : Positions} (h : ∀ p, g p = false) : ∀ v : Value, v.strip g = v
  | .list items => by rw [strip, stripItems_nothing fun _ _ _ => h _]
  | .object ms => by rw [strip, stripMembers_nothing h]
  | .null | .bool _ | .number _ | .text _ => by simp only [strip]

theorem stripItems_nothing {g : Positions} {i : Nat} (h : ∀ j p, i ≤ j → g (.item j :: p) = false) :
    ∀ items : List Value, stripItems g i items = items
  | [] => by simp only [stripItems]
  | c :: cs => by
    have hbelow : ∀ p, g.below (.item i) p = false := fun p => h i p (Nat.le_refl i)
    have hrest : ∀ j p, i + 1 ≤ j → g (.item j :: p) = false := fun j p hj => h j p (Nat.le_of_succ_le hj)
    rw [stripItems, h i [] (Nat.le_refl i), stripItems_nothing hrest, strip_nothing hbelow]
    rfl

theorem stripMembers_nothing {g : Positions} (h : ∀ p, g p = false) :
    ∀ ms : List (String × Value), stripMembers g ms = ms
  | [] => by simp only [stripMembers]
  | (k, c) :: ms => by
    have hbelow : ∀ p, g.below (.key k) p = false := fun p => h (.key k :: p)
    rw [stripMembers, h, stripMembers_nothing h, strip_nothing hbelow]
    rfl

end

/-! ## One set after another -/

mutual

/-- Removing one set and then another is removing the first one and what the second one meets. -/
theorem strip_strip (g h : Positions) : ∀ v : Value, (v.strip g).strip h = v.strip (g.andThen h)
  | .list items => by
    have hitems := stripItems_stripItems g h 0 items
    rw [strip, strip, strip, ← hitems]
    rfl
  | .object ms => by rw [strip, strip, strip, stripMembers_stripMembers]
  | .null | .bool _ | .number _ | .text _ => by simp only [strip]

theorem stripItems_stripItems (g h : Positions) : ∀ (i : Nat) (items : List Value),
    stripItems h (g.kept 0 i) (stripItems g i items) = stripItems (g.andThen h) i items
  | _, [] => by simp only [stripItems]
  | i, c :: cs => by
    have hrest := stripItems_stripItems g h (i + 1) cs
    rw [kept_succ_right, Nat.zero_add] at hrest
    by_cases hg : g [.item i] = true
    · have hboth : g.andThen h [.item i] = true := by simp [andThen, hg]
      rw [if_pos hg, Nat.add_zero] at hrest
      rw [stripItems, if_pos hg, stripItems, if_pos hboth, hrest]
    · have hboth : g.andThen h [.item i] = h [.item (g.kept 0 i)] := by simp [andThen, hg, moved]
      rw [if_neg hg] at hrest
      rw [stripItems, if_neg hg, stripItems, stripItems, hboth, hrest, strip_strip]
      rfl

theorem stripMembers_stripMembers (g h : Positions) : ∀ ms : List (String × Value),
    stripMembers h (stripMembers g ms) = stripMembers (g.andThen h) ms
  | [] => by simp only [stripMembers]
  | (k, c) :: ms => by
    have hrest := stripMembers_stripMembers g h ms
    by_cases hg : g [.key k] = true
    · have hboth : g.andThen h [.key k] = true := by simp [andThen, hg]
      rw [stripMembers, if_pos hg, stripMembers, if_pos hboth, hrest]
    · have hboth : g.andThen h [.key k] = h [.key k] := by simp [andThen, hg, moved]
      rw [stripMembers, if_neg hg, stripMembers, stripMembers, hboth, hrest, strip_strip]
      rfl

end

/-! ## What stays, and where -/

section Parts

variable {gone : Positions} {v c : Value} {p q : Position} {s : Step}

theorem find?_stripMembers (gone : Positions) (k : String) (ms : List (String × Value)) :
    SortedMap.find? k (stripMembers gone ms) =
      if gone [.key k] then none else (SortedMap.find? k ms).map (strip (gone.below (.key k))) := by
  induction ms with
  | nil => simp [stripMembers, SortedMap.find?]
  | cons e ms ih =>
    obtain ⟨k', c⟩ := e
    by_cases hk : k = k'
    · subst hk
      by_cases hg : gone [.key k] = true
      · rw [stripMembers, if_pos hg, ih, if_pos hg, if_pos hg]
      · rw [stripMembers, if_neg hg, if_neg hg]
        simp [SortedMap.find?]
    · rw [SortedMap.find?_cons_of_ne hk, stripMembers]
      split
      · exact ih
      · rw [SortedMap.find?_cons_of_ne hk, ih]

theorem getElem?_stripItems (i n : Nat) (items : List Value) (h : gone [.item (i + n)] = false) :
    (stripItems gone i items)[gone.kept i n]? = items[n]?.map (strip (gone.below (.item (i + n)))) := by
  induction items generalizing i n with
  | nil => simp [stripItems]
  | cons c cs ih =>
    cases n with
    | zero =>
      rw [Nat.add_zero] at h
      have hzero : gone.kept i 0 = 0 := rfl
      rw [stripItems, h, hzero]
      simp
    | succ n =>
      have hshift : i + (n + 1) = i + 1 + n := by omega
      rw [hshift] at h ⊢
      rw [kept_succ_left, stripItems]
      split
      · rw [Nat.zero_add, ih _ _ h]
        rfl
      · rw [Nat.add_comm 1, List.getElem?_cons_succ, ih _ _ h]
        rfl

theorem exists_of_getElem?_stripItems {i m : Nat} {items : List Value} {d : Value}
    (h : (stripItems gone i items)[m]? = some d) :
    ∃ n, gone [.item (i + n)] = false ∧ gone.kept i n = m ∧ n < items.length := by
  induction items generalizing i m with
  | nil => simp [stripItems] at h
  | cons c cs ih =>
    rw [stripItems] at h
    have hnext : ∀ {m'}, (stripItems gone (i + 1) cs)[m']? = some d →
        ∃ n, gone [.item (i + (n + 1))] = false ∧ gone.kept i (n + 1) = (if gone [.item i] then 0 else 1) + m' ∧
          n + 1 < (c :: cs).length := by
      intro m' hd
      obtain ⟨n, hstays, hkept, hlt⟩ := ih hd
      refine ⟨n, ?_, by rw [kept_succ_left, hkept], Nat.succ_lt_succ hlt⟩
      rwa [show i + (n + 1) = i + 1 + n by omega]
    split at h
    · next hg =>
      obtain ⟨n, hstays, hkept, hlt⟩ := hnext h
      exact ⟨n + 1, hstays, by rw [hkept, if_pos hg, Nat.zero_add], hlt⟩
    · next hg =>
      cases m with
      | zero => exact ⟨0, by simpa using hg, rfl, by simp⟩
      | succ m =>
        rw [List.getElem?_cons_succ] at h
        obtain ⟨n, hstays, hkept, hlt⟩ := hnext h
        exact ⟨n + 1, hstays, by rw [hkept, if_neg hg, Nat.add_comm], hlt⟩

/-- A part that is not removed is found where it moved. -/
theorem at?_strip (h : gone.spares p = true) :
    (v.strip gone).at? (gone.moved p) = (v.at? p).map (strip (gone.behind p)) := by
  induction p generalizing v gone with
  | nil => rfl
  | cons s p ih =>
    rw [spares, Bool.and_eq_true, Bool.not_eq_true'] at h
    obtain ⟨hs, hbelow⟩ := h
    have hpart : ∀ c : Value, (c.strip (gone.below s)).at? ((gone.below s).moved p) =
        (c.at? p).map (strip (gone.behind (s :: p))) := fun c => ih hbelow
    cases v with
    | object ms =>
      cases s with
      | key k =>
        simp only [strip, moved, at?, part?, find?_stripMembers, hs, Bool.false_eq_true, if_false]
        cases SortedMap.find? k ms with
        | none => rfl
        | some c => exact hpart c
      | item i => rfl
    | list items =>
      cases s with
      | key k => rfl
      | item i =>
        have hitem := getElem?_stripItems 0 i items (by rwa [Nat.zero_add])
        rw [Nat.zero_add] at hitem
        simp only [strip, moved, at?, part?, hitem]
        cases items[i]? with
        | none => rfl
        | some c => exact hpart c
    | null | bool _ | number _ | text _ => cases s <;> rfl

/-- Whatever is left was there before and is not removed. -/
theorem exists_of_at?_strip (h : (v.strip gone).at? q = some c) :
    ∃ p, gone.spares p = true ∧ gone.moved p = q ∧ (v.at? p).map (strip (gone.behind p)) = some c := by
  suffices ∃ p, gone.spares p = true ∧ gone.moved p = q by
    obtain ⟨p, hp, rfl⟩ := this
    exact ⟨p, hp, rfl, (at?_strip hp).symm.trans h⟩
  induction q generalizing v gone with
  | nil => exact ⟨[], rfl, rfl⟩
  | cons s q ih =>
    obtain ⟨d, hd, hq⟩ := Option.bind_eq_some_iff.1 h
    cases v with
    | object ms =>
      cases s with
      | key k =>
        simp only [strip, part?, find?_stripMembers] at hd
        split at hd
        · simp at hd
        · next hg =>
          obtain ⟨x, -, rfl⟩ := Option.map_eq_some_iff.1 hd
          obtain ⟨p, hp, hmoved⟩ := ih hq
          exact ⟨.key k :: p, by simp [spares, hg, hp], by rw [moved, hmoved]⟩
      | item i => simp [strip, part?] at hd
    | list items =>
      cases s with
      | key k => simp [strip, part?] at hd
      | item m =>
        simp only [strip, part?] at hd
        obtain ⟨n, hstays, hkept, hlt⟩ := exists_of_getElem?_stripItems hd
        have hitem := getElem?_stripItems 0 n items hstays
        rw [Nat.zero_add] at hstays hitem
        rw [hkept, hd] at hitem
        obtain ⟨x, -, rfl⟩ := Option.map_eq_some_iff.1 hitem.symm
        obtain ⟨p, hp, hmoved⟩ := ih hq
        exact ⟨.item n :: p, by simp [spares, hstays, hp], by rw [moved, hmoved, hkept]⟩
    | null | bool _ | number _ | text _ => cases s <;> simp [strip, part?] at hd

end Parts

/-! ## Order of members -/

theorem key_of_mem_stripMembers {gone : Positions} {ms : List (String × Value)} {e : String × Value}
    (h : e ∈ stripMembers gone ms) : ∃ c, (e.1, c) ∈ ms := by
  induction ms with
  | nil => simp [stripMembers] at h
  | cons x ms ih =>
    rw [stripMembers] at h
    split at h
    · obtain ⟨c, hc⟩ := ih h
      exact ⟨c, List.mem_cons_of_mem _ hc⟩
    · rcases List.mem_cons.1 h with rfl | h
      · exact ⟨x.2, List.mem_cons_self⟩
      · obtain ⟨c, hc⟩ := ih h
        exact ⟨c, List.mem_cons_of_mem _ hc⟩

theorem sorted_stripMembers {gone : Positions} {ms : List (String × Value)}
    (h : ms.Pairwise fun a b => compare a.1 b.1 = .lt) :
    (stripMembers gone ms).Pairwise fun a b => compare a.1 b.1 = .lt := by
  induction ms with
  | nil => simp [stripMembers]
  | cons x ms ih =>
    obtain ⟨hx, hms⟩ := List.pairwise_cons.1 h
    rw [stripMembers]
    split
    · exact ih hms
    · refine List.pairwise_cons.2 ⟨fun e he => ?_, ih hms⟩
      obtain ⟨c, hc⟩ := key_of_mem_stripMembers he
      exact hx (e.1, c) hc

mutual

/-- Removing parts leaves members in key order. -/
theorem canonical_strip {gone : Positions} : ∀ {v : Value}, v.Canonical → (v.strip gone).Canonical
  | .list items, h => by
    rw [strip, Canonical]
    rw [Canonical] at h
    exact canonicalItems_stripItems h
  | .object ms, h => by
    rw [strip, Canonical]
    rw [Canonical] at h
    exact ⟨sorted_stripMembers h.1, canonicalMembers_stripMembers h.2⟩
  | .null, _ | .bool _, _ | .number _, _ | .text _, _ => by simp only [strip, Canonical]

theorem canonicalItems_stripItems {gone : Positions} {i : Nat} :
    ∀ {items : List Value}, CanonicalItems items → CanonicalItems (stripItems gone i items)
  | [], _ => by simp only [stripItems, CanonicalItems]
  | c :: cs, h => by
    obtain ⟨hc, hcs⟩ := h
    rw [stripItems]
    split
    · exact canonicalItems_stripItems hcs
    · exact ⟨canonical_strip hc, canonicalItems_stripItems hcs⟩

theorem canonicalMembers_stripMembers {gone : Positions} :
    ∀ {ms : List (String × Value)}, CanonicalMembers ms → CanonicalMembers (stripMembers gone ms)
  | [], _ => by simp only [stripMembers, CanonicalMembers]
  | (_, c) :: ms, h => by
    obtain ⟨hc, hms⟩ := h
    rw [stripMembers]
    split
    · exact canonicalMembers_stripMembers hms
    · exact ⟨canonical_strip hc, canonicalMembers_stripMembers hms⟩

end

end Value

end Relay.Json
