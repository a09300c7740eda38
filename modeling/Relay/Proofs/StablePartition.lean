import Mathlib.Data.List.Perm.Basic
import Relay.Matching

/-!
# Matching as a stable partition

The records of a batch are matched in parallel: each is judged once, at a time of its own, and the judgement put at the
place of the record. Then the judgements are read in the order of the places. So the schedule leaves no trace, and what
is matched and what is not are the records themselves, pulled apart without a change of order.
-/

namespace Relay

/-! ## Judging in parallel -/

namespace Matching

variable (subscribers : List Subscriber) (records : List Record)

theorem getElem?_judgeAt (slots : List (Option (Except Record Routed))) (i j : Nat) (hj : j < slots.length) :
    (judgeAt subscribers records slots i)[j]? =
      if j = i then some (records[j]?.map (·.judge subscribers)) else slots[j]? := by
  rw [judgeAt, List.getElem?_set]
  split
  · next h =>
    subst h
    simp [hj]
  · next h => rw [if_neg fun h' => h h'.symm]

theorem length_foldl_judgeAt (order : List Nat) (slots : List (Option (Except Record Routed))) :
    (order.foldl (judgeAt subscribers records) slots).length = slots.length := by
  induction order generalizing slots with
  | nil => rfl
  | cons i order ih => rw [List.foldl_cons, ih, judgeAt, List.length_set]

/-- After any judgements, the places judged hold their own judgement, and the others what they held. -/
theorem getElem?_foldl_judgeAt (order : List Nat) (slots : List (Option (Except Record Routed))) (j : Nat)
    (hj : j < slots.length) :
    (order.foldl (judgeAt subscribers records) slots)[j]? =
      if j ∈ order then some (records[j]?.map (·.judge subscribers)) else slots[j]? := by
  induction order generalizing slots with
  | nil => simp
  | cons i order ih =>
    rw [List.foldl_cons, ih _ (by rwa [judgeAt, List.length_set]), getElem?_judgeAt subscribers records _ _ _ hj]
    by_cases hi : j = i <;> by_cases ho : j ∈ order <;> simp [hi, ho]

/-- Once each place is judged, the places hold the judgements on their records. -/
theorem foldl_judgeAt_of_perm {order : List Nat} (horder : order.Perm (List.range records.length)) :
    order.foldl (judgeAt subscribers records) (List.replicate records.length none) =
      records.map fun r => some (r.judge subscribers) := by
  refine List.ext_getElem? fun j => ?_
  rcases Nat.lt_or_ge j records.length with hj | hj
  · rw [getElem?_foldl_judgeAt _ _ _ _ _ (by rwa [List.length_replicate]),
      if_pos (horder.mem_iff.2 (List.mem_range.2 hj)), List.getElem?_map]
    simp [hj]
  · rw [List.getElem?_eq_none (by rwa [length_foldl_judgeAt, List.length_replicate]),
      List.getElem?_eq_none (by rwa [List.length_map])]

/-- Reading the judgements in order adds each record to its side. -/
theorem foldl_add (m : Matching) :
    (records.map (·.judge subscribers)).foldl add m =
      ⟨m.matched ++ (ofRecords subscribers records).matched,
        m.unmatched ++ (ofRecords subscribers records).unmatched⟩ := by
  induction records generalizing m with
  | nil => simp [ofRecords]
  | cons r records ih =>
    rw [List.map_cons, List.foldl_cons, ih]
    cases hfind : subscribers.find? (·.accepts r) with
    | none => simp [Record.judge, add, ofRecords, Record.route?, hfind]
    | some s => simp [Record.judge, add, ofRecords, Record.route?, hfind]

/-- If each place is judged once, the schedule leaves no trace. -/
theorem inOrder?_of_perm {order : List Nat} (horder : order.Perm (List.range records.length)) :
    inOrder? subscribers records order = some (ofRecords subscribers records) := by
  have hall : (records.map fun r => some (r.judge subscribers)).mapM id = some (records.map (·.judge subscribers)) := by
    rw [List.mapM_map]
    exact List.mapM_pure
  simp only [inOrder?, foldl_judgeAt_of_perm subscribers records horder, hall, Option.map_some, foldl_add, List.nil_append]

/-! ## The two sides together -/

/-- Two lists put together, the marks saying which of them the next element comes from. -/
def interleave {α : Type} : List Bool → List α → List α → List α
  | true :: marks, a :: as, bs => a :: interleave marks as bs
  | false :: marks, as, b :: bs => b :: interleave marks as bs
  | _, _, _ => []

/-- Which records some subscriber takes, by their places. -/
def taken : List Bool := records.map fun r => subscribers.any (·.accepts r)

variable {subscribers records}

theorem route?_eq_none_iff {r : Record} :
    r.route? subscribers = none ↔ ∀ s ∈ subscribers, s.accepts r = false := by
  simp [Record.route?]

theorem route?_eq_some_iff {r : Record} {x : Routed} :
    r.route? subscribers = some x ↔ x.record = r ∧
      ∃ earlier later, subscribers = earlier ++ x.subscriber :: later ∧ x.subscriber.accepts r = true ∧
        ∀ s ∈ earlier, s.accepts r = false := by
  obtain ⟨s, r'⟩ := x
  constructor
  · intro h
    obtain ⟨s', hfind, heq⟩ := Option.map_eq_some_iff.1 h
    obtain ⟨rfl, rfl⟩ := Routed.mk.inj heq
    obtain ⟨haccepts, earlier, later, hsplit, hearlier⟩ := List.find?_eq_some_iff_append.1 hfind
    exact ⟨rfl, earlier, later, hsplit, haccepts, fun s hs => by simpa using hearlier s hs⟩
  · rintro ⟨rfl, earlier, later, hsplit, haccepts, hearlier⟩
    have hfind : subscribers.find? (·.accepts r') = some s :=
      List.find?_eq_some_iff_append.2 ⟨haccepts, earlier, later, hsplit, fun s hs => by simpa using hearlier s hs⟩
    rw [Record.route?, hfind]
    rfl

/-- A record with a subscriber is taken, and is the record that is paired. -/
theorem route?_cases (subscribers : List Subscriber) (r : Record) :
    (∃ s, r.route? subscribers = some ⟨s, r⟩ ∧ subscribers.any (·.accepts r) = true) ∨
      (r.route? subscribers = none ∧ subscribers.any (·.accepts r) = false) := by
  cases hroute : r.route? subscribers with
  | none =>
    right
    exact ⟨rfl, List.any_eq_false.2 (by simpa using route?_eq_none_iff.1 hroute)⟩
  | some x =>
    left
    obtain ⟨hrecord, earlier, later, rfl, haccepts, -⟩ := route?_eq_some_iff.1 hroute
    exact ⟨x.subscriber, by rw [← hrecord], List.any_eq_true.2 ⟨x.subscriber, by simp, haccepts⟩⟩

theorem interleave_ofRecords (subscribers : List Subscriber) (records : List Record) :
    interleave (taken subscribers records) ((ofRecords subscribers records).matched.map (·.record))
      (ofRecords subscribers records).unmatched = records := by
  induction records with
  | nil => rfl
  | cons r records ih =>
    rcases route?_cases subscribers r with ⟨s, hroute, htaken⟩ | ⟨hroute, htaken⟩ <;>
      simpa [ofRecords, taken, interleave, hroute, htaken] using ih

theorem matched_sublist (subscribers : List Subscriber) (records : List Record) :
    ((ofRecords subscribers records).matched.map (·.record)).Sublist records := by
  induction records with
  | nil => exact List.nil_sublist _
  | cons r records ih =>
    rcases route?_cases subscribers r with ⟨s, hroute, -⟩ | ⟨hroute, -⟩
    · simpa [ofRecords, hroute] using ih
    · simpa [ofRecords, hroute] using ih.cons r

theorem perm_ofRecords (subscribers : List Subscriber) (records : List Record) :
    ((ofRecords subscribers records).matched.map (·.record) ++ (ofRecords subscribers records).unmatched).Perm
      records := by
  induction records with
  | nil => exact List.Perm.refl _
  | cons r records ih =>
    rcases route?_cases subscribers r with ⟨s, hroute, -⟩ | ⟨hroute, -⟩
    · simpa [ofRecords, hroute] using ih
    · simpa [ofRecords, hroute] using List.perm_middle.trans (ih.cons r)

/-- However the places of a batch are scheduled, each once, matching has one result. The two sides interleaved by
place are the records of the batch, each of them once, and either side keeps their order. A record is left over if
every subscriber rejects it. Otherwise it goes to a subscriber that takes it, while those before that one reject it. -/
theorem stable_partition {order : List Nat} (horder : order.Perm (List.range records.length)) :
    ∃ m, inOrder? subscribers records order = some m ∧ m = ofRecords subscribers records ∧
      interleave (taken subscribers records) (m.matched.map (·.record)) m.unmatched = records ∧
      (m.matched.map (·.record) ++ m.unmatched).Perm records ∧
      (m.matched.map (·.record)).Sublist records ∧ m.unmatched.Sublist records ∧
      (∀ r, r ∈ m.unmatched ↔ r ∈ records ∧ ∀ s ∈ subscribers, s.accepts r = false) ∧
      ∀ x ∈ m.matched, ∃ earlier later, subscribers = earlier ++ x.subscriber :: later ∧
        x.subscriber.accepts x.record = true ∧ ∀ s ∈ earlier, s.accepts x.record = false := by
  refine ⟨_, inOrder?_of_perm subscribers records horder, rfl, interleave_ofRecords _ _, perm_ofRecords _ _,
    matched_sublist _ _, List.filter_sublist, fun r => ?_, fun x hx => ?_⟩
  · rw [← route?_eq_none_iff, ← Option.isNone_iff_eq_none]
    exact List.mem_filter
  · obtain ⟨r, -, hroute⟩ := List.mem_filterMap.1 hx
    obtain ⟨rfl, hfirst⟩ := route?_eq_some_iff.1 hroute
    exact hfirst

/-- Of two subscribers that overlap the first one wins; the places are judged out of order. -/
theorem stable_partition_overlapping :
    let first : Subscriber :=
      ⟨"first", ⟨false, .anyOf [.keyPrefix "a", .allOf [.keyPrefix "b", .header "kind" "new"]], []⟩, .standard⟩
    let second : Subscriber := ⟨"second", ⟨false, .keyPrefix "b", []⟩, .standard⟩
    let record (offset : Int) (key : String) (headers : List Header) : Record :=
      ⟨⟨⟨"events", 0⟩, offset⟩, some (Bytes.ofText key), headers, .null⟩
    let records :=
      [record 0 "b1" [⟨"kind", some (Bytes.ofText "new")⟩], record 1 "c1" [], record 2 "b2" [], record 3 "a1" []]
    let order := [2, 0, 3, 1]
    order.Perm (List.range records.length) ∧
      ∃ m, inOrder? [first, second] records order = some m ∧
        m.matched.map (fun x => (x.subscriber.id, x.record.offset)) = [("first", 0), ("second", 2), ("first", 3)] ∧
        m.unmatched.map (·.offset) = [1] ∧
        interleave (taken [first, second] records) (m.matched.map (·.record)) m.unmatched = records := by
  intro first second record records order
  have horder : order.Perm (List.range records.length) := by decide
  obtain ⟨m, hm, rfl, hinterleave, -⟩ := @stable_partition [first, second] records order horder
  exact ⟨horder, _, hm, by decide, by decide, hinterleave⟩

end Matching

end Relay
