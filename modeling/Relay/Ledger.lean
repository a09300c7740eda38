import Relay.Record

/-!
# The ledger of a batch

A ledger lists every offset that a batch carried, by partition, with what became of it. An abandoned
offset stays abandoned, whatever is reported of it later. Three readings of a ledger matter for the
acknowledgement: the offset after the batch (`ends`), the end of the run that is settled without a gap
from the lowest offset on (`settledRuns`), and where to resume when less than the whole batch was
committed (`redelivery`). Offsets to commit and to resume at name the next record to consume.
-/

namespace Relay

/-- What became of a record. -/
inductive Status where
  /-- Published, filtered out, unmatched or undecodable: nothing is left to do. -/
  | settled
  /-- Failed past its retry budget, or not worth another try. -/
  | abandoned
  deriving DecidableEq, Repr, Inhabited

/-- The status after one more report: abandonment stays. -/
def Status.revise (old new : Status) : Status :=
  match new with
  | .abandoned => .abandoned
  | .settled => old

/-- The offsets of a batch and their statuses, by partition. -/
structure Ledger where
  /-- The statuses by partition and offset. -/
  partitions : SortedMap Partition (SortedMap Int Status)
  deriving Repr, Inhabited, DecidableEq

namespace Ledger

/-- The ledger of an empty batch. -/
def empty : Ledger := ⟨.empty⟩

/-- Whether the ledger lists nothing. -/
def isEmpty (l : Ledger) : Bool := l.partitions.isEmpty

/-- The statuses of one partition. -/
def offsets (l : Ledger) (p : Partition) : SortedMap Int Status := (l.partitions.get? p).getD .empty

/-- The status of a record. -/
def status (l : Ledger) (c : Coordinates) : Option Status := (l.offsets c.partition).get? c.offset

/-- Report the status of a record. -/
def report (l : Ledger) (c : Coordinates) (s : Status) : Ledger :=
  let offsets := l.offsets c.partition
  let status :=
    match offsets.get? c.offset with
    | none => s
    | some old => old.revise s
  ⟨l.partitions.insert c.partition (offsets.insert c.offset status)⟩

/-- Report that nothing is left to do for a record. -/
def settle (l : Ledger) (c : Coordinates) : Ledger := l.report c .settled

/-- Report that a record was given up. -/
def abandon (l : Ledger) (c : Coordinates) : Ledger := l.report c .abandoned

/-- The ledger of a list of reports, the first one first. -/
def ofReports (reports : List (Coordinates × Status)) : Ledger :=
  reports.foldl (fun l r => l.report r.1 r.2) .empty

/-- How many offsets are abandoned. -/
def abandonedCount (l : Ledger) : Nat :=
  (l.partitions.values.map fun offsets => offsets.values.count .abandoned).foldr (· + ·) 0

/-- The offset after the last one of each partition. -/
def ends (l : Ledger) : Offsets :=
  l.partitions.filterMap fun _ offsets => offsets.keys.getLast?.map (· + 1)

/-- Where to resume each partition of which not the whole batch was committed: at the committed
offset, or at its lowest offset if nothing was. -/
def redelivery (l : Ledger) (committed : Offsets) : Offsets :=
  l.partitions.filterMap fun p offsets =>
    match offsets.keys.head?, offsets.keys.getLast? with
    | some first, some last =>
      let resume := (committed.get? p).getD first
      if resume ≤ last then some resume else none
    | _, _ => none

/-- The last offset of the settled run that continues after `last`. -/
def runAfter (last : Int) : List (Int × Status) → Int
  | [] => last
  | (offset, status) :: rest =>
    if status = .settled ∧ offset = last + 1 then runAfter offset rest else last

/-- The last offset of the settled run without a gap that starts at the lowest offset. -/
def run? : List (Int × Status) → Option Int
  | [] => none
  | (offset, status) :: rest => if status = .settled then some (runAfter offset rest) else none

/-- The last offset of the settled run of each partition whose lowest offset is settled. -/
def settledRuns (l : Ledger) : Offsets := l.partitions.filterMap fun _ offsets => run? offsets.entries

/-! ## Statuses after a report -/

theorem offsets_report (l : Ledger) (c : Coordinates) (s : Status) (p : Partition) :
    (l.report c s).offsets p =
      if p = c.partition then
        (l.offsets p).insert c.offset (((l.offsets p).get? c.offset).elim s (·.revise s))
      else l.offsets p := by
  by_cases h : p = c.partition
  · subst h
    simp only [report, offsets, SortedMap.get?_insert, Std.ReflCmp.compare_self]
    cases ((l.partitions.get? c.partition).getD .empty).get? c.offset <;> simp
  · have hc : compare p c.partition ≠ .eq := fun e => h (Std.LawfulEqCmp.eq_of_compare e)
    simp [report, offsets, hc, h]

/-- A report changes the status at its own place alone. -/
theorem status_report (l : Ledger) (c c' : Coordinates) (s : Status) :
    (l.report c s).status c' =
      if c' = c then some ((l.status c).elim s (·.revise s)) else l.status c' := by
  obtain ⟨p, o⟩ := c
  obtain ⟨p', o'⟩ := c'
  by_cases hp : p' = p
  · subst hp
    by_cases ho : o' = o
    · subst ho
      simp [status, offsets_report]
    · have hc : compare o' o ≠ .eq := fun e => ho (Std.LawfulEqCmp.eq_of_compare e)
      simp [status, offsets_report, hc, ho]
  · simp [status, offsets_report, hp]

/-- The statuses of a partition after a report. -/
theorem get?_report (l : Ledger) (c : Coordinates) (s : Status) (p : Partition) :
    (l.report c s).partitions.get? p =
      if p = c.partition then
        some ((l.offsets p).insert c.offset (((l.offsets p).get? c.offset).elim s (·.revise s)))
      else l.partitions.get? p := by
  by_cases h : p = c.partition
  · subst h
    have hs := offsets_report l c s c.partition
    rw [if_pos rfl, offsets, report, SortedMap.get?_insert, if_pos Std.ReflCmp.compare_self] at hs
    rw [if_pos rfl, report, SortedMap.get?_insert, if_pos Std.ReflCmp.compare_self]
    exact congrArg some hs
  · have hc : compare p c.partition ≠ .eq := fun e => h (Std.LawfulEqCmp.eq_of_compare e)
    rw [report, SortedMap.get?_insert, if_neg hc, if_neg h]

/-- Settling places gives each of them a status, but changes none. -/
theorem status_foldl_settle (l : Ledger) (places : List Coordinates) (c : Coordinates) :
    (places.foldl settle l).status c =
      if c ∈ places then some ((l.status c).getD .settled) else l.status c := by
  induction places generalizing l with
  | nil => simp
  | cons place rest ih =>
    rw [List.foldl_cons, ih, settle, status_report]
    by_cases hc : c = place
    · subst hc
      cases l.status c <;> simp [Status.revise]
    · simp [hc]

/-- What holds of the empty ledger and is kept by reports holds of every ledger of reports. -/
theorem ofReports_induction {P : Ledger → Prop} (reports : List (Coordinates × Status))
    (hempty : P .empty) (hreport : ∀ l, ∀ r ∈ reports, P l → P (l.report r.1 r.2)) :
    P (ofReports reports) := by
  suffices h : ∀ l, P l → P (reports.foldl (fun l r => l.report r.1 r.2) l) from h _ hempty
  induction reports with
  | nil => exact fun l hl => hl
  | cons r rest ih =>
    intro l hl
    exact ih (fun l r' hr' => hreport l r' (List.mem_cons_of_mem _ hr')) _
      (hreport l r List.mem_cons_self hl)

/-- The statuses of a partition with one more report. -/
def reviseAt (m : SortedMap Int Status) (o : Int) (s : Status) : SortedMap Int Status :=
  m.insert o ((m.get? o).elim s (·.revise s))

theorem reviseAt_comm (m : SortedMap Int Status) (o o' : Int) (s s' : Status) :
    reviseAt (reviseAt m o s) o' s' = reviseAt (reviseAt m o' s') o s := by
  refine SortedMap.ext_get? fun k => ?_
  by_cases ho : o' = o
  · subst ho
    simp only [reviseAt, SortedMap.get?_insert]
    split
    · cases m.get? o' with
      | none => cases s <;> cases s' <;> simp [Status.revise]
      | some status => cases s <;> cases s' <;> simp [Status.revise]
    · rfl
  · have hne : compare o' o ≠ .eq := fun e => ho (Std.LawfulEqCmp.eq_of_compare e)
    have hne' : compare o o' ≠ .eq := fun e => ho (Std.LawfulEqCmp.eq_of_compare e).symm
    simp only [reviseAt, SortedMap.get?_insert, if_neg hne, if_neg hne']
    by_cases hk : compare k o = .eq
    · have hk' : compare k o' ≠ .eq := fun e => by
        rw [Std.LawfulEqCmp.eq_of_compare hk] at e
        exact hne' e
      simp [hk, hk']
    · simp [hk]

/-- Reports may come in any order. -/
theorem report_comm (l : Ledger) (c c' : Coordinates) (s s' : Status) :
    (l.report c s).report c' s' = (l.report c' s').report c s := by
  have h : ∀ p, ((l.report c s).report c' s').partitions.get? p =
      ((l.report c' s').report c s).partitions.get? p := by
    intro p
    simp only [get?_report, offsets_report]
    by_cases hc : p = c.partition
    · by_cases hc' : p = c'.partition
      · simp only [if_pos hc, if_pos hc']
        exact congrArg some (reviseAt_comm ..)
      · simp only [if_pos hc, if_neg hc']
    · by_cases hc' : p = c'.partition
      · simp only [if_neg hc, if_pos hc']
      · simp only [if_neg hc, if_neg hc']
  exact congrArg Ledger.mk (SortedMap.ext_get? h)

@[simp] theorem status_empty (c : Coordinates) : empty.status c = none := rfl

/-! ## Readings by partition -/

theorem get?_ends (l : Ledger) (p : Partition) :
    l.ends.get? p = (l.offsets p).keys.getLast?.map (· + 1) := by
  rw [ends, SortedMap.get?_filterMap, offsets]
  cases l.partitions.get? p <;> rfl

theorem get?_settledRuns (l : Ledger) (p : Partition) :
    l.settledRuns.get? p = run? (l.offsets p).entries := by
  rw [settledRuns, SortedMap.get?_filterMap, offsets]
  cases l.partitions.get? p <;> rfl

theorem get?_redelivery (l : Ledger) (committed : Offsets) (p : Partition) :
    (l.redelivery committed).get? p =
      match (l.offsets p).keys.head?, (l.offsets p).keys.getLast? with
      | some first, some last =>
        if (committed.get? p).getD first ≤ last then some ((committed.get? p).getD first) else none
      | _, _ => none := by
  rw [redelivery, SortedMap.get?_filterMap, offsets]
  cases l.partitions.get? p <;> rfl

end Ledger

end Relay
