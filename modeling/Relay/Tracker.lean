import Relay.Error
import Relay.Record

/-!
# Committed offsets

The tracker remembers what the consumer group last accepted for each partition, so that no commit moves
backwards. A partition that is taken away from the consumer is forgotten: whoever had it in between may
have committed further, or been reset. Offsets are handed over in the partition lists of a client library.
-/

namespace Relay

/-- The last committed offset of each partition. -/
structure Tracker where
  /-- Next offsets to consume, as last committed. -/
  committed : Offsets
  deriving Repr, Inhabited, DecidableEq

namespace Tracker

/-- The tracker that knows of no commit. -/
def empty : Tracker := ⟨.empty⟩

/-- The committed offset of a partition. -/
def get? (t : Tracker) (p : Partition) : Option Int := t.committed.get? p

/-- The number of partitions with a committed offset. -/
def size (t : Tracker) : Nat := t.committed.size

/-- Whether an offset lies beyond what was committed for its partition. -/
def advances (t : Tracker) (p : Partition) (offset : Int) : Bool :=
  match t.get? p with
  | none => true
  | some committed => committed < offset

/-- The part of the offsets that lies beyond what was committed. -/
def advancing (t : Tracker) (offsets : Offsets) : Offsets := offsets.filter t.advances

/-- Whether an offset lies before what was committed for its partition. -/
def regresses (t : Tracker) (p : Partition) (offset : Int) : Bool :=
  match t.get? p with
  | none => false
  | some committed => offset < committed

/-- The partitions whose offsets lie before what was committed. -/
def regressing (t : Tracker) (offsets : Offsets) : List Partition := (offsets.filter t.regresses).keys

/-- Remember one accepted offset, unless a later one is known. -/
def markOne (t : Tracker) (p : Partition) (offset : Int) : Tracker :=
  ⟨t.committed.insert p (max offset ((t.get? p).getD offset))⟩

/-- Remember accepted offsets. -/
def mark (t : Tracker) (offsets : Offsets) : Tracker :=
  offsets.entries.foldl (fun t e => t.markOne e.1 e.2) t

/-- Forget a partition. -/
def clear (t : Tracker) (p : Partition) : Tracker := ⟨t.committed.erase p⟩

/-- What the group coordinator tells the consumer. Each list names partitions and offsets in order. -/
inductive Notice where
  /-- Partitions are about to be taken away. -/
  | revoked (list : List Coordinates)
  /-- Partitions were given. -/
  | assigned (list : List Coordinates)
  /-- The partitions could not be shared out. -/
  | failed
  /-- A commit was answered. -/
  | committed (list : List Coordinates)
  deriving Repr

/-- Take a notice into account: revoked partitions are forgotten. -/
def notice (t : Tracker) : Notice → Tracker
  | .revoked list => list.foldl (fun t c => t.clear c.partition) t
  | .assigned _ => t
  | .failed => t
  | .committed _ => t

/-! ## Look-ups -/

/-- Clearing forgets one partition alone. -/
theorem get?_clear (t : Tracker) (p q : Partition) :
    (t.clear p).get? q = if p = q then none else t.get? q := by
  by_cases h : p = q
  · subst h; simp [clear, get?]
  · have hc : compare p q ≠ .eq := fun e => h (Std.LawfulEqCmp.eq_of_compare e)
    simp [clear, get?, hc, h]

/-- Marking one offset keeps the later of it and what is known. -/
theorem get?_markOne (t : Tracker) (p q : Partition) (offset : Int) :
    (t.markOne p offset).get? q =
      if q = p then some (max offset ((t.get? p).getD offset)) else t.get? q := by
  by_cases h : q = p
  · subst h; simp [markOne, get?]
  · have hc : compare q p ≠ .eq := fun e => h (Std.LawfulEqCmp.eq_of_compare e)
    simp [markOne, get?, hc, h]

/-- Marking offsets keeps, for each of their partitions, the later of the offset and what is known. -/
theorem get?_mark (t : Tracker) (offsets : Offsets) (p : Partition) :
    (t.mark offsets).get? p =
      match offsets.get? p with
      | none => t.get? p
      | some offset => some (max offset ((t.get? p).getD offset)) := by
  obtain ⟨entries, sorted⟩ := offsets
  simp only [mark, SortedMap.get?]
  induction entries generalizing t with
  | nil => rfl
  | cons e rest ih =>
    obtain ⟨q, offset⟩ := e
    obtain ⟨hhead, hrest⟩ := List.pairwise_cons.1 sorted
    rw [List.foldl_cons, ih _ hrest, get?_markOne]
    by_cases h : p = q
    · subst h
      have hnone : SortedMap.find? p rest = none := by
        cases hf : SortedMap.find? p rest with
        | none => rfl
        | some v =>
          have := hhead _ (SortedMap.mem_of_find?_eq_some hf)
          simp at this
      simp [hnone, SortedMap.find?]
    · have hc : compare p q ≠ .eq := fun e => h (Std.LawfulEqCmp.eq_of_compare e)
      simp [h, SortedMap.find?, hc]

/-- Marking no offsets changes nothing. -/
theorem mark_of_isEmpty (t : Tracker) {offsets : Offsets} (h : offsets.isEmpty = true) :
    t.mark offsets = t := by
  rw [mark, List.isEmpty_iff.1 h]
  rfl

/-- Only offsets beyond what was committed advance. -/
theorem get?_advancing_eq_some {t : Tracker} {offsets : Offsets} {p : Partition} {offset : Int} :
    (t.advancing offsets).get? p = some offset ↔
      offsets.get? p = some offset ∧ ∀ committed, t.get? p = some committed → committed < offset := by
  rw [advancing, SortedMap.get?_filter, Option.filter_eq_some_iff, advances]
  cases t.get? p <;> simp

end Tracker

/-- The list of offsets to commit, in partition order. Negative offsets name no record and are
refused. -/
def Offsets.commitList (offsets : Offsets) : Except AckError (List Coordinates) :=
  offsets.entries.mapM fun e =>
    if e.2 < 0 then .error (.commit "negative offset") else .ok ⟨e.1, e.2⟩

/-! ## Partition lists -/

/-- An element of a partition list. -/
structure Listed where
  topic : String
  number : Int
  offset : Int
  deriving DecidableEq

/-- The partition that an element names, with its offset. -/
def Listed.coordinates (e : Listed) : Coordinates := ⟨⟨e.topic, e.number⟩, e.offset⟩

/-- The partition lists of a client library. -/
structure PartitionLists (L : Type) where
  /-- A list without elements, with room for a number of them. -/
  empty : Nat → L
  /-- A list with a partition and an offset added, or the reason why not. -/
  add : L → String → Int → Int → Except String L
  /-- The elements of a list, in order. -/
  elements : L → List Listed

namespace PartitionLists

variable {L : Type} (lib : PartitionLists L)

/-- Add the entry of a partition. -/
def put (list : L) (e : Partition × Int) : Except AckError L :=
  (lib.add list e.1.topic e.1.number e.2).mapError .commit

/-- The list of offsets, in partition order. -/
def ofOffsets (offsets : Offsets) : Except AckError L :=
  offsets.entries.foldlM lib.put (lib.empty offsets.size)

/-- What the elements of a list say. -/
def read (list : L) : List Coordinates := (lib.elements list).map Listed.coordinates

end PartitionLists

end Relay
