import Relay.Subscriber

/-!
# Matching records with subscribers

Each record goes to the first subscriber, in registration order, that accepts it. Both the matched and
the unmatched records keep their order. The records of a batch are judged in parallel, each at its own place.
-/

namespace Relay

/-- Records with and without a subscriber. -/
structure Matching where
  /-- The records that a subscriber takes, in order. -/
  matched : List Routed
  /-- The records that no subscriber takes, in order. -/
  unmatched : List Record
  deriving Repr, Inhabited

/-- The record paired with the first subscriber that takes it. -/
def Record.route? (subscribers : List Subscriber) (r : Record) : Option Routed :=
  (subscribers.find? (·.accepts r)).map fun s => ⟨s, r⟩

/-- Match every record of a list. -/
def Matching.ofRecords (subscribers : List Subscriber) (records : List Record) : Matching where
  matched := records.filterMap (·.route? subscribers)
  unmatched := records.filter fun r => (r.route? subscribers).isNone

/-- Every record is either matched or unmatched. -/
theorem Matching.length_ofRecords (subscribers : List Subscriber) (records : List Record) :
    (ofRecords subscribers records).matched.length + (ofRecords subscribers records).unmatched.length
      = records.length := by
  induction records with
  | nil => rfl
  | cons r rs ih =>
    simp only [ofRecords] at ih
    cases h : r.route? subscribers <;> simp [ofRecords, h] <;> omega

/-! ## Records judged in parallel -/

/-- The judgement on a record: it goes to the first subscriber that takes it, or is handed back. -/
def Record.judge (subscribers : List Subscriber) (r : Record) : Except Record Routed :=
  match subscribers.find? (·.accepts r) with
  | some s => .ok ⟨s, r⟩
  | none => .error r

namespace Matching

/-- One place is judged. -/
def judgeAt (subscribers : List Subscriber) (records : List Record) (slots : List (Option (Except Record Routed)))
    (i : Nat) : List (Option (Except Record Routed)) :=
  slots.set i (records[i]?.map (·.judge subscribers))

/-- A judgement is added to its side. -/
def add (m : Matching) : Except Record Routed → Matching
  | .ok routed => { m with matched := m.matched ++ [routed] }
  | .error r => { m with unmatched := m.unmatched ++ [r] }

/-- Matching with the places judged in the given order. There is no result while a place is not judged. -/
def inOrder? (subscribers : List Subscriber) (records : List Record) (order : List Nat) : Option Matching :=
  let slots := order.foldl (judgeAt subscribers records) (List.replicate records.length none)
  (slots.mapM id).map fun judgements => judgements.foldl add ⟨[], []⟩

end Matching

end Relay
