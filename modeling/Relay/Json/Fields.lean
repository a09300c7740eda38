import Relay.Json.Tree

/-!
# Records in JSON texts

A record with named fields is written as an object, where unknown keys are skipped and a known key
stands at most once, or as the list of its fields in order, where fields may be missing at the end.
Reading yields a tree for each field that is present.
-/

namespace Relay.Json.Tree

/-- The tree of a field in a list of members: none if it is absent, and no answer if it is repeated. -/
def field? (name : String) (ms : List (Option String × Tree)) : Option (Option Tree) :=
  match ms.filter fun m => m.1 == some name with
  | [] => some none
  | [m] => some (some m.2)
  | _ => none

/-- The trees of the fields of a list of items, in order; no answer if there are too many items. -/
def spread : List String → List Tree → Option (List (Option Tree))
  | [], [] => some []
  | [], _ :: _ => none
  | _ :: names, [] => (spread names []).map (none :: ·)
  | _ :: names, t :: ts => (spread names ts).map (some t :: ·)

/-- The trees of the named fields. -/
def fields? (names : List String) : Tree → Option (List (Option Tree))
  | .object ms => if ms.any fun m => m.1.isNone then none else names.mapM (field? · ms)
  | .list items => spread names items
  | _ => none

/-- The text of a string. -/
def text? : Tree → Option String
  | .text s => s
  | _ => none

/-- The truth value of a boolean. -/
def bool? : Tree → Option Bool
  | .bool b => some b
  | _ => none

/-- The value of an integer of 64 bits with sign. -/
def int64? : Tree → Option Int
  | .number (some (.int i)) => if -9223372036854775808 ≤ i ∧ i < 9223372036854775808 then some i else none
  | _ => none

/-- The items of an array, read one by one at one level less. -/
def items? {α : Type} (read : Nat → Tree → Option α) : Nat → Tree → Option (List α)
  | l + 1, .list ts => ts.mapM (read l)
  | _, _ => none

/-- The entries of an object, read one by one at one level less; of entries with one key the last
counts. -/
def entries? {α : Type} (read : Nat → Tree → Option α) : Nat → Tree → Option (SortedMap String α)
  | l + 1, .object ms =>
    (ms.mapM fun (m : Option String × Tree) =>
      match m.1, read l m.2 with
      | some k, some v => some (k, v)
      | _, _ => none).map SortedMap.ofList
  | _, _ => none

/-- A field that may be absent. -/
def orElse {α : Type} (default : α) (read : Tree → Option α) : Option Tree → Option α
  | none => some default
  | some t => read t

/-- A field that has to be present. -/
def required {α : Type} (read : Tree → Option α) : Option Tree → Option α
  | none => none
  | some t => read t

end Relay.Json.Tree
