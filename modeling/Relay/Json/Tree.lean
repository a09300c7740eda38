import Relay.Json.Numeral

/-!
# JSON texts as trees

A tree is a JSON text as read, before anything is asked of its contents: members keep their order and
repetitions, a string whose escapes name no character and a number that is too large have no value
but a place. Whoever skips a part of a tree does not look at these; whoever wants its value does
(`Tree.value?`), and then arrays and objects may stand at most a given number of levels deep.
-/

namespace Relay.Json

/-- A JSON text as read. -/
inductive Tree where
  | null
  | bool (b : Bool)
  | number (n : Option Number)
  | text (s : Option String)
  | list (items : List Tree)
  | object (members : List (Option String × Tree))
  deriving Repr, Inhabited

/-- The number of levels of arrays and objects that a text may nest. -/
def deepest : Nat := 127

namespace Tree

mutual

/-- The value of a tree of at most `levels` levels. Of members with one key the last counts. -/
def value? (levels : Nat) : Tree → Option Value
  | .null => some .null
  | .bool b => some (.bool b)
  | .number n => n.map .number
  | .text s => s.map .text
  | .list items =>
    match levels with
    | 0 => none
    | l + 1 => (values? l items).map .list
  | .object ms =>
    match levels with
    | 0 => none
    | l + 1 => (memberValues? l ms).map .ofMembers

/-- The values of a list of trees. -/
def values? (levels : Nat) : List Tree → Option (List Value)
  | [] => some []
  | t :: ts =>
    match value? levels t, values? levels ts with
    | some v, some vs => some (v :: vs)
    | _, _ => none

/-- The values of a list of members. -/
def memberValues? (levels : Nat) : List (Option String × Tree) → Option (List (String × Value))
  | [] => some []
  | (k, t) :: ms =>
    match k, value? levels t, memberValues? levels ms with
    | some k, some v, some vs => some ((k, v) :: vs)
    | _, _, _ => none

end

mutual

/-- The tree of a value. -/
def ofValue : Value → Tree
  | .null => .null
  | .bool b => .bool b
  | .number n => .number (some n)
  | .text s => .text (some s)
  | .list items => .list (ofItems items)
  | .object ms => .object (ofMembers ms)

/-- The trees of a list of values. -/
def ofItems : List Value → List Tree
  | [] => []
  | v :: vs => ofValue v :: ofItems vs

/-- The trees of a list of members. -/
def ofMembers : List (String × Value) → List (Option String × Tree)
  | [] => []
  | (k, v) :: ms => (some k, ofValue v) :: ofMembers ms

end

end Tree

end Relay.Json
