import Relay.Number.Double
import Relay.SortedMap

/-!
# JSON values

The payload of a record is a JSON value. Objects list their members in key order and hold each key
once (`Value.ofMembers`); integers and floating-point numbers are different values.
-/

namespace Relay.Json

/-- A number: an integer, or a floating-point number. -/
inductive Number where
  /-- A whole number of at most 64 bits, written without fraction and exponent. -/
  | int (i : Int)
  /-- Every other number. -/
  | float (d : Double)
  deriving DecidableEq, Repr, Inhabited

/-- Equality of numbers: an integer never equals a floating-point number, and floating-point numbers
compare by size. -/
def Number.eqv : Number → Number → Bool
  | .int a, .int b => a == b
  | .float a, .float b => a.eqv b
  | _, _ => false

/-- A JSON value. -/
inductive Value where
  | null
  | bool (b : Bool)
  | number (n : Number)
  | text (s : String)
  | list (items : List Value)
  | object (members : List (String × Value))
  deriving Repr, Inhabited

namespace Value

mutual

/-- Equality of values: numbers by size, all else part by part. -/
def eqv : Value → Value → Bool
  | .null, .null => true
  | .bool a, .bool b => a == b
  | .number a, .number b => a.eqv b
  | .text a, .text b => a == b
  | .list a, .list b => eqvItems a b
  | .object a, .object b => eqvMembers a b
  | _, _ => false

/-- Equality of item lists. -/
def eqvItems : List Value → List Value → Bool
  | [], [] => true
  | a :: as, b :: bs => eqv a b && eqvItems as bs
  | _, _ => false

/-- Equality of member lists. -/
def eqvMembers : List (String × Value) → List (String × Value) → Bool
  | [], [] => true
  | (j, a) :: as, (k, b) :: bs => j == k && eqv a b && eqvMembers as bs
  | _, _ => false

end

/-- The object with these members; of members with one key the last counts. -/
def ofMembers (ms : List (String × Value)) : Value := .object (SortedMap.ofList ms).entries

/-- An integer as a value. -/
def ofInt (i : Int) : Value := .number (.int i)

/-- A natural number as a value. -/
def ofNat (n : Nat) : Value := .number (.int n)

/-- The member of an object at a key. -/
def member? (v : Value) (k : String) : Option Value :=
  match v with
  | .object ms => SortedMap.find? k ms
  | _ => none

/-- Whether a value is an object. -/
def isObject : Value → Bool
  | .object _ => true
  | _ => false

mutual

/-- Whether every object in the value lists its members in strictly increasing key order. -/
def Canonical : Value → Prop
  | .list items => CanonicalItems items
  | .object ms => (ms.Pairwise fun a b => compare a.1 b.1 = .lt) ∧ CanonicalMembers ms
  | _ => True

/-- `Canonical` for every item. -/
def CanonicalItems : List Value → Prop
  | [] => True
  | v :: vs => Canonical v ∧ CanonicalItems vs

/-- `Canonical` for every member. -/
def CanonicalMembers : List (String × Value) → Prop
  | [] => True
  | (_, v) :: ms => Canonical v ∧ CanonicalMembers ms

end

end Value

end Relay.Json
