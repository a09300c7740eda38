import Relay.Json.Value

/-!
# Access to JSON values

Members and contents of values that are expected to have a certain form. Where the form is another one,
a default stands in.
-/

namespace Relay.Json.Value

/-- The member of an object, or null. -/
def field (v : Value) (k : String) : Value := (v.member? k).getD .null

/-- Whether an object has a member. -/
def has (v : Value) (k : String) : Bool := (v.member? k).isSome

/-- A text. -/
def asText? : Value → Option String
  | .text s => some s
  | _ => none

/-- An integer. -/
def asInt? : Value → Option Int
  | .number (.int i) => some i
  | _ => none

/-- A truth value. -/
def asBool? : Value → Option Bool
  | .bool b => some b
  | _ => none

/-- A text, or the empty one. -/
def asText (v : Value) : String := v.asText?.getD ""

/-- An integer, or zero. -/
def asInt (v : Value) : Int := v.asInt?.getD 0

/-- A natural number, or zero. -/
def asNat (v : Value) : Nat := v.asInt.toNat

/-- The items of an array, or none. -/
def asList : Value → List Value
  | .list vs => vs
  | _ => []

/-- The members of an object, or none. -/
def members : Value → List (String × Value)
  | .object ms => ms
  | _ => []

/-- The texts of an array. -/
def texts (v : Value) : List String := v.asList.map asText

/-- The text at a key. -/
def textOr (v : Value) (k otherwise : String) : String := ((v.member? k).bind asText?).getD otherwise

/-- The integer at a key. -/
def intOr (v : Value) (k : String) (otherwise : Int) : Int :=
  ((v.member? k).bind asInt?).getD otherwise

/-- The natural number at a key, if there is one. -/
def nat? (v : Value) (k : String) : Option Nat := ((v.member? k).bind asInt?).map Int.toNat

/-- The natural number at a key. -/
def natOr (v : Value) (k : String) (otherwise : Nat) : Nat := (v.nat? k).getD otherwise

/-- The truth value at a key. -/
def boolOr (v : Value) (k : String) (otherwise : Bool) : Bool :=
  ((v.member? k).bind asBool?).getD otherwise

/-- The array of the values of items. -/
def ofList {α : Type} (f : α → Value) (xs : List α) : Value := .list (xs.map f)

/-- The array of texts. -/
def ofTexts (xs : List String) : Value := ofList .text xs

/-- A value, or null. -/
def ofOption {α : Type} (f : α → Value) (a : Option α) : Value := (a.map f).getD .null

end Relay.Json.Value
