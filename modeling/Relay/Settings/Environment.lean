import Relay.SortedMap

/-!
# The environment

A service takes its settings from named texts. A variable that is not set stands for its default; one
that is set has to be readable. Lists are written with commas between their items; blanks around an item
do not belong to it, and empty items do not count.
-/

namespace Relay

/-- Named texts. -/
abbrev Environment := SortedMap String String

/-- A variable whose text cannot be read. -/
structure UnreadableVariable where
  /-- Its name. -/
  name : String
  deriving DecidableEq, Repr

/-- The wording of the error. -/
def UnreadableVariable.message (e : UnreadableVariable) : String :=
  "Failed to parse environment variable " ++ e.name

namespace Environment

/-- Read a variable. -/
def read {α : Type} (env : Environment) (name : String) (otherwise : α) (parse : String → Option α) :
    Except UnreadableVariable α :=
  match env.get? name with
  | none => .ok otherwise
  | some text =>
    match parse text with
    | none => .error ⟨name⟩
    | some a => .ok a

/-! ## Numbers and flags -/

/-- The number of a nonempty list of decimal digits. -/
def digits : List Char → Option Nat
  | [] => none
  | cs => if cs.all Char.isDigit then some (cs.foldl (fun n c => 10 * n + (c.toNat - '0'.toNat)) 0) else none

/-- A number of at most so many bits, with or without a plus sign. -/
def natural (bits : Nat) (s : String) : Option Nat :=
  let unsigned := match s.toList with
    | '+' :: cs => cs
    | cs => cs
  (digits unsigned).filter (· < Nat.pow 2 bits)

/-- A number of at most 32 bits. -/
def word (s : String) : Option UInt32 := (natural 32 s).map UInt32.ofNat

/-- A number with or without a sign that fits into 32 bits. -/
def integer (s : String) : Option Int :=
  let signed := match s.toList with
    | '-' :: cs => (digits cs).map fun n => -(n : Int)
    | '+' :: cs => (digits cs).map Int.ofNat
    | cs => (digits cs).map Int.ofNat
  signed.filter fun i => -2147483648 ≤ i && i < 2147483648

/-- A truth value. -/
def flag (s : String) : Option Bool :=
  if s = "true" then some true else if s = "false" then some false else none

/-! ## Lists -/

/-- The blank characters: those with the property of white space. -/
def isBlank (c : Char) : Bool :=
  let n := c.toNat
  (0x9 ≤ n && n ≤ 0xD) || n == 0x20 || n == 0x85 || n == 0xA0 || n == 0x1680 ||
  (0x2000 ≤ n && n ≤ 0x200A) || n == 0x2028 || n == 0x2029 || n == 0x202F || n == 0x205F || n == 0x3000

/-- A text without the blanks around it. -/
def trim (cs : List Char) : List Char := ((cs.dropWhile isBlank).reverse.dropWhile isBlank).reverse

/-- The parts of a text between commas; there is at least one. -/
def parts : List Char → List (List Char)
  | [] => [[]]
  | c :: cs =>
    if c = ',' then [] :: parts cs
    else
      match parts cs with
      | [] => [[c]]
      | p :: ps => (c :: p) :: ps

/-- The items of a list. -/
def items (s : String) : List String :=
  (((parts s.toList).map trim).filter fun cs => !cs.isEmpty).map String.ofList

end Environment

end Relay
