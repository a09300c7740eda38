import Relay.Bytes
import Relay.Json.Tree

/-!
# Reading JSON texts

The reader accepts exactly the texts of the JSON grammar, with nothing after the value but blanks. It
takes at most two steps for a character, so twice as many steps as characters, and two, are enough.
-/

namespace Relay.Json.Reader

/-- The four blanks of the grammar. -/
def isBlank (c : Char) : Bool := c == ' ' || c == '\t' || c == '\n' || c == '\r'

/-- The text after its leading blanks. -/
def skip (cs : List Char) : List Char := cs.dropWhile isBlank

/-! ## Strings -/

/-- A piece of a string: a character, or the sixteen bits of a `\u` escape. -/
inductive Piece where
  | char (c : Char)
  | unit (n : Nat)

/-- The value of a hexadecimal digit. -/
def hexDigit? (c : Char) : Option Nat :=
  if '0' ≤ c ∧ c ≤ '9' then some (c.toNat - '0'.toNat)
  else if 'a' ≤ c ∧ c ≤ 'f' then some (c.toNat - 'a'.toNat + 10)
  else if 'A' ≤ c ∧ c ≤ 'F' then some (c.toNat - 'A'.toNat + 10)
  else none

/-- The value of four hexadecimal digits. -/
def hex4? (a b c d : Char) : Option Nat :=
  match hexDigit? a, hexDigit? b, hexDigit? c, hexDigit? d with
  | some a, some b, some c, some d => some (((a * 16 + b) * 16 + c) * 16 + d)
  | _, _, _, _ => none

/-- The character of a one-letter escape. -/
def escaped? : Char → Option Char
  | '"' => some '"'
  | '\\' => some '\\'
  | '/' => some '/'
  | 'b' => some '\x08'
  | 'f' => some '\x0c'
  | 'n' => some '\n'
  | 'r' => some '\r'
  | 't' => some '\t'
  | _ => none

/-- The pieces of a string up to its closing quote, and the text after that. -/
def pieces (acc : List Piece) : List Char → Option (List Piece × List Char)
  | [] => none
  | '"' :: r => some (acc.reverse, r)
  | '\\' :: 'u' :: a :: b :: c :: d :: r =>
    match hex4? a b c d with
    | some n => pieces (.unit n :: acc) r
    | none => none
  | '\\' :: e :: r =>
    match escaped? e with
    | some c => pieces (.char c :: acc) r
    | none => none
  | c :: r => if c == '\\' || c.toNat < 0x20 then none else pieces (.char c :: acc) r

/-- The characters of the pieces: two escapes of a surrogate pair make one, and half a pair alone
makes none. -/
def join : List Piece → Option (List Char)
  | [] => some []
  | .char c :: r => (join r).map (c :: ·)
  | [.unit n] => if 0xD800 ≤ n ∧ n < 0xE000 then none else some [Char.ofNat n]
  | .unit n :: .char c :: r =>
    if 0xD800 ≤ n ∧ n < 0xE000 then none else (join r).map fun cs => Char.ofNat n :: c :: cs
  | .unit n :: .unit m :: r =>
    if 0xD800 ≤ n ∧ n < 0xDC00 then
      if 0xDC00 ≤ m ∧ m < 0xE000 then
        (join r).map (Char.ofNat (0x10000 + (n - 0xD800) * 0x400 + (m - 0xDC00)) :: ·)
      else none
    else if 0xDC00 ≤ n ∧ n < 0xE000 then none
    else (join (.unit m :: r)).map (Char.ofNat n :: ·)

/-- A string after its opening quote. -/
def string (cs : List Char) : Option (Option String × List Char) :=
  (pieces [] cs).map fun (ps, r) => ((join ps).map String.ofList, r)

/-! ## Numbers -/

/-- Whether a list of digits may stand before the point: at least one, and none after a zero. -/
def isWhole : List Char → Bool
  | [] => false
  | ['0'] => true
  | c :: _ => c != '0'

/-- The fraction after the point, if there is a point. -/
def fraction : List Char → Option (List Char × List Char)
  | '.' :: r =>
    let ds := r.takeWhile Char.isDigit
    if ds.isEmpty then none else some (ds, r.dropWhile Char.isDigit)
  | r => some ([], r)

/-- The sign of an exponent and the text after it. -/
def exponentSign : List Char → Bool × List Char
  | '-' :: r => (true, r)
  | '+' :: r => (false, r)
  | r => (false, r)

/-- The exponent, if there is one. -/
def exponent : List Char → Option (Option (Bool × List Char) × List Char)
  | c :: r =>
    if c == 'e' || c == 'E' then
      let (negative, r) := exponentSign r
      let ds := r.takeWhile Char.isDigit
      if ds.isEmpty then none else some (some (negative, ds), r.dropWhile Char.isDigit)
    else some (none, c :: r)
  | [] => some (none, [])

/-- A numeral and the text after it. -/
def numeral (cs : List Char) : Option (Numeral × List Char) :=
  let (negative, cs) := match cs with
    | '-' :: r => (true, r)
    | r => (false, r)
  let whole := cs.takeWhile Char.isDigit
  if isWhole whole then
    match fraction (cs.dropWhile Char.isDigit) with
    | none => none
    | some (frac, r) =>
      match exponent r with
      | none => none
      | some (exp, r) => some (⟨negative, whole, frac, exp⟩, r)
  else none

/-! ## Trees -/

mutual

/-- A tree and the text after it, in at most the given number of steps. -/
def tree : Nat → List Char → Option (Tree × List Char)
  | 0, _ => none
  | n + 1, cs =>
    match skip cs with
    | 'n' :: 'u' :: 'l' :: 'l' :: r => some (.null, r)
    | 't' :: 'r' :: 'u' :: 'e' :: r => some (.bool true, r)
    | 'f' :: 'a' :: 'l' :: 's' :: 'e' :: r => some (.bool false, r)
    | '"' :: r => (string r).map fun (s, r) => (.text s, r)
    | '[' :: r =>
      match skip r with
      | ']' :: r => some (.list [], r)
      | r => items n r []
    | '\x7b' :: r =>
      match skip r with
      | '\x7d' :: r => some (.object [], r)
      | r => members n r []
    | r => (numeral r).map fun (m, r) => (.number m.number?, r)

/-- The items of an array up to its closing bracket. -/
def items : Nat → List Char → List Tree → Option (Tree × List Char)
  | 0, _, _ => none
  | n + 1, cs, acc =>
    match tree n cs with
    | none => none
    | some (t, r) =>
      match skip r with
      | ',' :: r => items n r (t :: acc)
      | ']' :: r => some (.list (t :: acc).reverse, r)
      | _ => none

/-- The members of an object up to its closing brace. -/
def members : Nat → List Char → List (Option String × Tree) → Option (Tree × List Char)
  | 0, _, _ => none
  | n + 1, cs, acc =>
    match skip cs with
    | '"' :: r =>
      match string r with
      | none => none
      | some (k, r) =>
        match skip r with
        | ':' :: r =>
          match tree n r with
          | none => none
          | some (t, r) =>
            match skip r with
            | ',' :: r => members n r ((k, t) :: acc)
            | '\x7d' :: r => some (.object ((k, t) :: acc).reverse, r)
            | _ => none
        | _ => none
    | _ => none

end

end Reader

/-- The tree of a JSON text. -/
def Tree.ofText? (s : String) : Option Tree :=
  let cs := s.toList
  match Reader.tree (2 * cs.length + 2) cs with
  | some (t, r) => if (Reader.skip r).isEmpty then some t else none
  | none => none

/-- The value of a JSON text. -/
def Value.ofText? (s : String) : Option Value := (Tree.ofText? s).bind (Tree.value? deepest)

/-- The value of a JSON text given as bytes. -/
def Value.ofBytes? (bs : Bytes) : Option Value := (Bytes.toText? bs).bind Value.ofText?

end Relay.Json
