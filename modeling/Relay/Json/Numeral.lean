import Relay.Json.Value

/-!
# Numerals

A numeral is a JSON number as written. An integer of 64 bits keeps its value. Any other numeral
becomes floating-point in two roundings: its leading digits that fit 64 bits make the significand, and
one multiplication or division by a power of ten scales it. Too large a numeral has no value; too
small a one is zero.
-/

namespace Relay.Json

/-- A number as written. -/
structure Numeral where
  /-- Whether it starts with a minus sign. -/
  negative : Bool
  /-- The digits before the point. -/
  whole : List Char
  /-- The digits after the point. -/
  fraction : List Char
  /-- The exponent: whether it is negative, and its digits. -/
  exponent : Option (Bool × List Char)
  deriving Repr, DecidableEq

namespace Numeral

/-- The value of a decimal digit. -/
def digit (c : Char) : Nat := c.toNat - '0'.toNat

/-- The number that a list of digits stands for. -/
def natural (cs : List Char) : Nat := cs.foldl (fun n c => 10 * n + digit c) 0

/-- The largest significand. -/
def most : Nat := 18446744073709551615

/-- Take digits into the significand while it stays within 64 bits. -/
def absorb (n : Nat) : List Char → Nat × List Char
  | [] => (n, [])
  | c :: cs => if 10 * n + digit c ≤ most then absorb (10 * n + digit c) cs else (n, c :: cs)

/-- Scale by a power of ten; `none` if the result is too large. -/
def scale (f : Double) (e : Int) : Option Double :=
  if e.natAbs ≤ 308 then
    if 0 ≤ e then
      let g := f.mul (Double.powerOfTen e.toNat)
      if g.isInfinite then none else some g
    else some (f.div (Double.powerOfTen e.natAbs))
  else if f.isZero then some f
  else if 0 ≤ e then none
  else scale (f.div (Double.powerOfTen 308)) (e + 308)
termination_by e.natAbs
decreasing_by omega

/-- The power of ten of the last digit taken, given the power before the exponent is applied. An
exponent beyond 31 bits decides the value by itself. -/
inductive Power where
  | exact (e : Int)
  | huge
  | tiny

/-- The power of ten with the written exponent applied. -/
def power (n : Numeral) (e : Int) : Power :=
  match n.exponent with
  | none => .exact e
  | some (negative, ds) =>
    let x := natural ds
    if 2147483647 < x then if negative then .tiny else .huge
    else .exact (if negative then e - x else e + x)

/-- The value of a numeral, if it is not too large. -/
def number? (n : Numeral) : Option Number :=
  let (s, dropped) := absorb 0 n.whole
  if dropped.isEmpty && n.fraction.isEmpty && n.exponent.isNone &&
      (if n.negative then 0 < s && s ≤ 9223372036854775808 else true) then
    some (.int (if n.negative then -s else s))
  else
    let (s, rest) := absorb s n.fraction
    let e : Int := (dropped.length : Int) - (n.fraction.length - rest.length : Nat)
    let size : Option Double :=
      match n.power e with
      | .exact e => scale (Double.ofNat64 s) e
      | .huge => if s = 0 then some (Double.ofNat64 0) else none
      | .tiny => some (Double.ofNat64 0)
    size.map fun d => .float (if n.negative then d.neg else d)

end Numeral

end Relay.Json
