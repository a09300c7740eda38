import Relay.Number.Double

/-!
# The shortest decimal of a number

A finite positive number is `m * 2 ^ q`. The reals that round to it form an interval, which contains
its ends exactly when `m` is even. The shortest decimal is a point of the coarsest decimal grid that
meets the interval: of the two grid points around the number the nearer one in the interval. Formats differ
in what they take on a tie. Seventeen digits always suffice.
-/

namespace Relay.Shortest

/-- The decimal `coefficient * 10 ^ (exponent + 1 - digits)`: `exponent` is the power of ten of its
first digit. -/
structure Decimal where
  /-- The digits, first digit first. -/
  digits : List Char
  /-- The power of ten of the first digit. -/
  exponent : Int
  deriving DecidableEq, Repr, Inhabited

/-- What is taken of two decimals that are equally near. -/
inductive Tie where
  /-- The one with the even last digit. -/
  | even
  /-- The greater one. -/
  | up
  deriving DecidableEq, Repr

/-- The number and the ends of its rounding interval, as numerators over one denominator. -/
structure Interval where
  /-- Numerator of the number. -/
  value : Nat
  /-- Numerator of the lower end. -/
  low : Nat
  /-- Numerator of the upper end. -/
  high : Nat
  /-- The common denominator. -/
  den : Nat
  /-- Whether the ends belong to the interval. -/
  closed : Bool

/-- The significand and exponent of a finite number: `m * 2 ^ q`. -/
def unpack (d : Double) : Nat × Int :=
  if d.exponentBits = 0 then (d.fractionBits, -1074)
  else (d.fractionBits + 4503599627370496, (d.exponentBits : Int) - 1075)

/-- The rounding interval of a finite positive number. Below a power of two the spacing halves. -/
def interval (d : Double) : Interval :=
  let (m, q) := unpack d
  let narrow := d.fractionBits = 0 ∧ 1 < d.exponentBits
  let up := Nat.pow 2 (q - 2).toNat
  { value := 4 * m * up
    low := (if narrow then 4 * m - 1 else 4 * m - 2) * up
    high := (4 * m + 2) * up
    den := Nat.pow 2 (2 - q).toNat
    closed := m % 2 = 0 }

/-- Whether `10 ^ e ≤ n / d`. -/
def reaches (n d : Nat) (e : Int) : Bool := d * (Nat.pow 10 e.toNat) ≤ n * (Nat.pow 10 (-e).toNat)

/-- The power of ten of the first digit of `n / d`, searched upwards from `e`. -/
def magnitude (n d : Nat) : Nat → Int → Int
  | 0, e => e
  | fuel + 1, e => if reaches n d (e + 1) then magnitude n d fuel (e + 1) else e

/-- A power of ten not above `n / d` and close to it. -/
def estimate (n d : Nat) : Int :=
  ((Nat.log2 n : Int) - Nat.log2 d - 1) * 30103 / 100000 - 1

/-- Whether the grid point `c * 10 ^ s` lies in the interval. -/
def Interval.contains (i : Interval) (c : Nat) (s : Int) : Bool :=
  let point := c * (Nat.pow 10 s.toNat) * i.den
  let scale := Nat.pow 10 (-s).toNat
  if i.closed then i.low * scale ≤ point && point ≤ i.high * scale
  else i.low * scale < point && point < i.high * scale

/-- The grid point of spacing `10 ^ s` to write for the number, if the grid meets the interval. -/
def Interval.pick (tie : Tie) (i : Interval) (s : Int) : Option Nat :=
  let num := i.value * (Nat.pow 10 (-s).toNat)
  let den := i.den * (Nat.pow 10 s.toNat)
  let c := num / den
  match i.contains c s, i.contains (c + 1) s with
  | false, false => none
  | true, false => some c
  | false, true => some (c + 1)
  | true, true =>
    let below := num - c * den
    let above := (c + 1) * den - num
    some (if below < above then c else if above < below then c + 1
      else if tie = .even ∧ c % 2 = 0 then c else c + 1)

/-- The first grid that meets the interval, from `n` digits on. -/
def Interval.search (tie : Tie) (i : Interval) : Nat → Int → Nat × Int
  | 0, s => (i.value * (Nat.pow 10 (-s).toNat) / (i.den * (Nat.pow 10 s.toNat)), s)
  | fuel + 1, s =>
    match i.pick tie s with
    | some c => (c, s)
    | none => i.search tie fuel (s - 1)

/-- The digits without trailing zeros. -/
def trim (cs : List Char) : List Char :=
  (cs.reverse.dropWhile (· = '0')).reverse

/-- The shortest decimal of a finite positive number. -/
def ofDouble (tie : Tie) (d : Double) : Decimal :=
  let i := interval d
  let e := magnitude i.value i.den 8 (estimate i.value i.den)
  let (c, s) := i.search tie 17 e
  let ds := Nat.toDigits 10 c
  ⟨trim ds, s + ds.length - 1⟩

end Relay.Shortest
