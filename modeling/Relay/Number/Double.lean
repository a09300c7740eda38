/-!
# Double-precision numbers

A number of JSON that is not a plain integer is a binary floating-point number of double precision,
kept as its 64 bits. Equality of bits is the equality of values in the logic; numbers compare by size
(`Double.eqv`), where the two zeros are equal.
-/

namespace Relay

/-- A binary floating-point number of double precision, as its bits. -/
structure Double where
  /-- Sign, eleven bits of exponent and fifty-two bits of fraction. -/
  bits : UInt64
  deriving DecidableEq, Repr, Inhabited

namespace Double

/-- The machine number with these bits. -/
def toFloat (d : Double) : Float := Float.ofBits d.bits

/-- The bits of a machine number. -/
def ofFloat (f : Float) : Double := ⟨f.toBits⟩

/-- The number nearest to a natural number below `2 ^ 64`. -/
def ofNat64 (n : Nat) : Double := ofFloat n.toUInt64.toFloat

/-- The number nearest to `10 ^ k`. -/
def powerOfTen (k : Nat) : Double := ofFloat (Float.ofScientific 1 false k)

/-- The number nearest to `m * 10 ^ (-k)`. -/
def ofDecimal (m k : Nat) : Double := ofFloat (Float.ofScientific m true k)

/-- Sum, rounded to nearest. -/
def add (a b : Double) : Double := ofFloat (a.toFloat + b.toFloat)

/-- Product, rounded to nearest. -/
def mul (a b : Double) : Double := ofFloat (a.toFloat * b.toFloat)

/-- Quotient, rounded to nearest. -/
def div (a b : Double) : Double := ofFloat (a.toFloat / b.toFloat)

/-- The number with its sign bit flipped. -/
def neg (d : Double) : Double := ⟨d.bits ^^^ 0x8000000000000000⟩

/-- The number nearest to an integer whose size is below `2 ^ 64`. -/
def ofInt64 (i : Int) : Double := if i < 0 then (ofNat64 i.natAbs).neg else ofNat64 i.natAbs

/-- The power of `e` with this exponent. -/
def exp (d : Double) : Double := ofFloat d.toFloat.exp

/-- The natural logarithm. -/
def log (d : Double) : Double := ofFloat d.toFloat.log

/-- The least integer that is not below, within 64 bits. -/
def ceil64 (d : Double) : Int := d.toFloat.ceil.toInt64.toInt

/-- The whole part, where negative numbers give zero and large ones `2 ^ 64 - 1`. -/
def toNat64 (d : Double) : Nat := d.toFloat.toUInt64.toNat

/-- The positive infinity. -/
def infinity : Double := ⟨0x7FF0000000000000⟩

/-- Whether the sign bit is set. -/
def isNegative (d : Double) : Bool := d.bits >>> 63 == 1

/-- The eleven bits of exponent. -/
def exponentBits (d : Double) : Nat := ((d.bits >>> 52) &&& 0x7FF).toNat

/-- The fifty-two bits of fraction. -/
def fractionBits (d : Double) : Nat := (d.bits &&& 0xFFFFFFFFFFFFF).toNat

/-- Whether the number is one of the two infinities. -/
def isInfinite (d : Double) : Bool := d.exponentBits == 2047 && d.fractionBits == 0

/-- Whether the bits stand for no number. -/
def isNaN (d : Double) : Bool := d.exponentBits == 2047 && d.fractionBits != 0

/-- Whether the number is one of the two zeros. -/
def isZero (d : Double) : Bool := d.exponentBits == 0 && d.fractionBits == 0

/-- Equality of size: the two zeros are equal. -/
def eqv (a b : Double) : Bool := a.toFloat == b.toFloat

/-- Comparison by size. -/
def le (a b : Double) : Bool := a.toFloat ≤ b.toFloat

/-- Strict comparison by size. -/
def lt (a b : Double) : Bool := a.toFloat < b.toFloat

end Double

end Relay
