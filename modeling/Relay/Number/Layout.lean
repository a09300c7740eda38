import Relay.Number.Shortest

/-!
# Written numbers

How a shortest decimal is chosen and laid out: which one on a tie, with the point at its place or with an
exponent, and with or without a fraction where the number is whole.
-/

namespace Relay.Shortest

/-- The decisions of a number format. -/
structure Layout where
  /-- Which of two decimals that are equally near is written. -/
  tie : Tie
  /-- Numbers whose first digit stands below this power of ten are written with an exponent. -/
  least : Option Int
  /-- Numbers whose first digit stands at this power of ten or above are written with an exponent. -/
  most : Option Int
  /-- Whether a whole number is written with the fraction `.0`. -/
  fraction : Bool

/-- Whether a number is written without an exponent. -/
def Layout.positional (l : Layout) (e : Int) : Bool :=
  l.least.all (· ≤ e) && l.most.all (e < ·)

/-- The point at its place. -/
def Layout.plain (l : Layout) (x : Decimal) : List Char :=
  let n := x.digits.length
  if x.exponent < 0 then
    '0' :: '.' :: (List.replicate (-x.exponent - 1).toNat '0' ++ x.digits)
  else
    let whole := x.exponent.toNat + 1
    if n ≤ whole then
      x.digits ++ List.replicate (whole - n) '0' ++ (if l.fraction then ['.', '0'] else [])
    else x.digits.take whole ++ '.' :: x.digits.drop whole

/-- One digit before the point, and the exponent with its sign. -/
def scientific (x : Decimal) : List Char :=
  let sign := if x.exponent < 0 then '-' else '+'
  let tail := 'e' :: sign :: Nat.toDigits 10 x.exponent.natAbs
  match x.digits with
  | [] => tail
  | [c] => c :: tail
  | c :: cs => c :: '.' :: (cs ++ tail)

/-- The text of a number. -/
def Layout.write (l : Layout) (d : Double) : String :=
  if d.isNaN then "NaN"
  else
    let sign := if d.isNegative then ['-'] else []
    let body :=
      if d.isInfinite then ['i', 'n', 'f']
      else if d.isZero then if l.fraction then ['0', '.', '0'] else ['0']
      else
        let x := ofDouble l.tie d
        if l.positional x.exponent then l.plain x else scientific x
    String.ofList (sign ++ body)

end Relay.Shortest
