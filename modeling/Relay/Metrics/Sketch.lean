import Relay.Number.Double

/-!
# Sketches of distributions

A sketch keeps a distribution up to a relative error of one in ten thousand. It counts values in bins, each
of which reaches from a power of a ratio to the next one; values of either sign have bins of their own, and
values next to zero are counted as zeros. A quantile is the middle of the bin that holds the value of its
rank. The least and the greatest value are kept as they are.
-/

namespace Relay.Metrics

/-- A sketch of a distribution. -/
structure Sketch where
  /-- The bins of the negative values, by the size of the value. -/
  negative : List Int
  /-- The number of zeros. -/
  zeros : Nat
  /-- The bins of the positive values. -/
  positive : List Int
  /-- The least value. -/
  least : Double
  /-- The greatest value. -/
  greatest : Double

namespace Sketch

/-- The relative error. -/
def precision : Double := .ofDecimal 1 4

/-- Values up to this size are zeros. -/
def smallest : Double := .ofDecimal 1 9

/-- The number of bins of a sign. -/
def binLimit : Nat := 32768

/-- The ratio of the bounds of a bin, `1 + 2 * p / (1 - p)` for a relative error `p`. -/
def ratio : Double :=
  (Double.ofNat64 1).add
    (((Double.ofNat64 2).mul precision).div ((Double.ofNat64 1).add precision.neg))

/-- The natural logarithm of the ratio. -/
def width : Double := .ofDecimal 20000000066666668 20

/-- The bin of a positive value. -/
def bin (d : Double) : Int := (d.log.div width).ceil64

/-- The middle of a bin: as far from its bounds as the relative error allows. -/
def middle (bin : Int) : Double :=
  ((Double.ofInt64 bin).mul width).exp.mul ((Double.ofNat64 2).div ((Double.ofNat64 1).add ratio))

/-- The sketch of no values. -/
def empty : Sketch := ⟨[], 0, [], .infinity, Double.infinity.neg⟩

/-- Add a value. -/
def add (s : Sketch) (d : Double) : Sketch :=
  let s :=
    if smallest.lt d then { s with positive := bin d :: s.positive }
    else if d.lt smallest.neg then { s with negative := bin d.neg :: s.negative }
    else { s with zeros := s.zeros + 1 }
  { s with
    least := if d.lt s.least then d else s.least
    greatest := if s.greatest.lt d then d else s.greatest }

/-- The sketch of values. -/
def ofList (values : List Double) : Sketch := values.foldl add empty

/-- The number of values. -/
def size (s : Sketch) : Nat := s.negative.length + s.zeros + s.positive.length

/-- The bin of a rank. Bins too far below the highest one are one bin. -/
def binAt (bins : List Int) (rank : Nat) : Int :=
  let sorted := bins.mergeSort (· ≤ ·)
  let highest := sorted.getLastD 0
  max (sorted.getD rank highest) (highest - (binLimit - 1))

/-- A quantile, for a share from 0 to 1. -/
def quantile (s : Sketch) (share : Double) : Double :=
  if s.size = 0 then .ofNat64 0
  else if share.eqv (.ofNat64 0) then s.least
  else if share.eqv (.ofNat64 1) then s.greatest
  else
    let rank := (share.mul (.ofNat64 (s.size - 1))).toNat64
    let below := s.negative.length
    if rank < below then (middle (binAt s.negative (below - rank - 1))).neg
    else if rank < below + s.zeros then .ofNat64 0
    else middle (binAt s.positive (rank - below - s.zeros))

end Sketch

end Relay.Metrics
