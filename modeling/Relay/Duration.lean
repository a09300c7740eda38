/-!
# Durations

A duration is a number of nanoseconds below `2 ^ 64` seconds. In messages it is written in its largest
whole unit, with as many decimals as it needs.
-/

namespace Relay

/-- A span of time. -/
structure Duration where
  /-- The span in nanoseconds. -/
  nanos : Nat
  deriving DecidableEq, Repr, Inhabited

namespace Duration

/-- Nanoseconds in a second. -/
def perSecond : Nat := 1000000000

/-- The longest duration. -/
def longest : Duration := ⟨18446744073709551616 * perSecond - 1⟩

/-- A number of seconds. -/
def ofSeconds (n : Nat) : Duration := ⟨n * perSecond⟩

/-- A number of milliseconds. -/
def ofMillis (n : Nat) : Duration := ⟨n * 1000000⟩

/-- The whole seconds. -/
def seconds (d : Duration) : Nat := d.nanos / perSecond

/-- The nanoseconds beyond the whole seconds. -/
def subsec (d : Duration) : Nat := d.nanos % perSecond

/-- The shorter of two durations. -/
def min (a b : Duration) : Duration := if a.nanos ≤ b.nanos then a else b

/-- A multiple of a duration, if it is not too long. -/
def times? (d : Duration) (n : Nat) : Option Duration :=
  if d.nanos * n ≤ longest.nanos then some ⟨d.nanos * n⟩ else none

/-- A number of parts of which `unit` make a whole, with the decimals it needs; `unit` is a power of
ten with `places` zeros. -/
def decimal (n unit places : Nat) : String :=
  let digits := Nat.toDigits 10 (n % unit)
  let padded := List.replicate (places - digits.length) '0' ++ digits
  let shown := (padded.reverse.dropWhile (· = '0')).reverse
  toString (n / unit) ++ (if shown.isEmpty then "" else "." ++ String.ofList shown)

/-- The text of a duration. -/
def text (d : Duration) : String :=
  if perSecond ≤ d.nanos then decimal d.nanos perSecond 9 ++ "s"
  else if 1000000 ≤ d.nanos then decimal d.nanos 1000000 6 ++ "ms"
  else if 1000 ≤ d.nanos then decimal d.nanos 1000 3 ++ "µs"
  else toString d.nanos ++ "ns"

end Duration

end Relay
