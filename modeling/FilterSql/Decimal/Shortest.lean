import FilterSql.Decimal.Binary64

/-!
# Shortest decimal digits

The fewest decimal digits that a reader rounding to nearest takes back to the same float. A float
`x` is read back from every decimal in its rounding interval. `shortest` looks for the coarsest
grid of multiples of a power of ten that has a point in the interval, and takes the point nearest
to `x`, of two equally near ones the even one. If a grid has a point in the interval then so does
one of the two neighbours of `x` on that grid, so looking at those two is enough.
-/

namespace FilterSql.Decimal

/-- The decimal number `digits · 10 ^ exponent`. -/
structure Digits where
  digits : Nat
  exponent : Int
deriving DecidableEq, Repr

/-- The numbers that round to one float, in units of `2 ^ unit`: `low` and `high` bound them, both
included if `closed`, and `value` is the float. -/
structure RoundingInterval where
  low : Nat
  value : Nat
  high : Nat
  unit : Int
  closed : Bool

/-- The rounding interval of a float: it reaches half way to each neighbour, and the lower
neighbour of a power of two is only half as far away. -/
def RoundingInterval.of (x : Binary64) : RoundingInterval :=
  let value := 4 * x.mantissa
  let lowStep := if x.mantissa = Nat.pow 2 52 ∧ x.exponent ≠ -1074 then 1 else 2
  ⟨value - lowStep, value, value + 2, x.exponent - 2, x.mantissa % 2 == 0⟩

namespace RoundingInterval

/-- The fraction by which numbers in units of `2 ^ unit` become multiples of `10 ^ exponent`. -/
def gridScale (interval : RoundingInterval) (exponent : Int) : Nat × Nat :=
  let num := Nat.pow 2 interval.unit.toNat * Nat.pow 10 (-exponent).toNat
  let den := Nat.pow 2 (-interval.unit).toNat * Nat.pow 10 exponent.toNat
  (num, den)

/-- Is the grid point `point · 10 ^ exponent` read back as the float? -/
def contains (interval : RoundingInterval) (exponent : Int) (point : Nat) : Bool :=
  let scale := interval.gridScale exponent
  let scaled := point * scale.2
  let low := interval.low * scale.1
  let high := interval.high * scale.1
  if interval.closed then low ≤ scaled && scaled ≤ high else low < scaled && scaled < high

/-- Of the two neighbours of the float on the grid of `10 ^ exponent`, the nearest that reads
back. -/
def hit? (interval : RoundingInterval) (exponent : Int) : Option Nat :=
  let scale := interval.gridScale exponent
  let below := interval.value * scale.1 / scale.2
  let rest := interval.value * scale.1 % scale.2
  let aboveIsNearer := scale.2 < 2 * rest || (scale.2 == 2 * rest && below % 2 == 1)
  match interval.contains exponent below, interval.contains exponent (below + 1) with
  | true, true => some (if aboveIsNearer then below + 1 else below)
  | true, false => some below
  | false, true => some (below + 1)
  | false, false => none

end RoundingInterval

/-- An exponent of ten above the leading digit of a nonzero float, by at most two places. It uses
`30103 / 100000` for the decimal logarithm of two. -/
def topExponent (x : Binary64) : Int :=
  (x.mantissa.log2 + x.exponent + 1) * 30103 / 100000 + 1

/-- The shortest digits of the magnitude of a float. Seventeen digits are always enough, and they
are on one of the twenty grids tried. -/
def shortest (x : Binary64) : Digits :=
  let interval := RoundingInterval.of x
  let candidates := (List.range 20).map fun (step : Nat) => topExponent x - step
  (candidates.findSome? fun exponent =>
    (interval.hit? exponent).map fun point => Digits.mk point exponent).getD ⟨0, 0⟩

end FilterSql.Decimal
