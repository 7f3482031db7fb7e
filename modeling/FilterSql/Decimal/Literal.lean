import FilterSql.Decimal.Binary64

/-!
# The value of a decimal literal

A literal has a sign, whole digits, perhaps fraction digits and perhaps an exponent of ten.
`Literal.float?` gives it a binary64 value in three steps that each round once: the digits make a
significand below `2 ^ 64`, the significand becomes a float, and the float is multiplied or divided
by a power of ten. Digits that no longer fit into the significand are left out; a whole digit that
is left out still raises the exponent.
-/

namespace FilterSql.Decimal

/-- A decimal literal as written, its digits as numbers below ten. -/
structure Literal where
  negative : Bool
  whole : List Nat
  fraction : List Nat := []
  exponent : Option Int := none
deriving DecidableEq, Repr

/-- Appends digits to a significand while it stays below `2 ^ 64`; the second component counts the
digits left out, which are all from the first that does not fit. -/
def appendDigits (significand : Nat) : List Nat → Nat × Nat
  | [] => (significand, 0)
  | digit :: rest =>
    if significand * 10 + digit < Nat.pow 2 64 then appendDigits (significand * 10 + digit) rest
    else (significand, rest.length + 1)

/-- The float nearest to `10 ^ exponent`. -/
def powerOfTen? (exponent : Nat) : Option Binary64 :=
  Binary64.nearest? false (Nat.pow 10 exponent) 1

/-- The largest power of ten that has a float. -/
def largestPower : Nat := 308

/-- The float `± significand · 10 ^ exponent`, scaled in one rounded step, or in two when it is
divided by more than the largest power; `none` when the value is too large. A significand below
`2 ^ 64` that is divided by more than two largest powers vanishes. -/
def scale? (negative : Bool) (significand : Nat) (exponent : Int) : Option Binary64 := do
  let start ← Binary64.nearest? negative significand 1
  if 0 ≤ exponent then
    if exponent ≤ largestPower then start.times? (← powerOfTen? exponent.toNat)
    else if significand = 0 then some start
    else none
  else
    let down := (-exponent).toNat
    if down ≤ largestPower then start.over? (← powerOfTen? down)
    else if down ≤ 2 * largestPower then
      let first ← start.over? (← powerOfTen? largestPower)
      first.over? (← powerOfTen? (down - largestPower))
    else some (Binary64.zero negative)

namespace Literal

/-- The number written by the whole digits. -/
def wholeValue (literal : Literal) : Nat :=
  literal.whole.foldl (fun value digit => value * 10 + digit) 0

/-- A literal with neither fraction nor exponent is written as an integer. -/
def isInteger (literal : Literal) : Bool :=
  literal.fraction.isEmpty && literal.exponent.isNone

/-- The binary64 value of a literal; `none` when it is too large. -/
def float? (literal : Literal) : Option Binary64 :=
  let whole := appendDigits 0 literal.whole
  let all := appendDigits whole.1 literal.fraction
  let used : Int := literal.fraction.length - all.2
  scale? literal.negative all.1 (literal.exponent.getD 0 + whole.2 - used)

end Literal

end FilterSql.Decimal
