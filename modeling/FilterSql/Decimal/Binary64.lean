/-!
# Finite floating-point numbers of 64 bits

The finite numbers of the format binary64, each in the one form `± mantissa · 2 ^ exponent` that the
format fixes: the mantissa has 53 bits, or fewer at the smallest exponent. All arithmetic is exact
arithmetic on natural numbers followed by one rounding, `nearest?`.
-/

namespace FilterSql.Decimal

/-- A finite binary64 number, `± mantissa · 2 ^ exponent`; zero carries a sign. -/
structure Binary64 where
  negative : Bool
  mantissa : Nat
  exponent : Int
  mantissa_lt : mantissa < Nat.pow 2 53
  exponent_mem : -1074 ≤ exponent ∧ exponent ≤ 971
  normal : Nat.pow 2 52 ≤ mantissa ∨ exponent = -1074
deriving DecidableEq, Repr

/-- The quotient `num / den` rounded to an integer, a half going to the even neighbour. -/
def roundHalfEven (num den : Nat) : Nat :=
  let floor := num / den
  let rest := num % den
  if 2 * rest < den then floor
  else if den < 2 * rest then floor + 1
  else floor + floor % 2

/-- The fraction `num / den` divided by `2 ^ exponent`, again as a fraction. -/
def shiftDown (num den : Nat) (exponent : Int) : Nat × Nat :=
  if 0 ≤ exponent then (num, den * Nat.pow 2 exponent.toNat)
  else (num * Nat.pow 2 (-exponent).toNat, den)

namespace Binary64

/-- Zero of the given sign. -/
def zero (negative : Bool) : Binary64 :=
  ⟨negative, 0, -1074, by decide, by decide, .inr rfl⟩

/-- The number of this sign, mantissa and exponent, if the format has it. -/
def ofParts? (negative : Bool) (mantissa : Nat) (exponent : Int) : Option Binary64 :=
  if h : mantissa < Nat.pow 2 53 ∧ (-1074 ≤ exponent ∧ exponent ≤ 971) ∧
      (Nat.pow 2 52 ≤ mantissa ∨ exponent = -1074) then
    some ⟨negative, mantissa, exponent, h.1, h.2.1, h.2.2⟩
  else none

/-- The exponent at which `num / den` has a mantissa of 53 bits, or the smallest exponent if that
is larger. -/
def exponentOf (num den : Nat) : Int :=
  let guess : Int := max (-1074) (num.log2 - den.log2 - 53)
  let scaled := shiftDown num den guess
  if scaled.1 / scaled.2 < Nat.pow 2 53 then guess else guess + 1

/-- The number nearest to `± num / den`, ties going to the even mantissa; `none` when it rounds
past the largest number of the format. -/
def nearest? (negative : Bool) (num den : Nat) : Option Binary64 :=
  let exponent := exponentOf num den
  let scaled := shiftDown num den exponent
  let mantissa := roundHalfEven scaled.1 scaled.2
  if num = 0 then some (zero negative)
  else if mantissa < Nat.pow 2 53 then ofParts? negative mantissa exponent
  else ofParts? negative (mantissa / 2) (exponent + 1)

/-- The magnitude as a fraction. -/
def fraction (x : Binary64) : Nat × Nat :=
  shiftDown x.mantissa 1 (-x.exponent)

/-- The product of the magnitudes, rounded once, with the sign of the first factor. -/
def times? (x y : Binary64) : Option Binary64 :=
  nearest? x.negative (x.fraction.1 * y.fraction.1) (x.fraction.2 * y.fraction.2)

/-- The quotient of the magnitudes, rounded once, with the sign of the dividend. -/
def over? (x y : Binary64) : Option Binary64 :=
  nearest? x.negative (x.fraction.1 * y.fraction.2) (x.fraction.2 * y.fraction.1)

end Binary64

end FilterSql.Decimal
