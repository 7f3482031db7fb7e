import FilterSql.Decimal.Shortest

/-!
# Layout of decimal numbers

How the digits of a number are written out: positionally for a range of exponents, always with a
fraction part, else scientifically with an explicit sign in the exponent. The range is part of the
output format and is a parameter here.
-/

namespace FilterSql.Decimal

/-- The exponents of the leading digit for which a number is written positionally. -/
structure Layout where
  smallest : Int
  largest : Int
deriving DecidableEq, Repr

/-- The given number of zeros. -/
def zeros (count : Nat) : String :=
  String.ofList (List.replicate count '0')

/-- Digits written with a point after the leading one, if there are more. -/
def pointAfterFirst (digits : List Char) : String :=
  match digits with
  | first :: second :: rest => String.ofList (first :: '.' :: second :: rest)
  | short => String.ofList short

namespace Layout

/-- The text of a decimal number. -/
def write (layout : Layout) (number : Digits) : String :=
  let digits := (toString number.digits).toList
  let leading := number.exponent + digits.length - 1
  if layout.smallest ≤ leading ∧ leading ≤ layout.largest then
    if 0 ≤ number.exponent then String.ofList digits ++ zeros number.exponent.toNat ++ ".0"
    else if 0 ≤ leading then
      let whole := leading.toNat + 1
      String.ofList (digits.take whole) ++ "." ++ String.ofList (digits.drop whole)
    else "0." ++ zeros (-leading - 1).toNat ++ String.ofList digits
  else
    let sign := if leading < 0 then "-" else "+"
    pointAfterFirst digits ++ "e" ++ sign ++ toString leading.natAbs

/-- The text of a float: its shortest digits, or a zero, after its sign. -/
def writeFloat (layout : Layout) (x : Binary64) : String :=
  let sign := if x.negative then "-" else ""
  sign ++ if x.mantissa = 0 then "0.0" else layout.write (shortest x)

end Layout

end FilterSql.Decimal
