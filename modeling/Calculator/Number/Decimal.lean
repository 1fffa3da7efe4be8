import Calculator.Number.Binary64

/-!
# Decimal numbers

A decimal is a whole coefficient times a power of ten.  It is what a numeral in a text says exactly,
and what is looked for when a binary64 number is to be written down.

## Main definitions

* `Decimal` — a coefficient and an exponent of ten.
* `Decimal.nearest` — the magnitude nearest to a decimal.
* `Decimal.ofNumeral` — the decimal that a numeral such as `3.50` says.
* `Decimal.digits`, `Decimal.point` — the significant digits, and where the point stands among them.
-/

namespace Calculator

/-- The number `coefficient * 10 ^ exponent`. -/
structure Decimal where
  coefficient : Nat
  exponent : Int
  deriving DecidableEq, Repr

namespace Decimal

/-- The magnitude nearest to a decimal. -/
def nearest (d : Decimal) : Magnitude :=
  if 0 ≤ d.exponent then .nearest (d.coefficient * Nat.pow 10 d.exponent.toNat * quantaPerUnit) 1
  else .nearest (d.coefficient * quantaPerUnit) (Nat.pow 10 (-d.exponent).toNat)

/-- The decimal said by a numeral, digits that may have a point after or between them: the digits
are the coefficient, and each digit after the point lowers the exponent by one. -/
def ofNumeral (numeral : List Char) : Decimal :=
  let whole := numeral.takeWhile Char.isDigit
  let fraction := (numeral.dropWhile Char.isDigit).drop 1
  ⟨Nat.ofDigitChars 10 (whole ++ fraction) 0, -fraction.length⟩

/-- The digits of the coefficient without the zeros at its end. -/
def digits (d : Decimal) : List Char :=
  ((Nat.toDigits 10 d.coefficient).reverse.dropWhile (· == '0')).reverse

/-- How many places after the beginning of the digits the point stands; less than one means that
zeros are missing in front of them. -/
def point (d : Decimal) : Int :=
  (Nat.toDigits 10 d.coefficient).length + d.exponent

end Decimal

end Calculator
