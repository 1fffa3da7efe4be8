import Calculator.Number.Decimal

/-!
# Writing binary64 numbers

A finite number is written with the fewest digits that read back as the same number, and of the
candidates with that many digits the nearest one is taken, an exact tie going to the even digit.
For one, two, … up to seventeen digits it is enough to try the two neighbours of the number among
the decimals with that many digits.

## Main definitions

* `Magnitude.shortest` — the shortest decimal that reads back.
* `Binary64.text` — a number with at least one digit on each side of the point, or with an exponent
  where the point would stand far from the digits.
* `Binary64.display` — a number as a result is shown: an integer without a point.
-/

namespace Calculator

/-- The most digits that a binary64 number ever needs. -/
abbrev mostDigits : Nat := 17

namespace Magnitude

/-- The exact size of a finite magnitude as a decimal with many digits. -/
def exact (m : Magnitude) : Decimal := ⟨m.quanta * Nat.pow 5 1074, -1074⟩

/-- How many digits stand before the point of a positive size; less than one means zeros behind the
point.  Times `10 ^ 324` even the smallest size is more than one. -/
def leadingPlace (m : Magnitude) : Int :=
  (Nat.toDigits 10 (m.quanta * Nat.pow 10 324 / quantaPerUnit)).length - 324

/-- The size, divided by `10 ^ exponent`, as a numerator and a denominator. -/
def dividedBy (m : Magnitude) (exponent : Int) : Nat × Nat :=
  if 0 ≤ exponent then (m.quanta, quantaPerUnit * Nat.pow 10 exponent.toNat)
  else (m.quanta * Nat.pow 10 (-exponent).toNat, quantaPerUnit)

/-- The better of the two neighbours of a size among the multiples of `10 ^ exponent`, of those that
read back as that size. -/
def neighbour? (m : Magnitude) (exponent : Int) : Option Decimal :=
  let (num, den) := m.dividedBy exponent
  let low := num / den
  let below : Decimal := ⟨low, exponent⟩
  let above : Decimal := ⟨low + 1, exponent⟩
  let half := (2 * low + 1) * den
  let belowIsNearer := 2 * num < half || (2 * num == half && low % 2 == 0)
  match below.nearest == m, above.nearest == m with
  | true, true => some (if belowIsNearer then below else above)
  | true, false => some below
  | false, true => some above
  | false, false => none

/-- The decimal with the fewest digits that reads back as a positive finite size. -/
def shortest (m : Magnitude) : Decimal :=
  ((List.range mostDigits).findSome? fun k => m.neighbour? (m.leadingPlace - (k + 1 : Nat))).getD
    m.exact

end Magnitude

/-- Digits with a point among them: zeros fill the space between the point and the digits, and there
is at least one digit on each side of the point. -/
def positional (digits : List Char) (point : Int) : List Char :=
  if point ≤ 0 then '0' :: '.' :: List.replicate (-point).toNat '0' ++ digits
  else
    let before := (digits ++ List.replicate (point.toNat - digits.length) '0').take point.toNat
    let after := digits.drop point.toNat
    before ++ '.' :: (if after.isEmpty then ['0'] else after)

/-- Digits with the point after the first of them, if more follow, and an exponent that has a sign
and at least two digits. -/
def scientific (digits : List Char) (point : Int) : List Char :=
  let exponent := Nat.toDigits 10 (point - 1).natAbs
  let mantissa := digits.take 1 ++ (if digits.length ≤ 1 then [] else '.' :: digits.drop 1)
  mantissa ++ 'e' :: (if point < 1 then '-' else '+') ::
    List.replicate (2 - exponent.length) '0' ++ exponent

namespace Decimal

/-- A decimal is written with an exponent below `10 ^ (-4)` and from `10 ^ 16` on. -/
def text (d : Decimal) : List Char :=
  if -4 < d.point ∧ d.point ≤ 16 then positional d.digits d.point else scientific d.digits d.point

end Decimal

namespace Binary64

/-- The sign that is written in front of a number. -/
def signText (negative : Bool) : List Char := if negative then ['-'] else []

/-- A number, written so that it reads back. -/
def text : Binary64 → String
  | nan => "nan"
  | signed negative size =>
    String.ofList <| signText negative ++
      if size = .zero then ['0', '.', '0']
      else if size.isFinite then size.shortest.text
      else ['i', 'n', 'f']

/-- A number as a result is shown: an integer, also a negative zero, has its digits only, and
everything else its shortest text. -/
def display (x : Binary64) : String :=
  match x.whole? with
  | some n => String.ofList (signText (n < 0) ++ Nat.toDigits 10 n.natAbs)
  | none => x.text

end Binary64

end Calculator
