import Calculator.Number.Binary64

/-!
# Powers of binary64 numbers

The power of two finite sizes is rounded once.  A whole exponent of at most 64 is multiplied out
exactly.  For every other exponent the logarithm to base two of the power is the exponent times
that of the base, and the nearest magnitude is found by bisection: a magnitude is too small as long
as the logarithm of the midpoint above it is less.  Logarithms have 192 places after the point,
far more than the bisection needs to tell neighbouring magnitudes apart.

## Main definitions

* `logarithm` — the logarithm to base two, by repeated squaring.
* `Magnitude.power` — the power of finite sizes.
* `Binary64.pow` — the power, with the rules for signs, zeros and infinities.
-/

namespace Calculator

/-- How many binary places a logarithm has. -/
abbrev logPlaces : Nat := 192

/-- The first `n` binary places of the logarithm of `m / 2 ^ logPlaces`, which lies between one and
two: squaring doubles the logarithm, and the next place is one if the square is two or more. -/
def fractionPlaces : Nat → Nat → Nat
  | 0, _ => 0
  | n + 1, m =>
    let square := (m * m) >>> logPlaces
    if square < 1 <<< (logPlaces + 1) then fractionPlaces n square
    else 1 <<< n + fractionPlaces n (square >>> 1)

/-- The logarithm of a positive number to base two, in units of the last binary place. -/
def logarithm (n : Nat) : Int :=
  (n.log2 <<< logPlaces + fractionPlaces logPlaces (n <<< logPlaces >>> n.log2) : Nat)

/-- Halves the interval from `low` to `high` until it is one number, the first that is not
`tooSmall`; `steps` is how many halvings are left. -/
def bisect (tooSmall : Nat → Bool) : Nat → Nat → Nat → Nat
  | 0, low, _ => low
  | steps + 1, low, high =>
    if low < high then
      let middle := (low + high) / 2
      if tooSmall middle then bisect tooSmall steps (middle + 1) high
      else bisect tooSmall steps low middle
    else low

namespace Magnitude

/-- The power for a whole exponent, multiplied out and rounded once. -/
def wholePower (base : Magnitude) (negative : Bool) (n : Nat) : Magnitude :=
  let num := base.quanta.pow n
  let den := Nat.pow quantaPerUnit n
  if negative then nearest (den * quantaPerUnit) num else nearest (num * quantaPerUnit) den

/-- The power by logarithms.  With `negative` the exponent is below zero. -/
def logPower (base : Magnitude) (negative : Bool) (exponent : Magnitude) : Magnitude :=
  let size := (logarithm base.quanta - (1074 <<< logPlaces : Nat)) * exponent.quanta
  let target := if negative then -size else size
  let tooSmall rank :=
    let middle := quantaAt rank + quantaAt (rank + 1)
    (logarithm middle - (1075 <<< logPlaces : Nat)) * quantaPerUnit < target
  ofRank (bisect tooSmall 64 0 infinityRank)

/-- The power of a positive finite base; with `negative` the exponent is below zero. -/
def power (base : Magnitude) (negative : Bool) (exponent : Magnitude) : Magnitude :=
  let n := exponent.quanta / quantaPerUnit
  if exponent.quanta % quantaPerUnit = 0 && n ≤ 64 then base.wholePower negative n
  else base.logPower negative exponent

end Magnitude

namespace Binary64

/-- The size of a power whose exponent is not zero.  Infinite exponents ask only whether the base is
below, at or above one. -/
def powerSize (base : Magnitude) (negative : Bool) (exponent : Magnitude) : Magnitude :=
  if base = .zero then (if negative then .infinity else .zero)
  else if base = .infinity then (if negative then .zero else .infinity)
  else if base = .one then .one
  else if exponent = .infinity then
    (if (base.rank < Magnitude.one.rank) = negative then .infinity else .zero)
  else base.power negative exponent

/-- The power.  Whatever is raised to zero gives one, and so does one raised to anything; a finite
negative number has a power only for a whole or an infinite exponent, and the power is negative for
an odd one. -/
def pow (x y : Binary64) : Binary64 :=
  if y.isZero || x = one then one
  else match x, y with
    | signed s a, signed t b =>
      if x.isNegative && a.isFinite && b.isFinite && y.whole?.isNone then nan
      else signed (s && y.isOdd) (powerSize a t b)
    | _, _ => nan

@[simp] theorem pow_of_isZero {x y : Binary64} (h : y.isZero = true) : x.pow y = one := by
  simp [pow, h]

end Binary64

end Calculator
