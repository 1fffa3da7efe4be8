import Calculator.Number.Binary64

/-!
# Arithmetic on binary64 numbers

Every sum, product and quotient of finite numbers is formed exactly, in quanta, and rounded once
by `Magnitude.nearest`.  Infinities and values that are not a number follow the usual rules: a sum
of opposite infinities, zero times infinity, and the quotients `0 / 0` and infinity by infinity are
not a number.

## Main definitions

* `Binary64.ofQuanta` — a signed number of quanta, rounded.
* `Binary64.neg`, `Binary64.add`, `Binary64.sub`, `Binary64.mul`, `Binary64.div`.
-/

namespace Calculator.Binary64

/-- The finite number as a signed number of quanta. -/
def signedQuanta (negative : Bool) (size : Magnitude) : Int :=
  if negative then -(size.quanta : Int) else size.quanta

/-- The number nearest to `z` quanta, where `zeroSign` is the sign that an exact zero gets. -/
def ofQuanta (zeroSign : Bool) (z : Int) : Binary64 :=
  if z = 0 then signed zeroSign .zero else signed (z < 0) (.nearest z.natAbs 1)

/-- Changes the sign. -/
def neg : Binary64 → Binary64
  | nan => nan
  | signed negative size => signed (!negative) size

/-- The sum.  An exact zero is negative only if both terms are. -/
def add : Binary64 → Binary64 → Binary64
  | signed s a, signed t b =>
    if a.isFinite then
      if b.isFinite then ofQuanta (s && t) (signedQuanta s a + signedQuanta t b)
      else signed t b
    else if b.isFinite || s == t then signed s a
    else nan
  | _, _ => nan

/-- The difference. -/
def sub (x y : Binary64) : Binary64 := add x y.neg

/-- The product. -/
def mul : Binary64 → Binary64 → Binary64
  | signed s a, signed t b =>
    if a.isFinite && b.isFinite then
      signed (s != t) (.nearest (a.quanta * b.quanta) quantaPerUnit)
    else if a = .zero || b = .zero then nan
    else signed (s != t) .infinity
  | _, _ => nan

/-- The quotient. -/
def div : Binary64 → Binary64 → Binary64
  | signed s a, signed t b =>
    if a.isFinite then
      if b = .zero then (if a = .zero then nan else signed (s != t) .infinity)
      else if b.isFinite then signed (s != t) (.nearest (a.quanta * quantaPerUnit) b.quanta)
      else signed (s != t) .zero
    else if b.isFinite then signed (s != t) .infinity
    else nan
  | _, _ => nan

end Calculator.Binary64
