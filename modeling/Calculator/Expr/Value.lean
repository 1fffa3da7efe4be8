import Calculator.Expr.Fault
import Calculator.Nesting
import Calculator.Number.Arithmetic
import Calculator.Number.Power

/-!
# The value of an expression

The operands of an operation are evaluated from left to right and before the operation is looked at,
so that the first fault in this order is the one that is reported.

## Main definitions

* `Operator.apply` — an operation on two values, or its fault.
* `Expr.valueWithin` — the value of an expression, which costs two of the allowance a level.
-/

namespace Calculator

/-- The power of two numbers, or the fault; `power` is the expression to blame. -/
def powerOf (power : Expr Binary64) (base exponent : Binary64) :
    Except ArithmeticFault Binary64 :=
  if base.isZero && exponent.isNegative then .error (.zeroToNegative power)
  else if base.isNegative && exponent.whole?.isNone then
    .error (.invalidPower power base exponent)
  else
    let result := base.pow exponent
    if base.isFinite && exponent.isFinite && result.isInfinite then .error (.overflow power)
    else .ok result

/-- The value of an operation on the values of its operands, or the fault.  A zero divisor is blamed
on the right operand, every other fault on the whole operation. -/
def Operator.apply (op : Operator) (left right : Expr Binary64) (span : Span) (x y : Binary64) :
    Except ArithmeticFault Binary64 :=
  match op with
  | .add => .ok (x.add y)
  | .sub => .ok (x.sub y)
  | .mul => .ok (x.mul y)
  | .div => if y.isZero then .error (.zeroDivisor right) else .ok (x.div y)
  | .pow => powerOf (.binary op left right span) x y

namespace Expr

/-- The value of an expression or its first fault, as far as `room` allows. -/
def valueWithin : Nat → Expr Binary64 → Except (Halt ArithmeticFault) Binary64
  | 0, _ => .error .tooDeep
  | 1, _ => .error .tooDeep
  | _ + 2, literal value _ => .ok value
  | room + 2, negate operand _ => do
    let x ← operand.valueWithin room
    .ok x.neg
  | room + 2, binary op left right span => do
    let x ← left.valueWithin room
    let y ← right.valueWithin room
    (op.apply left right span x y).mapError .fault

/-- The value of an expression or its first fault. -/
def value (e : Expr Binary64) : Except (Halt ArithmeticFault) Binary64 := e.valueWithin allowance

end Expr

end Calculator
