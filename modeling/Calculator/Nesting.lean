import Calculator.Expr

/-!
# Limits on nesting

Reading, evaluating and writing an expression go as deep as the expression is nested.  Each of these
walks begins with an allowance and spends part of it on every level it goes down; when the allowance
is used up, the walk stops without an answer.

## Main definitions

* `allowance` — what every walk begins with.
* `Halt` — why a walk stops: nesting, or a fault of its own.
* `Expr.textWithin` — writing an expression, which costs one a level.
-/

namespace Calculator

/-- What every walk through an expression may spend. -/
abbrev allowance : Nat := 1000

/-- Why a walk stops without a result. -/
inductive Halt (ε : Type)
  /-- The allowance is used up. -/
  | tooDeep
  /-- The walk has met a fault. -/
  | fault (reason : ε)
  deriving DecidableEq, Repr

namespace Halt

/-- The same stop with another account of the fault. -/
def map {ε δ : Type} (f : ε → δ) : Halt ε → Halt δ
  | tooDeep => tooDeep
  | fault reason => fault (f reason)

end Halt

/-- The text of an expression, unless it has more levels than `room`. -/
def Expr.textWithin (room : Nat) (e : Expr Binary64) : Option String :=
  if e.height ≤ room then some e.text else none

end Calculator
