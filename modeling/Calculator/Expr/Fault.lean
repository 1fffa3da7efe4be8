import Calculator.Diagnostic
import Calculator.Expr

/-!
# Arithmetic faults

An operation whose result does not exist, or is too large, is a fault instead of a result.

## Main definitions

* `ArithmeticFault` — what is wrong, with the expression that is to blame.
* `ArithmeticFault.diagnostic` — the fault as it is told to a reader.
-/

namespace Calculator

/-- The code of a division by zero. -/
def FaultCode.divisionByZero : FaultCode := ⟨"E001", "Division by zero"⟩

/-- The code of a power without a real value. -/
def FaultCode.invalidPower : FaultCode := ⟨"E002", "Invalid power operation"⟩

/-- The code of a result that is too large. -/
def FaultCode.numericOverflow : FaultCode := ⟨"E003", "Numeric overflow"⟩

/-- What is wrong with an operation. -/
inductive ArithmeticFault
  /-- The divisor is zero. -/
  | zeroDivisor (divisor : Expr Binary64)
  /-- Zero is raised to a negative power. -/
  | zeroToNegative (power : Expr Binary64)
  /-- A negative number is raised to a power that is not whole. -/
  | invalidPower (power : Expr Binary64) (base exponent : Binary64)
  /-- The power is larger than every finite number. -/
  | overflow (power : Expr Binary64)
  deriving DecidableEq, Repr

namespace ArithmeticFault

/-- All codes of arithmetic faults. -/
def codes : List FaultCode := [.divisionByZero, .invalidPower, .numericOverflow]

/-- The expression that is to blame. -/
def culprit : ArithmeticFault → Expr Binary64
  | zeroDivisor divisor => divisor
  | zeroToNegative power => power
  | invalidPower power _ _ => power
  | overflow power => power

/-- Where the expression begins. -/
def location (f : ArithmeticFault) : Location := f.culprit.span.first

/-- The code of the fault. -/
def code : ArithmeticFault → FaultCode
  | zeroDivisor _ => .divisionByZero
  | zeroToNegative _ => .divisionByZero
  | invalidPower _ _ _ => .invalidPower
  | overflow _ => .numericOverflow

/-- What is wrong, in one sentence. -/
def message : ArithmeticFault → String
  | zeroDivisor _ => "Division by zero"
  | zeroToNegative _ => "Division by zero: zero raised to a negative power"
  | invalidPower _ base exponent =>
    "Invalid power operation: " ++ base.text ++ " ^ " ++ exponent.text
  | overflow _ => "Numeric overflow"

/-- Why it is wrong. -/
def help : ArithmeticFault → String
  | zeroDivisor _ => "The right-hand side of this division evaluates to zero."
  | zeroToNegative _ => "A negative exponent divides by the base, which is zero here."
  | invalidPower _ _ _ => "A negative number raised to a non-integer power has no real result."
  | overflow _ => "The result of this operation is too large to represent."

/-- The fault as it is told to a reader. -/
def diagnostic (f : ArithmeticFault) : Diagnostic where
  message := f.message
  location := f.location
  severity := "error"
  code := some f.code.id
  help := some f.help
  suggestions := none

end ArithmeticFault

end Calculator
