import Calculator.Expr.Value

/-!
# Sketches of expressions

A sketch is a tree that was put together by hand and need not be an expression: an operator may
stand in the wrong place, and a node may be something else altogether.  A sketch is written and
evaluated like an expression, up to the first place where it is none.

## Main definitions

* `Sketch` — trees of operators, numbers and stray data.
* `SketchFault`, `SketchFault.message` — why a sketch has no value, and how that is told.
* `Sketch.textWithin` — writing a sketch, which any operator allows.
* `Sketch.evaluateWithin` — evaluating a sketch, which also finds the expression that it is.
* `Sketch.ofExpr` — an expression as a sketch.

## Main results

* `Sketch.evaluateWithin_ofExpr` — a sketch of an expression has the value of the expression.
-/

namespace Calculator

/-- Something that is put in the place of an expression. -/
inductive Datum
  | integer (n : Int)
  | text (s : String)
  | truth (b : Bool)
  | absent
  deriving DecidableEq, Repr

/-- How a datum is written. -/
def Datum.inspect : Datum → String
  | integer n => toString n
  | text s => quoted s
  | truth true => "True"
  | truth false => "False"
  | absent => "None"

/-- What is told of a datum that should be written as an expression. -/
def Datum.notWritten (datum : Datum) : String := "Not an AST node: " ++ datum.inspect

/-- An operator in any place of a sketch. -/
inductive AnyOperator
  | negate
  | binary (op : Operator)
  deriving DecidableEq, Repr

namespace AnyOperator

/-- The name of the function that an operator stands for. -/
def functionName : AnyOperator → String
  | negate => "Neg"
  | binary op => op.functionName

/-- How an operator is written where it is not expected. -/
def inspect : AnyOperator → String
  | negate => "<UnaryOperator.NEGATE: '-'>"
  | binary op =>
    "<BinaryOperator." ++ String.ofList (op.functionName.toList.map Char.toUpper) ++ ": '"
      ++ op.symbol.toString ++ "'>"

end AnyOperator

/-- A tree that need not be an expression. -/
inductive Sketch
  | literal (value : Binary64) (span : Span)
  | unary (op : AnyOperator) (operand : Sketch) (span : Span)
  | binary (op : AnyOperator) (left right : Sketch) (span : Span)
  | stray (datum : Datum)
  deriving DecidableEq, Repr

/-- Why a sketch has no value. -/
inductive SketchFault
  /-- A node is no expression. -/
  | stray (datum : Datum)
  /-- An operator with one operand is not a negation. -/
  | unknownUnary (op : AnyOperator)
  /-- An operator with two operands is a negation. -/
  | unknownBinary (op : AnyOperator)
  /-- The sketch is an expression so far, and an operation has no result. -/
  | arithmetic (fault : ArithmeticFault)
  deriving DecidableEq, Repr

/-- Why a sketch has no value, in one sentence. -/
def SketchFault.message : SketchFault → String
  | stray datum => "Cannot evaluate " ++ datum.inspect
  | unknownUnary op => "Unknown unary operator " ++ op.inspect
  | unknownBinary op => "Unknown binary operator " ++ op.inspect
  | arithmetic fault => fault.message

namespace Sketch

/-- The text of a sketch, or the first stray datum in it, as far as `room` allows. -/
def textWithin : Nat → Sketch → Except (Halt Datum) String
  | 0, _ => .error .tooDeep
  | _ + 1, literal value _ => .ok value.display
  | room + 1, unary op operand _ => do
    let text ← operand.textWithin room
    .ok (Expr.application op.functionName [text])
  | room + 1, binary op left right _ => do
    let leftText ← left.textWithin room
    let rightText ← right.textWithin room
    .ok (Expr.application op.functionName [leftText, rightText])
  | _ + 1, stray datum => .error (.fault datum)

/-- The expression that a sketch is, with its value, or what is wrong with it first.  Operands come
before their operator. -/
def evaluateWithin : Nat → Sketch → Except (Halt SketchFault) (Expr Binary64 × Binary64)
  | 0, _ => .error .tooDeep
  | 1, _ => .error .tooDeep
  | _ + 2, literal value span => .ok (.literal value span, value)
  | room + 2, unary op operand span => do
    let (e, x) ← operand.evaluateWithin room
    match op with
    | .negate => .ok (.negate e span, x.neg)
    | .binary _ => .error (.fault (.unknownUnary op))
  | room + 2, binary op left right span => do
    let (a, x) ← left.evaluateWithin room
    let (b, y) ← right.evaluateWithin room
    match op with
    | .negate => .error (.fault (.unknownBinary op))
    | .binary op =>
      match op.apply a b span x y with
      | .ok z => .ok (.binary op a b span, z)
      | .error fault => .error (.fault (.arithmetic fault))
  | _ + 2, stray datum => .error (.fault (.stray datum))

/-- An expression as a sketch. -/
def ofExpr : Expr Binary64 → Sketch
  | .literal value span => literal value span
  | .negate operand span => unary .negate (ofExpr operand) span
  | .binary op left right span => binary (.binary op) (ofExpr left) (ofExpr right) span

/-- A sketch of an expression has the value of the expression. -/
theorem evaluateWithin_ofExpr (room : Nat) (e : Expr Binary64) :
    (ofExpr e).evaluateWithin room =
      match e.valueWithin room with
      | .ok x => .ok (e, x)
      | .error halt => .error (halt.map .arithmetic) := by
  induction e generalizing room with
  | literal value span =>
    match room with
    | 0 | 1 | _ + 2 => rfl
  | negate operand span ih =>
    match room with
    | 0 | 1 => rfl
    | room + 2 =>
      simp only [ofExpr, evaluateWithin, Expr.valueWithin, ih room]
      cases operand.valueWithin room <;> rfl
  | binary op left right span ihl ihr =>
    match room with
    | 0 | 1 => rfl
    | room + 2 =>
      simp only [ofExpr, evaluateWithin, Expr.valueWithin, ihl room, ihr room]
      cases left.valueWithin room with
      | error halt => rfl
      | ok x =>
        cases right.valueWithin room with
        | error halt => rfl
        | ok y =>
          simp only [bind, Except.bind]
          cases op.apply left right span x y <;> rfl

end Sketch

end Calculator
