import Calculator.Location
import Calculator.Number.Shortest

/-!
# Expressions

An expression is a tree of literals, negations and the five binary operations.  Every node
remembers the span of text it was written in, which takes no part in its meaning.  The literals are
numbers, or whatever else stands for a number.

## Main definitions

* `Operator`, `Expr` — operators and expressions.
* `Expr.map` — the expression with other literals.
* `Expr.same` — equality of expressions apart from their spans.
* `Expr.height` — how many nodes the longest branch has.
* `Expr.text` — the expression as nested applications, such as `Add(1, Mul(2, 3))`.
-/

namespace Calculator

/-- A binary operator. -/
inductive Operator
  | add
  | sub
  | mul
  | div
  | pow
  deriving DecidableEq, Repr, Inhabited

namespace Operator

/-- The symbol that an operator is written with. -/
def symbol : Operator → Char
  | add => '+'
  | sub => '-'
  | mul => '*'
  | div => '/'
  | pow => '^'

/-- The name of the function that an operator stands for. -/
def functionName : Operator → String
  | add => "Add"
  | sub => "Sub"
  | mul => "Mul"
  | div => "Div"
  | pow => "Pow"

end Operator

/-- An expression with literals of type `α`. -/
inductive Expr (α : Type)
  /-- A number, or what stands for it. -/
  | literal (value : α) (span : Span)
  /-- An expression with the other sign. -/
  | negate (operand : Expr α) (span : Span)
  /-- An operation on two expressions. -/
  | binary (op : Operator) (left right : Expr α) (span : Span)
  deriving DecidableEq, Repr

namespace Expr

variable {α β : Type}

instance [Inhabited α] : Inhabited (Expr α) := ⟨literal default .nowhere⟩

/-- The text that the expression was written in. -/
def span : Expr α → Span
  | literal _ span => span
  | negate _ span => span
  | binary _ _ _ span => span

/-- The same expression in another span. -/
def withSpan (span : Span) : Expr α → Expr α
  | literal value _ => literal value span
  | negate operand _ => negate operand span
  | binary op left right _ => binary op left right span

/-- An operation written as its left operand, its operator and its right operand. -/
def join (op : Operator) (left right : Expr α) : Expr α :=
  binary op left right ⟨left.span.first, right.span.last⟩

/-- The expression with other literals in the same places. -/
def map (f : α → β) : Expr α → Expr β
  | literal value span => literal (f value) span
  | negate operand span => negate (operand.map f) span
  | binary op left right span => binary op (left.map f) (right.map f) span

/-- Whether two expressions are built alike from equal numbers, wherever they were written. -/
def same : Expr Binary64 → Expr Binary64 → Bool
  | literal x _, literal y _ => x.sameNumber y
  | negate a _, negate b _ => a.same b
  | binary op a b _, binary op' a' b' _ => op == op' && a.same a' && b.same b'
  | _, _ => false

/-- How many nodes the longest branch of an expression has. -/
def height : Expr α → Nat
  | literal _ _ => 1
  | negate operand _ => operand.height + 1
  | binary _ left right _ => max left.height right.height + 1

/-- A function applied to arguments. -/
def application (name : String) (arguments : List String) : String :=
  name ++ "(" ++ ", ".intercalate arguments ++ ")"

/-- The expression as nested applications of functions to numbers. -/
def text : Expr Binary64 → String
  | literal value _ => value.display
  | negate operand _ => application "Neg" [operand.text]
  | binary op left right _ => application op.functionName [left.text, right.text]

@[simp] theorem span_withSpan (span : Span) (e : Expr α) : (e.withSpan span).span = span := by
  cases e <;> rfl

@[simp] theorem height_withSpan (span : Span) (e : Expr α) :
    (e.withSpan span).height = e.height := by
  cases e <;> rfl

@[simp] theorem span_join (op : Operator) (left right : Expr α) :
    (join op left right).span = ⟨left.span.first, right.span.last⟩ := rfl

@[simp] theorem span_map (f : α → β) (e : Expr α) : (e.map f).span = e.span := by
  cases e <;> rfl

@[simp] theorem height_map (f : α → β) (e : Expr α) : (e.map f).height = e.height := by
  induction e with
  | literal value span => rfl
  | negate operand span ih => simp [map, height, ih]
  | binary op left right span ihl ihr => simp [map, height, ihl, ihr]

@[simp] theorem map_id (e : Expr α) : e.map id = e := by
  induction e with
  | literal value span => rfl
  | negate operand span ih => simp [map, ih]
  | binary op left right span ihl ihr => simp [map, ihl, ihr]

theorem map_map {γ : Type} (f : α → β) (g : β → γ) (e : Expr α) :
    (e.map f).map g = e.map (g ∘ f) := by
  induction e with
  | literal value span => rfl
  | negate operand span ih => simp [map, ih]
  | binary op left right span ihl ihr => simp [map, ihl, ihr]

@[simp] theorem map_withSpan (f : α → β) (span : Span) (e : Expr α) :
    (e.withSpan span).map f = (e.map f).withSpan span := by
  cases e <;> rfl

@[simp] theorem map_join (f : α → β) (op : Operator) (left right : Expr α) :
    (join op left right).map f = join op (left.map f) (right.map f) := by
  simp [join, map]

end Expr

end Calculator
