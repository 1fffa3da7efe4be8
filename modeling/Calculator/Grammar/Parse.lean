import Calculator.Expr.Draft
import Calculator.Grammar.Fault

/-!
# Parsing

An expression is read by the rules

* *expression*: terms with `+` and `-` between them,
* *term*: powers with `*` and `/` between them,
* *power*: unaries with `^` between them,
* *unary*: `-` and a unary, or a primary,
* *primary*: a number, or an expression in parentheses.

All operators associate to the left.  Each rule looks at one token only to decide what to do and
never goes back, so that what it leaves unread tells how far it has come, whether it succeeds or
not.  Parsing spends one of the allowance on a minus sign and six on a parenthesis.

The rules work on the tokens in front of the end of the text, which is where the list ends.

## Main definitions

* `Refusal`, `Reading` — what a rule gives: an expression or a reason, with the unread tokens.
* `level` — the rule for operands with operators of one precedence between them.
* `unary`, `primary`, `grouping`, `power`, `term`, `expression` — the rules.
* `wholeExpression` — an expression that leaves nothing unread.

## Main results

* `unary_minus`, `unary_of_ne` — what the first token decides about a unary.
-/

namespace Calculator

/-- Why a rule refuses the tokens it meets. -/
inductive Refusal.Cause
  /-- A number or an opening parenthesis is expected. -/
  | operandExpected
  /-- The parenthesis that this token opens is not closed. -/
  | unclosed (opener : Token)
  /-- The expression is over and tokens are left. -/
  | trailing
  deriving DecidableEq, Repr

/-- A refusal: its cause, and the tokens from the one that was refused on. -/
structure Refusal where
  cause : Refusal.Cause
  rest : List Token
  deriving DecidableEq, Repr

/-- What a rule gives: an expression and the tokens after it, or why there is none. -/
abbrev Reading := Except (Halt Refusal) (Draft × List Token)

/-- A rule reads an expression from the beginning of some tokens. -/
abbrev Rule := List Token → Reading

/-- The refusal of the first of some tokens. -/
def refuse (cause : Refusal.Cause) (rest : List Token) : Reading := .error (.fault ⟨cause, rest⟩)

/-- A precedence: which kinds of tokens are operators of it. -/
abbrev Precedence := Token.Kind → Option Operator

namespace Precedence

/-- The operators between terms. -/
def additive : Precedence
  | .plus => some .add
  | .minus => some .sub
  | _ => none

/-- The operators between powers. -/
def multiplicative : Precedence
  | .star => some .mul
  | .slash => some .div
  | _ => none

/-- The operator between unaries. -/
def raising : Precedence
  | .caret => some .pow
  | _ => none

end Precedence

/-- The operator of the given precedence at the beginning of some tokens. -/
def operator? (precedence : Precedence) : List Token → Option (Operator × List Token)
  | [] => none
  | t :: rest => (precedence t.kind).map fun op => (op, rest)

/-- Goes on after a left operand as long as an operator and another operand follow, at most once for
every token of `bound`. -/
def chain (precedence : Precedence) (operand : Rule) : (bound : List Token) → Draft → Rule
  | [], left, ts => .ok (left, ts)
  | _ :: bound, left, ts =>
    match operator? precedence ts with
    | none => .ok (left, ts)
    | some (op, afterOp) => do
      let (right, rest) ← operand afterOp
      chain precedence operand bound (.join op left right) rest

/-- Operands with operators of one precedence between them.  The tokens after the first operand
bound the number of operators. -/
def level (precedence : Precedence) (operand : Rule) : Rule := fun ts => do
  let (left, rest) ← operand ts
  chain precedence operand rest left rest

/-- An expression whose unaries are read by the given rule. -/
def expressionOver (unary : Rule) : Rule :=
  level .additive (level .multiplicative (level .raising unary))

/-- The rest of a group after its opener: an expression and the closing parenthesis.  The expression
gets the span of the whole group. -/
def group (expression : Rule) (opener : Token) : Rule := fun ts => do
  let (e, rest) ← expression ts
  match rest with
  | closer :: after =>
    if closer.kind = .rightParen then .ok (e.withSpan ⟨opener.location, closer.location⟩, after)
    else refuse (.unclosed opener) rest
  | [] => refuse (.unclosed opener) rest

/-- A number, or a group that the given rule reads after its opener. -/
def primaryOver (group : Token → Rule) : Rule
  | [] => refuse .operandExpected []
  | t :: rest =>
    match t.kind with
    | .number => .ok (.literal t.value ⟨t.location, t.location⟩, rest)
    | .leftParen => group t rest
    | _ => refuse .operandExpected (t :: rest)

/-- A negation of what was read after a minus sign. -/
def negated (sign : Token) : Draft × List Token → Draft × List Token
  | (operand, rest) => (.negate operand ⟨sign.location, operand.span.last⟩, rest)

/-- *unary*, as far as `room` allows. -/
def unary : Nat → Rule
  | _, [] => refuse .operandExpected []
  | room, t :: rest =>
    if t.kind = .minus then
      match room with
      | 0 => .error .tooDeep
      | room + 1 => (unary room rest).map (negated t)
    else
      primaryOver
        (match room with
          | room + 6 => group (expressionOver (unary room))
          | _ => fun _ _ => .error .tooDeep)
        (t :: rest)

/-- *expression*, as far as `room` allows. -/
def expression (room : Nat) : Rule := expressionOver (unary room)

/-- *term*, as far as `room` allows. -/
def term (room : Nat) : Rule := level .multiplicative (level .raising (unary room))

/-- *power*, as far as `room` allows. -/
def power (room : Nat) : Rule := level .raising (unary room)

/-- The rest of a group after its opener, as far as `room` allows. -/
def groupWithin : Nat → Token → Rule
  | room + 6 => group (expression room)
  | _ => fun _ _ => .error .tooDeep

/-- *primary*, as far as `room` allows. -/
def primary (room : Nat) : Rule := primaryOver (groupWithin room)

/-- A group whose first token is its opener, whatever it is. -/
def grouping (room : Nat) : Rule
  | [] => expression room []
  | opener :: rest => groupWithin room opener rest

/-- An expression that leaves no token unread. -/
def wholeExpression (room : Nat) : Rule := fun ts => do
  let (e, rest) ← expression room ts
  match rest with
  | [] => .ok (e, rest)
  | _ => refuse .trailing rest

theorem unary_minus {t : Token} (h : t.kind = .minus) (room : Nat) (rest : List Token) :
    unary (room + 1) (t :: rest) = (unary room rest).map (negated t) := by
  simp [unary, h]

theorem unary_of_ne {t : Token} (h : t.kind ≠ .minus) (room : Nat) (rest : List Token) :
    unary room (t :: rest) = primary room (t :: rest) := by
  -- `primary` is what `unary` goes on with, with its group as a function of the room
  rw [unary.eq_def]
  simp only [h, if_false, primary]
  congr 1

end Calculator
