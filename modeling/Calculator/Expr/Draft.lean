import Calculator.Nesting

/-!
# Drafts of expressions

A draft is an expression as it is read from tokens.  A number token that was made by hand may lack
its value; the draft keeps the gap, and cannot be written down as far as it has one.

## Main definitions

* `Draft`, `Expr.draft` — expressions with gaps, and expressions as drafts without any.
* `Draft.complete` — the draft as an expression of numbers.
* `Draft.textWithin` — writing a draft, up to its first gap.

## Main results

* `Draft.complete_draft` — completing a draft without gaps changes nothing.
* `Draft.textWithin_draft` — a draft without gaps is written like the expression.
-/

namespace Calculator

/-- An expression in which numbers may lack their value. -/
abbrev Draft := Expr (Option Binary64)

/-- An expression as a draft without gaps. -/
def Expr.draft (e : Expr Binary64) : Draft := e.map some

/-- A number without a value. -/
structure Gap where
  /-- Where the number was written. -/
  span : Span
  deriving DecidableEq, Repr

namespace Draft

/-- The draft as an expression of numbers: without a value it is not a number. -/
def complete (d : Draft) : Expr Binary64 := d.map fun value => value.getD .nan

/-- The text of a draft or its first gap, as far as `room` allows. -/
def textWithin : Nat → Draft → Except (Halt Gap) String
  | 0, _ => .error .tooDeep
  | _ + 1, .literal (some value) _ => .ok value.display
  | _ + 1, .literal none span => .error (.fault ⟨span⟩)
  | room + 1, .negate operand _ => do
    let text ← textWithin room operand
    .ok (Expr.application "Neg" [text])
  | room + 1, .binary op left right _ => do
    let leftText ← textWithin room left
    let rightText ← textWithin room right
    .ok (Expr.application op.functionName [leftText, rightText])

@[simp] theorem complete_draft (e : Expr Binary64) : complete e.draft = e := by
  rw [complete, Expr.draft, Expr.map_map]
  exact Expr.map_id e

/-- A draft without gaps is written like the expression. -/
theorem textWithin_draft (room : Nat) (e : Expr Binary64) :
    textWithin room e.draft =
      match e.textWithin room with
      | some text => .ok text
      | none => .error .tooDeep := by
  unfold Expr.draft Expr.textWithin
  -- room and height go down together, one at each level
  induction e generalizing room with
  | literal value span => cases room <;> simp [Expr.map, textWithin, Expr.height, Expr.text]
  | negate operand span ih =>
    cases room with
    | zero => simp [textWithin, Expr.height]
    | succ room =>
      simp only [Expr.map, textWithin, ih room, Expr.height, Nat.add_le_add_iff_right]
      by_cases h : operand.height ≤ room <;> simp [h, bind, Except.bind, Expr.text]
  | binary op left right span ihl ihr =>
    cases room with
    | zero => simp [textWithin, Expr.height]
    | succ room =>
      simp only [Expr.map, textWithin, ihl room, ihr room, Expr.height, Nat.add_le_add_iff_right,
        Nat.max_le]
      -- the left operand is written first
      by_cases hl : left.height ≤ room
      · by_cases hr : right.height ≤ room <;> simp [hl, hr, bind, Except.bind, Expr.text]
      · simp [hl, bind, Except.bind]

end Draft

end Calculator
