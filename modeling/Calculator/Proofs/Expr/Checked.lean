import Calculator.Proofs.Depth.Hidden

/-!
# Operations that can be misused

Most steps of a calculation are made for some arguments only: a character is looked at where there
is one, a number token has a value, a divisor is not zero, a power exists and is not too large.
Here such a step is an operation that tells when it is misused, and an expression is evaluated with
these operations, behind the same questions that are asked of its operands anyway.

## Main definitions

* `Breach` — how an operation is misused.
* `Binary64.checkedDiv`, `Binary64.checkedPow` — the operations that are not made for all numbers.
* `checkedPowerOf`, `Operator.checkedApply`, `Draft.checkedWithin` — evaluating with them.

## Main results

* `Binary64.pow_ne_nan`, `Binary64.isNegative_of_pow` — when a power does not exist.
* `checkedPowerOf_eq`, `Operator.checkedApply_eq` — the questions keep an operation from misuse.
* `Draft.checkedWithin_draft` — **evaluating an expression misuses no operation.**
-/

namespace Calculator

/-- How an operation is misused. -/
inductive Breach
  /-- A character is looked at behind the end of the text. -/
  | noCharacter
  /-- Something is taken for a numeral that is none. -/
  | noNumeral
  /-- A scan takes more turns than the text has characters. -/
  | noProgress
  /-- A token is looked at behind the end of the list. -/
  | noToken
  /-- A number is used that has no value. -/
  | noValue
  /-- A number is divided by zero. -/
  | zeroDivisor
  /-- A power of finite numbers is taken that does not exist. -/
  | noPower
  /-- A power of finite numbers is taken that is too large. -/
  | hugePower
  deriving DecidableEq, Repr

/-! ### Numbers -/

namespace Binary64

/-- The quotient, for a divisor that is not zero. -/
def checkedDiv (x y : Binary64) : Except Breach Binary64 :=
  if y.isZero then .error .zeroDivisor else .ok (x.div y)

/-- The power.  Between finite numbers it has to exist, where zero has no infinite power, and must
not be too large. -/
def checkedPow (x y : Binary64) : Except Breach Binary64 :=
  let result := x.pow y
  if x.isFinite && y.isFinite then
    if result = nan ∨ (x.isZero = true ∧ result.isInfinite = true) then .error .noPower
    else if result.isInfinite then .error .hugePower
    else .ok result
  else .ok result

/-- Finite numbers have a power unless the base is negative and the exponent is not whole. -/
theorem pow_ne_nan {x y : Binary64} (hx : x.isFinite = true) (hy : y.isFinite = true)
    (h : ¬ (x.isNegative = true ∧ y.whole?.isNone = true)) : x.pow y ≠ nan := by
  cases x with
  | nan => cases hx
  | signed s a =>
    cases y with
    | nan => cases hy
    | signed t b =>
      unfold pow
      split
      · intro hone
        cases hone
      · dsimp only
        split
        · -- only one branch is not a number, and it is the excluded one
          rename_i hcond
          simp only [Bool.and_eq_true] at hcond
          exact absurd ⟨hcond.1.1.1, hcond.2⟩ h
        · intro hsigned
          cases hsigned

theorem isInfinite_one : one.isInfinite = false := by decide

/-- Zero has an infinite power only for a negative exponent. -/
theorem isNegative_of_pow {x y : Binary64} (hx : x.isZero = true)
    (h : (x.pow y).isInfinite = true) : y.isNegative = true := by
  -- whatever is raised to zero is one
  by_cases hy : y.isZero = true
  · rw [pow_of_isZero hy, isInfinite_one] at h
    cases h
  cases x with
  | nan => cases hx
  | signed s a =>
    have hrank : a.rank = 0 := by simpa [isZero] using hx
    obtain rfl : a = .zero := Magnitude.rank_injective hrank
    have hone : signed s .zero ≠ one := by
      intro heq
      exact absurd (signed.inj heq).2 (by decide)
    cases y with
    | nan => simp [pow, hone, isZero, isInfinite] at h
    | signed t b =>
      -- the size of the power is infinite for a negative sign only
      have hbase : (signed s .zero).isNegative = false := by simp [isNegative, hrank]
      have hsize : (powerSize .zero t b).rank = infinityRank := by
        simpa [pow, hone, hy, hbase, isInfinite] using h
      have ht : t = true := by
        cases t with
        | true => rfl
        | false =>
          have hzero : powerSize .zero false b = .zero := by simp [powerSize]
          rw [hzero] at hsize
          exact absurd hsize (by decide)
      simpa [isNegative, isZero, ht] using hy

end Binary64

/-- The power of two numbers, or the fault: a power that is too large is one, and every other misuse
is excluded before. -/
def checkedPowerOf (power : Expr Binary64) (base exponent : Binary64) :
    Except (Breach ⊕ ArithmeticFault) Binary64 :=
  if base.isZero && exponent.isNegative then .error (.inr (.zeroToNegative power))
  else if base.isNegative && exponent.whole?.isNone then
    .error (.inr (.invalidPower power base exponent))
  else
    match base.checkedPow exponent with
    | .ok result => .ok result
    | .error .hugePower => .error (.inr (.overflow power))
    | .error breach => .error (.inl breach)

/-- **What is asked of base and exponent keeps a power from misuse.** -/
theorem checkedPowerOf_eq (power : Expr Binary64) (base exponent : Binary64) :
    checkedPowerOf power base exponent = (powerOf power base exponent).mapError .inr := by
  unfold checkedPowerOf powerOf
  split
  · rfl
  · rename_i hzero
    split
    · rfl
    · rename_i hnegative
      rw [Bool.and_eq_true] at hzero hnegative
      unfold Binary64.checkedPow
      dsimp only
      by_cases hfinite : (base.isFinite && exponent.isFinite) = true
      · obtain ⟨hbase, hexponent⟩ := Bool.and_eq_true_iff.1 hfinite
        -- both questions have been answered with no, which leaves a power that exists
        have hexists : ¬ (base.pow exponent = .nan ∨
            (base.isZero = true ∧ (base.pow exponent).isInfinite = true)) := by
          rintro (hnan | ⟨hbasezero, hinfinite⟩)
          · exact Binary64.pow_ne_nan hbase hexponent hnegative hnan
          · exact hzero ⟨hbasezero, Binary64.isNegative_of_pow hbasezero hinfinite⟩
        rw [if_pos hfinite, if_neg hexists, hfinite, Bool.true_and]
        by_cases hinfinite : (base.pow exponent).isInfinite = true
        · rw [if_pos hinfinite, if_pos hinfinite]
          rfl
        · rw [if_neg hinfinite, if_neg hinfinite]
          rfl
      · -- unless both numbers are finite nothing is asked of the power
        rw [if_neg hfinite, if_neg (by simp [hfinite])]
        rfl

/-- An operation on two values, or the fault. -/
def Operator.checkedApply (op : Operator) (left right : Expr Binary64) (span : Span)
    (x y : Binary64) : Except (Breach ⊕ ArithmeticFault) Binary64 :=
  match op with
  | .add => .ok (x.add y)
  | .sub => .ok (x.sub y)
  | .mul => .ok (x.mul y)
  | .div => if y.isZero then .error (.inr (.zeroDivisor right)) else (x.checkedDiv y).mapError .inl
  | .pow => checkedPowerOf (.binary op left right span) x y

theorem Operator.checkedApply_eq (op : Operator) (left right : Expr Binary64) (span : Span)
    (x y : Binary64) :
    op.checkedApply left right span x y = (op.apply left right span x y).mapError .inr := by
  cases op with
  | add => rfl
  | sub => rfl
  | mul => rfl
  | div =>
    unfold checkedApply apply Binary64.checkedDiv
    dsimp only
    by_cases hy : y.isZero = true
    · rw [if_pos hy, if_pos hy]
      rfl
    · rw [if_neg hy, if_neg hy, if_neg hy]
      rfl
  | pow => exact checkedPowerOf_eq (.binary .pow left right span) x y

/-! ### Expressions -/

namespace Draft

/-- The value of a draft or its first fault, as far as `room` allows, where every number is used. -/
def checkedWithin : Nat → Draft → Except (Halt (Breach ⊕ ArithmeticFault)) Binary64
  | 0, _ => .error .tooDeep
  | 1, _ => .error .tooDeep
  | _ + 2, .literal (some value) _ => .ok value
  | _ + 2, .literal none _ => .error (.fault (.inl .noValue))
  | room + 2, .negate operand _ => do
    let x ← checkedWithin room operand
    .ok x.neg
  | room + 2, .binary op left right span => do
    let x ← checkedWithin room left
    let y ← checkedWithin room right
    (op.checkedApply (complete left) (complete right) span x y).mapError .fault

/-- **Evaluating an expression misuses no operation.** -/
theorem checkedWithin_draft (room : Nat) (e : Expr Binary64) :
    checkedWithin room e.draft = (e.valueWithin room).mapError (Halt.map .inr) := by
  -- a draft that comes from an expression has a value at every literal
  induction e generalizing room with
  | literal value span => rcases room with _ | _ | room <;> rfl
  | negate operand span ih =>
    rcases room with _ | _ | room
    · rfl
    · rfl
    · rw [Expr.valueWithin, Expr.draft, Expr.map, checkedWithin]
      rw [← Expr.draft, ih room]
      cases operand.valueWithin room <;> rfl
  | binary op left right span ihl ihr =>
    rcases room with _ | _ | room
    · rfl
    · rfl
    · rw [Expr.valueWithin, Expr.draft, Expr.map, checkedWithin]
      rw [← Expr.draft, ← Expr.draft, ihl room, ihr room, complete_draft, complete_draft]
      cases left.valueWithin room with
      | error halt => rfl
      | ok x =>
        cases right.valueWithin room with
        | error halt => rfl
        | ok y =>
          show (op.checkedApply left right span x y).mapError Halt.fault = _
          rw [Operator.checkedApply_eq]
          show _ = ((op.apply left right span x y).mapError Halt.fault).mapError _
          cases op.apply left right span x y <;> rfl

end Draft

end Calculator
