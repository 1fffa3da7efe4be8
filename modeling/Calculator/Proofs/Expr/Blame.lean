import Calculator.Proofs.Depth.Hidden
import Calculator.Proofs.Expr.Places
import Calculator.Proofs.Grammar.Viability

/-!
# Where a fault comes from

The fault of an expression is that of one of its operations, whose operands have values.  What the
fault blames is a node of the expression, and shows on its own what is wrong: a divisor has the
value zero, and every other operation has the same fault again.

## Main definitions

* `ArithmeticFault.moved` — the fault of an expression in other places.
* `ArithmeticFault.Shown` — the expression that is to blame shows the fault on its own.

## Main results

* `Expr.valueWithin_of_le` — a value stays the same if there is more room.
* `Expr.valueWithin_moved` — places take no part in the value of an expression.
* `Expr.exists_operation_of_fault` — a fault is that of an operation on values.
* `ArithmeticFault.shown_of_value` — **what a fault blames shows it on its own.**
-/

namespace Calculator

/-! ### Places and values -/

/-- The fault of an expression in other places. -/
def ArithmeticFault.moved (g : Location → Location) : ArithmeticFault → ArithmeticFault
  | zeroDivisor divisor => zeroDivisor (divisor.moved g)
  | zeroToNegative power => zeroToNegative (power.moved g)
  | invalidPower power base exponent => invalidPower (power.moved g) base exponent
  | overflow power => overflow (power.moved g)

@[simp] theorem ArithmeticFault.culprit_moved (g : Location → Location) (f : ArithmeticFault) :
    (f.moved g).culprit = f.culprit.moved g := by
  cases f <;> rfl

@[simp] theorem ArithmeticFault.code_moved (g : Location → Location) (f : ArithmeticFault) :
    (f.moved g).code = f.code := by
  cases f <;> rfl

@[simp] theorem ArithmeticFault.message_moved (g : Location → Location) (f : ArithmeticFault) :
    (f.moved g).message = f.message := by
  cases f <;> rfl

@[simp] theorem ArithmeticFault.location_moved (g : Location → Location) (f : ArithmeticFault) :
    (f.moved g).location = g f.location := by
  rw [location, culprit_moved, Expr.span_moved]
  rfl

theorem powerOf_moved (g : Location → Location) (power : Expr Binary64) (x y : Binary64) :
    powerOf (power.moved g) x y = (powerOf power x y).mapError (ArithmeticFault.moved g) := by
  unfold powerOf
  split
  · rfl
  · split
    · rfl
    · dsimp only
      split <;> rfl

/-- An operation in another place has the same value, or the same fault in that place. -/
theorem Operator.apply_moved (g : Location → Location) (op : Operator) (left right : Expr Binary64)
    (span : Span) (x y : Binary64) :
    op.apply (left.moved g) (right.moved g) (span.moved g) x y =
      (op.apply left right span x y).mapError (ArithmeticFault.moved g) := by
  cases op with
  | add => rfl
  | sub => rfl
  | mul => rfl
  | div =>
    unfold apply
    dsimp only
    split <;> rfl
  | pow => exact powerOf_moved g (.binary .pow left right span) x y

namespace Expr

/-- **Places take no part in the value of an expression.** -/
theorem valueWithin_moved (g : Location → Location) (room : Nat) (e : Expr Binary64) :
    (e.moved g).valueWithin room =
      (e.valueWithin room).mapError (Halt.map (ArithmeticFault.moved g)) := by
  induction e generalizing room with
  | literal value span => rcases room with _ | _ | room <;> rfl
  | negate operand span ih =>
    rcases room with _ | _ | room
    · rfl
    · rfl
    · rw [moved, valueWithin, valueWithin, ih room]
      cases operand.valueWithin room <;> rfl
  | binary op left right span ihl ihr =>
    rcases room with _ | _ | room
    · rfl
    · rfl
    · rw [moved, valueWithin, valueWithin, ihl room, ihr room]
      -- the operands come first, and what is left is the fault of the operation in its place
      cases left.valueWithin room with
      | error halt => rfl
      | ok x =>
        cases right.valueWithin room with
        | error halt => rfl
        | ok y =>
          show (op.apply _ _ _ x y).mapError Halt.fault = _
          rw [Operator.apply_moved]
          show _ = ((op.apply left right span x y).mapError Halt.fault).mapError _
          cases op.apply left right span x y <;> rfl

/-! ### Room -/

theorem valueWithin_of_le {room room' : Nat} {e : Expr Binary64} {x : Binary64}
    (h : e.valueWithin room = .ok x) (hle : room ≤ room') : e.valueWithin room' = .ok x := by
  -- on the expression: both rooms go down by two with each level, so that they keep their order
  induction e generalizing room room' x with
  | literal value span =>
    obtain ⟨rest, rfl⟩ := exists_room_of_valueWithin h
    obtain ⟨rest', rfl⟩ : ∃ rest', room' = rest' + 2 := ⟨room' - 2, by omega⟩
    exact h
  | negate operand span ih =>
    obtain ⟨rest, rfl⟩ := exists_room_of_valueWithin h
    obtain ⟨rest', rfl⟩ : ∃ rest', room' = rest' + 2 := ⟨room' - 2, by omega⟩
    obtain ⟨y, hy, hx⟩ := exists_of_bind_eq_ok h
    have hy' : operand.valueWithin rest' = .ok y := ih hy (by omega)
    rw [valueWithin, hy']
    exact hx
  | binary op left right span ihl ihr =>
    obtain ⟨rest, rfl⟩ := exists_room_of_valueWithin h
    obtain ⟨rest', rfl⟩ : ∃ rest', room' = rest' + 2 := ⟨room' - 2, by omega⟩
    obtain ⟨y, hy, hrest⟩ := exists_of_bind_eq_ok h
    obtain ⟨z, hz, hx⟩ := exists_of_bind_eq_ok hrest
    have hy' : left.valueWithin rest' = .ok y := ihl hy (by omega)
    have hz' : right.valueWithin rest' = .ok z := ihr hz (by omega)
    rw [valueWithin, hy', hz']
    exact hx

/-! ### Faults -/

/-- **A fault is that of an operation on values**, which is a node of the expression. -/
theorem exists_operation_of_fault {room : Nat} {e : Expr Binary64} {fault : ArithmeticFault}
    (h : e.valueWithin room = .error (.fault fault)) :
    ∃ op left right span x y rest, binary op left right span ∈ e.nodes ∧ rest + 2 ≤ room ∧
      left.valueWithin rest = .ok x ∧ right.valueWithin rest = .ok y ∧
        op.apply left right span x y = .error fault := by
  induction e generalizing room with
  | literal value span => rcases room with _ | _ | room <;> cases h
  | negate operand span ih =>
    rcases room with _ | _ | room
    · cases h
    · cases h
    · rcases eq_error_or_of_bind_eq_error h with hoperand | ⟨x, -, hx⟩
      · obtain ⟨op, left, right, span', x, y, rest, hmem, hrest, hvalues⟩ := ih hoperand
        exact ⟨op, left, right, span', x, y, rest, mem_nodes.2 (Or.inl hmem), by omega, hvalues⟩
      · cases hx
  | binary op left right span ihl ihr =>
    rcases room with _ | _ | room
    · cases h
    · cases h
    · -- the fault is one of the left operand, one of the right operand, or that of the operation
      rcases eq_error_or_of_bind_eq_error h with hleft | ⟨x, hx, h⟩
      · obtain ⟨op', left', right', span', x, y, rest, hmem, hrest, hvalues⟩ := ihl hleft
        exact ⟨op', left', right', span', x, y, rest,
          mem_nodes.2 (Or.inl (List.mem_append_left _ hmem)), by omega, hvalues⟩
      · rcases eq_error_or_of_bind_eq_error h with hright | ⟨y, hy, h⟩
        · obtain ⟨op', left', right', span', x, y, rest, hmem, hrest, hvalues⟩ := ihr hright
          exact ⟨op', left', right', span', x, y, rest,
            mem_nodes.2 (Or.inl (List.mem_append_right _ hmem)), by omega, hvalues⟩
        · -- the operands have values, and the operation on them is at fault
          refine ⟨op, left, right, span, x, y, room, mem_nodes.2 (Or.inr rfl), Nat.le_refl _, hx,
            hy, ?_⟩
          cases happly : op.apply left right span x y with
          | ok z => rw [happly] at h; cases h
          | error fault' =>
            rw [happly] at h
            cases h
            rfl

end Expr

namespace ArithmeticFault

/-- The expression that is to blame shows on its own what is wrong: a divisor is zero, and every
other operation has the fault again. -/
def Shown (f : ArithmeticFault) : Prop :=
  match f with
  | zeroDivisor divisor => ∃ x, divisor.value = .ok x ∧ x.isZero = true
  | f => f.culprit.value = .error (.fault f)

end ArithmeticFault

/-- What a power blames is the whole power, for anything but a divisor. -/
theorem culprit_of_powerOf {power : Expr Binary64} {x y : Binary64} {fault : ArithmeticFault}
    (h : powerOf power x y = .error fault) :
    fault.culprit = power ∧ (fault.Shown ↔ power.value = .error (.fault fault)) := by
  unfold powerOf at h
  split at h
  · cases h
    exact ⟨rfl, Iff.rfl⟩
  · split at h
    · cases h
      exact ⟨rfl, Iff.rfl⟩
    · dsimp only at h
      split at h
      · cases h
        exact ⟨rfl, Iff.rfl⟩
      · cases h

/-- **What a fault blames shows it on its own**: it is a node of the expression and not too deep. -/
theorem ArithmeticFault.shown_of_value {e : Expr Binary64} {fault : ArithmeticFault}
    (h : e.value = .error (.fault fault)) :
    fault.culprit ∈ e.nodes ∧ fault.Shown ∧ fault.culprit.height ≤ allowance := by
  obtain ⟨op, left, right, span, x, y, rest, hmem, hrest, hx, hy, hfault⟩ :=
    Expr.exists_operation_of_fault h
  cases op with
  | add => cases hfault
  | sub => cases hfault
  | mul => cases hfault
  | div =>
    rw [Operator.apply] at hfault
    split at hfault
    · rename_i hzero
      cases hfault
      -- the divisor had its value with less room than there is
      have hvalue : right.value = .ok y := Expr.valueWithin_of_le hy (by omega)
      refine ⟨Expr.mem_nodes_trans ?_ hmem, ⟨y, hvalue, hzero⟩, Expr.height_le_of_value hvalue⟩
      simp [culprit]
    · cases hfault
  | pow =>
    obtain ⟨hculprit, hshown⟩ := culprit_of_powerOf hfault
    rw [hculprit, hshown]
    refine ⟨hmem, ?_, ?_⟩
    · -- with all the room the operands have the same values
      obtain ⟨room, hroom⟩ : ∃ room, allowance = room + 2 := ⟨998, rfl⟩
      have hx' : left.valueWithin room = .ok x := Expr.valueWithin_of_le hx (by omega)
      have hy' : right.valueWithin room = .ok y := Expr.valueWithin_of_le hy (by omega)
      rw [Expr.value, hroom, Expr.valueWithin, hx', hy']
      show (Operator.apply _ _ _ _ _ _).mapError Halt.fault = _
      rw [hfault]
      rfl
    · -- both operands have values, so that neither is too deep
      have hleft := Expr.height_le_of_valueWithin hx
      have hright := Expr.height_le_of_valueWithin hy
      rw [Expr.height]
      omega

end Calculator
