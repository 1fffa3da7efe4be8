import Calculator.Proofs.Expr.Room

/-!
# The first fault of an expression

Faults aside, the operations of an expression give every node a number, from the literals up.  The
numbers of its operands tell whether a node has a fault of its own.  If no node has one, the number
of the expression is its value; otherwise evaluating fails with the fault of the first node that has
one, in the order in which the nodes are evaluated.  The numbers above a fault mean nothing, but
every node above comes later in that order, so that they are never asked.

## Main definitions

* `First` — the first element of a list with some property.
* `Operator.compute`, `Expr.number` — an operation and an expression with the faults left aside.
* `Expr.HasFault`, `Expr.Faulty` — the fault of a node, told from the numbers of its operands.
* `Expr.Outcome` — what evaluating an expression comes to, told from its nodes.

## Main results

* `Operator.apply_eq_error_iff`, `Operator.apply_eq_ok_iff` — one operation.
* `Expr.outcome_valueWithin` — what evaluating comes to, as far as there is room.
* `Expr.valueWithin_ne_tooDeep` — how much room is enough.
* `valueWithin_eq_iff_first_fault` — **the first node with a fault decides.**
-/

namespace Calculator

/-! ### First elements -/

/-- The first element of a list that has a property. -/
inductive First {α : Type} (P : α → Prop) : List α → α → Prop
  | here {a : α} {as : List α} (h : P a) : First P (a :: as) a
  | later {a b : α} {as : List α} (h : ¬ P b) (hlater : First P as a) : First P (b :: as) a

namespace First

variable {α : Type} {P : α → Prop} {as bs : List α} {a b : α}

theorem holds (h : First P as a) : P a := by
  induction h with
  | here h => exact h
  | later h hlater ih => exact ih

theorem mem (h : First P as a) : a ∈ as := by
  induction h with
  | here h => exact List.mem_cons_self
  | later h hlater ih => exact List.mem_cons_of_mem _ ih

theorem unique (h : First P as a) (h' : First P as b) : a = b := by
  induction h with
  | here h =>
    cases h' with
    | here h' => rfl
    | later h' hlater' => exact absurd h h'
  | later h hlater ih =>
    cases h' with
    | here h' => exact absurd h' h
    | later h' hlater' => exact ih hlater'

/-- The first element of two lists is that of the first list, unless it has none. -/
theorem append_iff :
    First P (as ++ bs) a ↔ First P as a ∨ (∀ b ∈ as, ¬ P b) ∧ First P bs a := by
  induction as with
  | nil =>
    constructor
    · intro h
      exact Or.inr ⟨by simp, h⟩
    · rintro (h | ⟨-, h⟩)
      · cases h
      · exact h
  | cons c as ih =>
    rw [List.cons_append, List.forall_mem_cons]
    constructor
    · intro h
      cases h with
      | here h => exact Or.inl (.here h)
      | later h hlater =>
        rcases ih.1 hlater with hlater | ⟨hnone, hlater⟩
        · exact Or.inl (.later h hlater)
        · exact Or.inr ⟨⟨h, hnone⟩, hlater⟩
    · rintro (h | ⟨⟨h, hnone⟩, hlater⟩)
      · cases h with
        | here h => exact .here h
        | later h hlater => exact .later h (ih.2 (Or.inl hlater))
      · exact .later h (ih.2 (Or.inr ⟨hnone, hlater⟩))

end First

/-- An operation by the rules of floating point alone, which give a number for any two numbers. -/
def Operator.compute : Operator → Binary64 → Binary64 → Binary64
  | add => Binary64.add
  | sub => Binary64.sub
  | mul => Binary64.mul
  | div => Binary64.div
  | pow => Binary64.pow

theorem Binary64.isZero_of_isNegative {x : Binary64} (h : x.isNegative = true) :
    x.isZero = false := by
  cases x with
  | nan => rfl
  | signed negative size =>
    simp only [isNegative, Bool.and_eq_true, bne_iff_ne] at h
    simpa [isZero] using h.2

theorem Operator.eq_compute_of_apply {op : Operator} {left right : Expr Binary64} {span : Span}
    {x y z : Binary64} (h : op.apply left right span x y = .ok z) : z = op.compute x y := by
  cases op with
  | add => exact (Except.ok.inj h).symm
  | sub => exact (Except.ok.inj h).symm
  | mul => exact (Except.ok.inj h).symm
  | div =>
    unfold apply at h
    dsimp only at h
    split at h
    · cases h
    · exact (Except.ok.inj h).symm
  | pow =>
    -- behind its guards the result is the power itself
    have hpower : powerOf (.binary .pow left right span) x y = .ok z := h
    unfold powerOf at hpower
    split at hpower
    · cases hpower
    · split at hpower
      · cases hpower
      · dsimp only at hpower
        split at hpower
        · cases hpower
        · exact (Except.ok.inj hpower).symm

namespace Expr

/-- The number that the operations of an expression give from the literals up, whether they have
faults or not. -/
def number : Expr Binary64 → Binary64
  | literal value _ => value
  | negate operand _ => operand.number.neg
  | binary op left right _ => op.compute left.number right.number

/-- The node has a fault of its own, told from the numbers of its operands. -/
inductive HasFault : Expr Binary64 → ArithmeticFault → Prop
  /-- The divisor is a zero of either sign; it is what is to blame. -/
  | zeroDivisor {left right : Expr Binary64} {span : Span} (hdivisor : right.number.isZero = true) :
      HasFault (binary .div left right span) (.zeroDivisor right)
  /-- The base is a zero of either sign and the exponent is below zero. -/
  | zeroToNegative {left right : Expr Binary64} {span : Span} (hbase : left.number.isZero = true)
      (hexponent : right.number.isNegative = true) :
      HasFault (binary .pow left right span) (.zeroToNegative (binary .pow left right span))
  /-- The base is below zero and the exponent is not a finite integer. -/
  | invalidPower {left right : Expr Binary64} {span : Span} (hbase : left.number.isNegative = true)
      (hexponent : right.number.whole? = none) :
      HasFault (binary .pow left right span)
        (.invalidPower (binary .pow left right span) left.number right.number)
  /-- Neither is the case, and the power of finite numbers is infinite. -/
  | overflow {left right : Expr Binary64} {span : Span}
      (hzero : ¬ (left.number.isZero = true ∧ right.number.isNegative = true))
      (hnegative : ¬ (left.number.isNegative = true ∧ right.number.whole? = none))
      (hbase : left.number.isFinite = true) (hexponent : right.number.isFinite = true)
      (hpower : (left.number.pow right.number).isInfinite = true) :
      HasFault (binary .pow left right span) (.overflow (binary .pow left right span))

/-- The node has a fault of its own. -/
def Faulty (e : Expr Binary64) : Prop := ∃ fault, e.HasFault fault

/-- The expression that the fault of a node is blamed on: the divisor of a quotient, and otherwise
the node itself. -/
def blamed : Expr Binary64 → Expr Binary64
  | binary .div _ right _ => right
  | e => e

theorem HasFault.located {e : Expr Binary64} {fault : ArithmeticFault} (h : e.HasFault fault) :
    fault.culprit = e.blamed ∧ fault.location = e.blamed.span.first := by
  cases h <;> exact ⟨rfl, rfl⟩

theorem not_faulty_literal (value : Binary64) (span : Span) : ¬ (literal value span).Faulty := by
  rintro ⟨fault, h⟩
  cases h

theorem not_faulty_negate (operand : Expr Binary64) (span : Span) :
    ¬ (negate operand span).Faulty := by
  rintro ⟨fault, h⟩
  cases h

end Expr

/-! ### One operation -/

section Operation

variable {op : Operator} {left right : Expr Binary64} {span : Span}

/-- An operation on the numbers of its operands fails exactly with the fault of the node. -/
theorem Operator.apply_eq_error_iff {fault : ArithmeticFault} :
    op.apply left right span left.number right.number = .error fault ↔
      (Expr.binary op left right span).HasFault fault := by
  constructor
  · intro h
    cases op with
    | add => cases h
    | sub => cases h
    | mul => cases h
    | div =>
      unfold apply at h
      dsimp only at h
      split at h
      · rename_i hdivisor
        cases h
        exact .zeroDivisor hdivisor
      · cases h
    | pow =>
      have hpower : powerOf (.binary .pow left right span) left.number right.number =
        .error fault := h
      -- the guards in their order: each fault records that those before it did not hold
      unfold powerOf at hpower
      simp only [Bool.and_eq_true, Option.isNone_iff_eq_none] at hpower
      split at hpower
      · rename_i hzero
        cases hpower
        exact .zeroToNegative hzero.1 hzero.2
      · rename_i hzero
        split at hpower
        · rename_i hnegative
          cases hpower
          exact .invalidPower hnegative.1 hnegative.2
        · rename_i hnegative
          split at hpower
          · rename_i hlarge
            cases hpower
            exact .overflow hzero hnegative hlarge.1.1 hlarge.1.2 hlarge.2
          · cases hpower
  · intro h
    cases h with
    | zeroDivisor hdivisor => exact if_pos hdivisor
    | zeroToNegative hbase hexponent =>
      show powerOf _ _ _ = _
      rw [powerOf, if_pos (by simp [hbase, hexponent])]
    | invalidPower hbase hexponent =>
      -- a negative base is not zero, so that it passes the first guard
      have hzero := Binary64.isZero_of_isNegative hbase
      show powerOf _ _ _ = _
      rw [powerOf, if_neg (by simp [hzero]), if_pos (by simp [hbase, hexponent])]
    | overflow hzero hnegative hbase hexponent hpower =>
      show powerOf _ _ _ = _
      rw [powerOf, if_neg (by simpa using hzero), if_neg (by simpa using hnegative)]
      exact if_pos (by simp [hbase, hexponent, hpower])

/-- An operation on the numbers of its operands has a value if the node has no fault, and the value
is the number of the node. -/
theorem Operator.apply_eq_ok_iff {x : Binary64} :
    op.apply left right span left.number right.number = .ok x ↔
      ¬ (Expr.binary op left right span).Faulty ∧ x = (Expr.binary op left right span).number := by
  constructor
  · intro h
    refine ⟨?_, eq_compute_of_apply h⟩
    rintro ⟨fault, hfault⟩
    rw [apply_eq_error_iff.2 hfault] at h
    cases h
  · rintro ⟨hsound, rfl⟩
    cases happly : op.apply left right span left.number right.number with
    | ok z => rw [eq_compute_of_apply happly, Expr.number]
    | error fault => exact absurd ⟨fault, apply_eq_error_iff.1 happly⟩ hsound

end Operation

/-! ### Whole expressions -/

namespace Expr

theorem HasFault.unique {e : Expr Binary64} {fault fault' : ArithmeticFault}
    (h : e.HasFault fault) (h' : e.HasFault fault') : fault = fault' := by
  cases e with
  | literal value span => exact absurd ⟨fault, h⟩ (not_faulty_literal value span)
  | negate operand span => exact absurd ⟨fault, h⟩ (not_faulty_negate operand span)
  | binary op left right span =>
    have happly := Operator.apply_eq_error_iff.2 h
    rw [Operator.apply_eq_error_iff.2 h'] at happly
    exact (Except.error.inj happly).symm

/-- What evaluating an expression comes to, told from its nodes. -/
inductive Outcome (e : Expr Binary64) : Except (Halt ArithmeticFault) Binary64 → Prop
  /-- No node has a fault. -/
  | value (h : ∀ n ∈ e.nodes, ¬ n.Faulty) : Outcome e (.ok e.number)
  /-- The first node that has a fault decides. -/
  | fault {n : Expr Binary64} {fault : ArithmeticFault} (hfirst : First Faulty e.nodes n)
      (hfault : n.HasFault fault) : Outcome e (.error (.fault fault))
  /-- There is too little room. -/
  | tooDeep : Outcome e (.error .tooDeep)

theorem Outcome.value_of_parts {e : Expr Binary64} (hparts : ∀ n ∈ e.parts, ¬ n.Faulty)
    (h : ¬ e.Faulty) : e.Outcome (.ok e.number) := by
  refine .value ?_
  intro n hn
  rcases mem_nodes.1 hn with hn | rfl
  · exact hparts n hn
  · exact h

/-- The first fault among the parts of an expression comes before one of its own. -/
theorem Outcome.fault_of_parts {e n : Expr Binary64} {fault : ArithmeticFault}
    (hfirst : First Faulty e.parts n) (hfault : n.HasFault fault) :
    e.Outcome (.error (.fault fault)) :=
  .fault (First.append_iff.2 (Or.inl hfirst)) hfault

/-- What an operation comes to when its operands have no fault. -/
theorem Outcome.apply {op : Operator} {left right : Expr Binary64} {span : Span}
    (hleft : ∀ n ∈ left.nodes, ¬ n.Faulty) (hright : ∀ n ∈ right.nodes, ¬ n.Faulty) :
    (binary op left right span).Outcome
      ((op.apply left right span left.number right.number).mapError .fault) := by
  have hparts : ∀ n ∈ (binary op left right span).parts, ¬ n.Faulty := by
    rw [parts_binary]
    intro n hn
    exact (List.mem_append.1 hn).elim (hleft n) (hright n)
  cases happly : op.apply left right span left.number right.number with
  | ok x =>
    obtain ⟨hsound, rfl⟩ := Operator.apply_eq_ok_iff.1 happly
    exact .value_of_parts hparts hsound
  | error fault =>
    have hfault := Operator.apply_eq_error_iff.1 happly
    exact .fault (First.append_iff.2 (Or.inr ⟨hparts, .here ⟨fault, hfault⟩⟩)) hfault

/-- **What evaluating an expression comes to**, however much room there is. -/
theorem outcome_valueWithin (room : Nat) (e : Expr Binary64) : e.Outcome (e.valueWithin room) := by
  induction e generalizing room with
  | literal value span =>
    rcases room with _ | _ | room
    · exact .tooDeep
    · exact .tooDeep
    · exact .value_of_parts (by simp [parts]) (not_faulty_literal value span)
  | negate operand span ih =>
    rcases room with _ | _ | room
    · exact .tooDeep
    · exact .tooDeep
    · rw [valueWithin]
      -- a negation has no fault of its own and passes on what its operand comes to
      have hoperand := ih room
      generalize operand.valueWithin room = x at hoperand
      cases hoperand with
      | value h => exact .value_of_parts h (not_faulty_negate operand span)
      | fault hfirst hfault => exact .fault_of_parts hfirst hfault
      | tooDeep => exact .tooDeep
  | binary op left right span ihl ihr =>
    rcases room with _ | _ | room
    · exact .tooDeep
    · exact .tooDeep
    · rw [valueWithin]
      have hleft := ihl room
      have hright := ihr room
      generalize left.valueWithin room = x at hleft
      generalize right.valueWithin room = y at hright
      -- the right operand is not looked at before the left one has its number
      cases hleft with
      | tooDeep => exact .tooDeep
      | fault hfirst hfault => exact .fault_of_parts (First.append_iff.2 (Or.inl hfirst)) hfault
      | value hleft =>
        cases hright with
        | tooDeep => exact .tooDeep
        | fault hfirst hfault =>
          exact .fault_of_parts (First.append_iff.2 (Or.inr ⟨hleft, hfirst⟩)) hfault
        | value hright => exact .apply hleft hright

theorem Outcome.eq_ok_iff {e : Expr Binary64} {result : Except (Halt ArithmeticFault) Binary64}
    (h : e.Outcome result) (hroom : result ≠ .error .tooDeep) {x : Binary64} :
    result = .ok x ↔ (∀ n ∈ e.nodes, ¬ n.Faulty) ∧ x = e.number := by
  cases h with
  | tooDeep => exact absurd rfl hroom
  | value hsound =>
    constructor
    · intro hx
      exact ⟨hsound, (Except.ok.inj hx).symm⟩
    · rintro ⟨-, rfl⟩
      rfl
  | fault hfirst hfault =>
    constructor
    · intro hx
      cases hx
    · rintro ⟨hsound, -⟩
      exact absurd hfirst.holds (hsound _ hfirst.mem)

theorem Outcome.eq_fault_iff {e : Expr Binary64} {result : Except (Halt ArithmeticFault) Binary64}
    (h : e.Outcome result) (hroom : result ≠ .error .tooDeep) {fault : ArithmeticFault} :
    result = .error (.fault fault) ↔ ∃ n, First Faulty e.nodes n ∧ n.HasFault fault := by
  cases h with
  | tooDeep => exact absurd rfl hroom
  | value hsound =>
    constructor
    · intro hx
      cases hx
    · rintro ⟨n, hfirst, -⟩
      exact absurd hfirst.holds (hsound n hfirst.mem)
  | fault hfirst hfault =>
    constructor
    · intro hx
      cases hx
      exact ⟨_, hfirst, hfault⟩
    · rintro ⟨n, hfirst', hfault'⟩
      obtain rfl := hfirst.unique hfirst'
      rw [hfault.unique hfault']

theorem valueWithin_ne_tooDeep {room : Nat} {e : Expr Binary64} (h : 2 * e.height ≤ room) :
    e.valueWithin room ≠ .error .tooDeep := by
  have hpos := height_pos e
  rcases room with _ | _ | room
  · omega
  · omega
  intro hdeep
  -- on the expression, with the room general: it goes down by two where the height goes down by one
  induction e generalizing room with
  | literal value span => cases hdeep
  | negate operand span ih =>
    rw [height] at h
    have hpos := height_pos operand
    obtain ⟨room, rfl⟩ := Nat.exists_eq_add_of_le' (show 2 ≤ room by omega)
    rcases eq_error_or_of_bind_eq_error hdeep with hoperand | ⟨x, -, hx⟩
    · exact ih hpos room (by omega) hoperand
    · cases hx
  | binary op left right span ihl ihr =>
    rw [height] at h
    have hleft := height_pos left
    have hright := height_pos right
    obtain ⟨room, rfl⟩ := Nat.exists_eq_add_of_le' (show 2 ≤ room by omega)
    rcases eq_error_or_of_bind_eq_error hdeep with hdeep | ⟨x, -, hdeep⟩
    · exact ihl hleft room (by omega) hdeep
    · rcases eq_error_or_of_bind_eq_error hdeep with hdeep | ⟨y, -, hdeep⟩
      · exact ihr hright room (by omega) hdeep
      · -- an operation on two numbers needs no room
        cases happly : op.apply left right span x y with
        | ok z => rw [happly] at hdeep; cases hdeep
        | error fault => rw [happly] at hdeep; cases hdeep

end Expr

/-- **The first node with a fault decides.**  Where there is room enough, an expression evaluates to
its number if no node has a fault, and otherwise fails with the fault of the first node that has
one, whatever the nodes behind it look like.  Nothing but its height keeps an expression from being
evaluated, and a fault is located at what it is blamed on. -/
theorem valueWithin_eq_iff_first_fault (room : Nat) (e : Expr Binary64) :
    (2 * e.height ≤ room → e.valueWithin room ≠ .error .tooDeep) ∧
      (e.valueWithin room ≠ .error .tooDeep →
        (∀ x, e.valueWithin room = .ok x ↔ (∀ n ∈ e.nodes, ¬ n.Faulty) ∧ x = e.number) ∧
          ∀ fault, e.valueWithin room = .error (.fault fault) ↔
            ∃ n, First Expr.Faulty e.nodes n ∧ n.HasFault fault) ∧
      ∀ (n : Expr Binary64) (fault : ArithmeticFault), n.HasFault fault →
        fault.culprit = n.blamed ∧ fault.location = n.blamed.span.first := by
  refine ⟨Expr.valueWithin_ne_tooDeep, ?_, fun _ _ h => h.located⟩
  intro hroom
  have houtcome := e.outcome_valueWithin room
  exact ⟨fun _ => houtcome.eq_ok_iff hroom, fun _ => houtcome.eq_fault_iff hroom⟩

end Calculator
