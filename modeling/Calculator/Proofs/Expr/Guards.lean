import Calculator.Proofs.Expr.Checked
import Calculator.Proofs.Expr.FirstFault

/-!
# Which powers are misused

Two questions are asked of base and exponent before a power is taken.  Among finite numbers they
catch the powers that do not exist, and no others: zero with a negative exponent, and a negative
base with an exponent that is not whole.  The powers that are left are too large at most, and that
is a fault.  So an expression has a value, or an arithmetic fault, or is too deep, whatever numbers
its literals are: no division and no power in it is ever misused.

## Main results

* `Binary64.checkedPow_eq_noPower_iff` — which powers do not exist.
* `evaluation_misuses_nothing` — **what comes out of an expression.**
-/

namespace Calculator

namespace Binary64

theorem eq_zero_of_isZero {negative : Bool} {size : Magnitude}
    (h : (signed negative size).isZero = true) : size = .zero := by
  have hrank : size.rank = 0 := by simpa [isZero] using h
  exact Magnitude.rank_injective hrank

theorem isZero_of_whole? {x : Binary64} (h : x.whole? = none) : x.isZero = false := by
  cases x with
  | nan => rfl
  | signed negative size =>
    refine Bool.eq_false_iff.2 fun hzero => ?_
    obtain rfl := eq_zero_of_isZero hzero
    have hwhole : (signed negative .zero).whole? = some (if negative then -0 else 0) := by
      cases negative <;> rfl
    rw [hwhole] at h
    cases h

theorem ne_one_of_isZero {x : Binary64} (h : x.isZero = true) : x ≠ one := by
  rintro rfl
  cases h

theorem ne_one_of_isNegative {x : Binary64} (h : x.isNegative = true) : x ≠ one := by
  rintro rfl
  cases h

theorem isInfinite_pow {x y : Binary64} (hx : x.isZero = true) (hy : y.isNegative = true) :
    (x.pow y).isInfinite = true := by
  -- a zero of either sign is neither one nor below zero, which leaves the size of the power
  have hone := ne_one_of_isZero hx
  have hyzero := isZero_of_isNegative hy
  have hbase : x.isNegative = false := by
    refine Bool.eq_false_iff.2 fun hneg => ?_
    rw [isZero_of_isNegative hneg] at hx
    cases hx
  cases x with
  | nan => cases hx
  | signed s a =>
    cases y with
    | nan => cases hy
    | signed t b =>
      obtain rfl := eq_zero_of_isZero hx
      obtain rfl : t = true := by
        rw [isNegative, Bool.and_eq_true] at hy
        exact hy.1
      simp [pow, hone, hyzero, hbase, powerSize, isInfinite, Magnitude.infinity,
        Magnitude.rank_ofRank_of_le]

/-- A finite negative number has no power for a finite exponent that is not whole. -/
theorem pow_eq_nan {x y : Binary64} (hx : x.isFinite = true) (hy : y.isFinite = true)
    (hbase : x.isNegative = true) (hexponent : y.whole? = none) : x.pow y = nan := by
  have hone := ne_one_of_isNegative hbase
  have hyzero := isZero_of_whole? hexponent
  cases x with
  | nan => cases hx
  | signed s a =>
    cases y with
    | nan => cases hy
    | signed t b =>
      rw [isFinite] at hx hy
      simp [pow, hone, hyzero, hbase, hexponent, hx, hy]

/-- **A power of finite numbers does not exist** exactly if zero is raised to a negative power, or a
negative number to one that is not whole. -/
theorem checkedPow_eq_noPower_iff {x y : Binary64} :
    x.checkedPow y = .error .noPower ↔ x.isFinite = true ∧ y.isFinite = true ∧
      (x.isZero = true ∧ y.isNegative = true ∨ x.isNegative = true ∧ y.whole? = none) := by
  constructor
  · intro h
    unfold checkedPow at h
    dsimp only at h
    split at h
    · rename_i hfinite
      obtain ⟨hx, hy⟩ := Bool.and_eq_true_iff.1 hfinite
      split at h
      · rename_i hpower
        refine ⟨hx, hy, ?_⟩
        -- what is no number comes from a negative base, and what is infinite from a zero
        rcases hpower with hnan | ⟨hzero, hinfinite⟩
        · rw [← Option.isNone_iff_eq_none]
          exact Or.inr (Classical.not_not.1 fun hnot => pow_ne_nan hx hy hnot hnan)
        · exact Or.inl ⟨hzero, isNegative_of_pow hzero hinfinite⟩
      · split at h <;> cases h
    · cases h
  · rintro ⟨hx, hy, h⟩
    unfold checkedPow
    dsimp only
    rw [if_pos (by rw [hx, hy]; rfl), if_pos]
    rcases h with ⟨hzero, hnegative⟩ | ⟨hbase, hexponent⟩
    · exact Or.inr ⟨hzero, isInfinite_pow hzero hnegative⟩
    · exact Or.inl (pow_eq_nan hx hy hbase hexponent)

end Binary64

theorem ArithmeticFault.code_mem_codes (fault : ArithmeticFault) :
    fault.code ∈ ArithmeticFault.codes := by
  cases fault <;> simp [code, codes]

/-- **What comes out of an expression** is a value or an arithmetic fault with one of the three
codes, unless it has too many levels for the room, whatever numbers its literals are.  The
operations that can be misused come to the same, so that none of them is; and the questions about
base and exponent catch exactly those powers of finite numbers that do not exist. -/
theorem evaluation_misuses_nothing :
    (∀ (room : Nat) (e : Expr Binary64),
      (∃ x, e.valueWithin room = .ok x ∧ Draft.checkedWithin room e.draft = .ok x) ∨
        (∃ fault, e.valueWithin room = .error (.fault fault) ∧
          Draft.checkedWithin room e.draft = .error (.fault (.inr fault)) ∧
          fault.code ∈ ArithmeticFault.codes) ∨
        (room < 2 * e.height ∧ e.valueWithin room = .error .tooDeep ∧
          Draft.checkedWithin room e.draft = .error .tooDeep)) ∧
      ∀ x y : Binary64, x.checkedPow y = .error .noPower ↔
        x.isFinite = true ∧ y.isFinite = true ∧
          (x.isZero = true ∧ y.isNegative = true ∨ x.isNegative = true ∧ y.whole? = none) := by
  refine ⟨fun room e => ?_, fun x y => Binary64.checkedPow_eq_noPower_iff⟩
  -- the checked evaluation comes to the same, so that the cases are those of the value
  rw [Draft.checkedWithin_draft]
  cases hvalue : e.valueWithin room with
  | ok x => exact Or.inl ⟨x, rfl, rfl⟩
  | error halt =>
    cases halt with
    | fault fault => exact Or.inr (Or.inl ⟨fault, rfl, rfl, fault.code_mem_codes⟩)
    | tooDeep =>
      have hroom : room < 2 * e.height :=
        Nat.lt_of_not_le fun hle => Expr.valueWithin_ne_tooDeep hle hvalue
      exact Or.inr (Or.inr ⟨hroom, rfl, rfl⟩)

end Calculator
