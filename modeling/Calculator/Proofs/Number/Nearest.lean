import Calculator.Number.Decimal
import Calculator.Proofs.Number.Ranks
import Mathlib.Algebra.Order.Field.Power
import Mathlib.Algebra.Order.Floor.Semifield
import Mathlib.Data.Rat.Floor
import Mathlib.Tactic.FieldSimp
import Mathlib.Tactic.Linarith
import Mathlib.Tactic.Positivity

/-!
# Rounding to the nearest magnitude

What a number of quanta is rounded to depends on the number alone, not on the fraction that it was
given as: `nearestRank` is the rank that a rational number of quanta is rounded to.  Sizes are
rounded to themselves, and a larger number is not rounded to a smaller size.

## Main definitions

* `Decimal.value`, `Magnitude.value` — what a decimal and a finite magnitude are worth.
* `nearestRank` — the rank that a number of quanta is rounded to.

## Main results

* `Magnitude.nearest_eq`, `Decimal.nearest_eq` — rounding by the value alone.
* `monotone_nearestRank` — **rounding keeps the order.**
* `Decimal.nearest_of_value_eq` — **a decimal that is worth a size is rounded to it.**
-/

namespace Calculator

/-! ### Values -/

/-- What a decimal is worth. -/
def Decimal.value (d : Decimal) : ℚ := d.coefficient * 10 ^ d.exponent

/-- What a finite magnitude is worth. -/
def Magnitude.value (m : Magnitude) : ℚ := m.quanta / quantaPerUnit

theorem quantaPerUnit_pos : (0 : ℚ) < quantaPerUnit := Nat.cast_pos.2 (by decide)

theorem ten_pow_pos (k : ℕ) : 0 < Nat.pow 10 k := Nat.pow_pos (by decide)

theorem cast_ten_pow (k : ℕ) : ((Nat.pow 10 k : ℕ) : ℚ) = 10 ^ k := Nat.cast_pow 10 k

/-! ### Numbers of quanta -/

/-- The rank that a number of quanta is rounded to: of its neighbours the nearer one, or the one
with an even rank. -/
def nearestRank (q : ℚ) : ℕ :=
  let below := floorRank ⌊q⌋₊
  let half : ℚ := quantaAt below + quantaAt (below + 1)
  if 2 * q < half then below else if half < 2 * q then below + 1 else below + below % 2

/-- A fraction is rounded by its value. -/
theorem Magnitude.nearest_eq (num : ℕ) {den : ℕ} (hden : 0 < den) :
    nearest num den = ofRank (nearestRank (num / den)) := by
  have hpos : (0 : ℚ) < den := Nat.cast_pos.2 hden
  have hfloor : ⌊(num / den : ℚ)⌋₊ = num / den := Nat.floor_div_eq_div num den
  -- the comparisons of the fraction are those of the number, multiplied by the denominator
  have hbelow (half : ℕ) : 2 * (num / den : ℚ) < half ↔ 2 * num < half * den := by
    rw [← mul_div_assoc, div_lt_iff₀ hpos]
    exact_mod_cast Iff.rfl
  have habove (half : ℕ) : (half : ℚ) < 2 * (num / den : ℚ) ↔ half * den < 2 * num := by
    rw [← mul_div_assoc, lt_div_iff₀ hpos]
    exact_mod_cast Iff.rfl
  unfold nearest nearestRank
  dsimp only
  rw [hfloor, ← Nat.cast_add, apply_ite ofRank, apply_ite ofRank]
  simp only [hbelow, habove]

theorem nearestRank_mem (q : ℚ) :
    floorRank ⌊q⌋₊ ≤ nearestRank q ∧ nearestRank q ≤ floorRank ⌊q⌋₊ + 1 := by
  unfold nearestRank
  dsimp only
  split
  · omega
  · split <;> omega

@[simp] theorem nearestRank_quantaAt (rank : ℕ) : nearestRank (quantaAt rank) = rank := by
  have hnext : quantaAt rank < quantaAt (rank + 1) := strictMono_quantaAt (Nat.lt_succ_self rank)
  have hhalf : 2 * (quantaAt rank : ℚ) < quantaAt rank + quantaAt (rank + 1) := by
    rw [two_mul]
    exact_mod_cast Nat.add_lt_add_left hnext _
  -- the size itself is the lower neighbour, and nearer than halfway to the upper one
  rw [nearestRank, Nat.floor_natCast, floorRank_quantaAt]
  exact if_pos hhalf

/-- **Rounding keeps the order.** -/
theorem monotone_nearestRank : Monotone nearestRank := by
  intro p q hle
  have hfloor : floorRank ⌊p⌋₊ ≤ floorRank ⌊q⌋₊ := monotone_floorRank (Nat.floor_mono hle)
  rcases Nat.eq_or_lt_of_le hfloor with hsame | hlt
  · -- both have the same neighbours, and the same point halfway between them
    unfold nearestRank
    rw [hsame]
    dsimp only
    generalize floorRank ⌊q⌋₊ = below
    generalize (quantaAt below + quantaAt (below + 1) : ℚ) = half
    rcases lt_or_ge (2 * p) half with hp | hp
    · rw [if_pos hp]
      split_ifs <;> omega
    · have hq : half ≤ 2 * q := by linarith
      rw [if_neg hp.not_gt, if_neg hq.not_gt]
      split_ifs <;> first | omega | linarith
  · -- the neighbours of the larger number begin where those of the smaller one end
    exact (nearestRank_mem p).2.trans (hlt.trans_le (nearestRank_mem q).1)

/-! ### Magnitudes and decimals -/

namespace Magnitude

theorem rank_ofRank (rank : ℕ) : (ofRank rank).rank = min rank infinityRank := rfl

theorem value_mul (m : Magnitude) : m.value * quantaPerUnit = m.quanta :=
  div_mul_cancel₀ _ quantaPerUnit_pos.ne'

theorem value_nonneg (m : Magnitude) : 0 ≤ m.value := by
  unfold value
  positivity

theorem value_lt_value_iff {a b : Magnitude} : a.value < b.value ↔ a.rank < b.rank := by
  rw [value, value, div_lt_div_iff_of_pos_right quantaPerUnit_pos, Nat.cast_lt, quanta, quanta,
    strictMono_quantaAt.lt_iff_lt]

theorem value_pos_iff {m : Magnitude} : 0 < m.value ↔ 0 < m.rank := by
  have hzero : (⟨0, Nat.zero_le _⟩ : Magnitude).value = 0 := by simp [value, quanta]
  rw [← hzero, value_lt_value_iff]

end Magnitude

namespace Decimal

theorem value_pos_iff {d : Decimal} : 0 < d.value ↔ 0 < d.coefficient := by
  have hpower : (0 : ℚ) < 10 ^ d.exponent := by positivity
  rw [value, mul_pos_iff_of_pos_right hpower, Nat.cast_pos]

/-- A decimal is rounded by its value. -/
theorem nearest_eq (d : Decimal) :
    d.nearest = .ofRank (nearestRank (d.value * quantaPerUnit)) := by
  unfold nearest value
  split
  · -- the power of ten is in the numerator
    rename_i hexponent
    obtain ⟨k, hk⟩ := Int.eq_ofNat_of_zero_le hexponent
    rw [Magnitude.nearest_eq _ Nat.one_pos, hk, Int.toNat_natCast, zpow_natCast, Nat.cast_mul,
      Nat.cast_mul, cast_ten_pow, Nat.cast_one, div_one]
  · -- the power of ten is in the denominator
    rename_i hexponent
    obtain ⟨k, hk⟩ := Int.eq_ofNat_of_zero_le (Int.neg_nonneg_of_nonpos (Int.not_le.1 hexponent).le)
    rw [Magnitude.nearest_eq _ (ten_pow_pos _), hk, Int.toNat_natCast, ← neg_neg d.exponent, hk,
      zpow_neg, zpow_natCast, Nat.cast_mul, cast_ten_pow, ← div_eq_mul_inv, div_mul_eq_mul_div]

theorem nearest_congr {d e : Decimal} (h : d.value = e.value) : d.nearest = e.nearest := by
  rw [nearest_eq, nearest_eq, h]

/-- **A decimal that is worth a size is rounded to it.** -/
theorem nearest_of_value_eq {d : Decimal} {m : Magnitude} (h : d.value = m.value) :
    d.nearest = m := by
  rw [nearest_eq, h, m.value_mul, Magnitude.quanta, nearestRank_quantaAt, Magnitude.ofRank_rank]

theorem nearest_mono {d e : Decimal} (h : d.value ≤ e.value) : d.nearest.rank ≤ e.nearest.rank := by
  have hle := monotone_nearestRank (mul_le_mul_of_nonneg_right h quantaPerUnit_pos.le)
  rw [nearest_eq, nearest_eq, Magnitude.rank_ofRank, Magnitude.rank_ofRank]
  exact min_le_min_right _ hle

end Decimal

end Calculator
