import Calculator.Proofs.Number.Display

/-!
# Correct rounding

A decimal is rounded to the finite number that is nearest to it, and to an even one of two that are
equally near.  Infinity is not near to anything; decimals are rounded to it from halfway between the
largest finite number and `2 ^ 1024` on, where that power of two would be the even one.

## Main definitions

* `Binary64.IsNearest` — a finite number is the nearest to a rational one.
* `overflowBound` — where rounding to infinity begins.

## Main results

* `abs_sub_quantaAt_nearestRank_le`, `even_nearestRank_of_tie` — no size is nearer, and two that are
  equally near.
* `Decimal.isFinite_nearest_iff` — **which decimals are rounded to a finite number.**
* `Decimal.isNearest_nearest` — **and which number that is.**
-/

namespace Calculator

/-- A finite number is the nearest to a rational one: no finite number is nearer to it, and the last
bit of the encoding is zero if one of another value is equally near. -/
structure Binary64.IsNearest (q : ℚ) (x : Binary64) : Prop where
  finite : x.isFinite = true
  nearest : ∀ y : Binary64, y.isFinite = true → |q - x.value| ≤ |q - y.value|
  even : ∀ y : Binary64, y.isFinite = true → y.value ≠ x.value →
    |q - y.value| = |q - x.value| → x.toBits % 2 = 0

/-- What is not rounded to a finite number: the point halfway between the largest of them and
`2 ^ 1024`, and all above it. -/
def overflowBound : ℚ := 2 ^ 1024 - 2 ^ 970

/-! ### Sizes -/

theorem quantaAt_le_quantaAt {a b : ℕ} (h : a ≤ b) : (quantaAt a : ℚ) ≤ quantaAt b :=
  Nat.cast_le.2 (strictMono_quantaAt.monotone h)

theorem quantaAt_lt_quantaAt {a b : ℕ} (h : a < b) : (quantaAt a : ℚ) < quantaAt b :=
  Nat.cast_lt.2 (strictMono_quantaAt h)

section Nearest

variable {q : ℚ}

theorem quantaAt_floorRank_floor (hq : 0 ≤ q) :
    (quantaAt (floorRank ⌊q⌋₊) : ℚ) ≤ q ∧ q < quantaAt (floorRank ⌊q⌋₊ + 1) := by
  constructor
  · exact (Nat.cast_le.2 (quantaAt_floorRank_le _)).trans (Nat.floor_le hq)
  · have hnext : ⌊q⌋₊ + 1 ≤ quantaAt (floorRank ⌊q⌋₊ + 1) := lt_quantaAt_floorRank_succ _
    calc q < ⌊q⌋₊ + 1 := Nat.lt_floor_add_one q
      _ ≤ quantaAt (floorRank ⌊q⌋₊ + 1) := by exact_mod_cast hnext

/-- What a number of quanta is rounded to is no farther away than the other neighbour, and of an
even rank if both are equally far. -/
theorem exists_neighbours (hq : 0 ≤ q) :
    ∃ below : ℕ, (quantaAt below : ℚ) ≤ q ∧ q < quantaAt (below + 1) ∧
      (nearestRank q = below ∧ q - quantaAt below ≤ quantaAt (below + 1) - q ∨
        nearestRank q = below + 1 ∧ quantaAt (below + 1) - q ≤ q - quantaAt below) ∧
      (q - quantaAt below = quantaAt (below + 1) - q → nearestRank q % 2 = 0) := by
  obtain ⟨hlow, hhigh⟩ := quantaAt_floorRank_floor hq
  refine ⟨floorRank ⌊q⌋₊, hlow, hhigh, ?_⟩
  unfold nearestRank
  dsimp only
  generalize floorRank ⌊q⌋₊ = below at hlow hhigh ⊢
  -- the number is compared with the point halfway between its neighbours
  rcases lt_trichotomy (2 * q) (quantaAt below + quantaAt (below + 1)) with hlt | heq | hgt
  · rw [if_pos hlt]
    exact ⟨Or.inl ⟨rfl, by linarith⟩, fun h => by linarith⟩
  · rw [if_neg heq.not_lt, if_neg heq.not_gt]
    refine ⟨?_, fun _ => by omega⟩
    rcases Nat.mod_two_eq_zero_or_one below with heven | hodd
    · exact Or.inl ⟨by omega, by linarith⟩
    · exact Or.inr ⟨by omega, by linarith⟩
  · rw [if_neg hgt.not_gt, if_pos hgt]
    exact ⟨Or.inr ⟨rfl, by linarith⟩, fun h => by linarith⟩

/-- **No size is nearer** than the one that a number of quanta is rounded to. -/
theorem abs_sub_quantaAt_nearestRank_le (hq : 0 ≤ q) (rank : ℕ) :
    |q - quantaAt (nearestRank q)| ≤ |q - quantaAt rank| := by
  obtain ⟨below, hlow, hhigh, hnear, -⟩ := exists_neighbours hq
  -- a size on the one side is at least as far away as the neighbour there
  rcases Nat.lt_or_ge below rank with habove | hbelow
  · have hle := quantaAt_le_quantaAt habove
    rw [abs_of_nonpos (by linarith : q - quantaAt rank ≤ 0)]
    rcases hnear with ⟨hrank, hnear⟩ | ⟨hrank, -⟩ <;> rw [hrank, abs_le] <;>
      constructor <;> linarith
  · have hle := quantaAt_le_quantaAt hbelow
    rw [abs_of_nonneg (by linarith : 0 ≤ q - quantaAt rank)]
    rcases hnear with ⟨hrank, -⟩ | ⟨hrank, hnear⟩ <;> rw [hrank, abs_le] <;>
      constructor <;> linarith

/-- **If another size is equally near**, the rank is even. -/
theorem even_nearestRank_of_tie (hq : 0 ≤ q) {rank : ℕ} (hne : rank ≠ nearestRank q)
    (htie : |q - quantaAt rank| = |q - quantaAt (nearestRank q)|) : nearestRank q % 2 = 0 := by
  obtain ⟨below, hlow, hhigh, hnear, heven⟩ := exists_neighbours hq
  refine heven ?_
  rcases hnear with ⟨hrank, hnear⟩ | ⟨hrank, hnear⟩
  · rw [hrank] at hne htie
    rw [abs_of_nonneg (by linarith : 0 ≤ q - quantaAt below)] at htie
    rcases Nat.lt_or_gt_of_ne hne with hlt | hgt
    · -- a smaller size is farther away
      have hless := quantaAt_lt_quantaAt hlt
      rw [abs_of_nonneg (by linarith : 0 ≤ q - quantaAt rank)] at htie
      linarith
    · have hle := quantaAt_le_quantaAt (Nat.succ_le_of_lt hgt)
      rw [abs_of_nonpos (by linarith : q - quantaAt rank ≤ 0)] at htie
      linarith
  · rw [hrank] at hne htie
    rw [abs_of_nonpos (by linarith : q - quantaAt (below + 1) ≤ 0)] at htie
    rcases Nat.lt_or_gt_of_ne hne with hlt | hgt
    · have hle := quantaAt_le_quantaAt (Nat.le_of_lt_succ hlt)
      rw [abs_of_nonneg (by linarith : 0 ≤ q - quantaAt rank)] at htie
      linarith
    · -- and so is a larger one
      have hless := quantaAt_lt_quantaAt hgt
      rw [abs_of_nonpos (by linarith : q - quantaAt rank ≤ 0)] at htie
      linarith

end Nearest

/-! ### The largest sizes -/

theorem IsLeading.cast_quantaAt {exponent leading : ℕ} (h : IsLeading exponent leading) :
    (quantaAt (exponent * fractionRanks + leading) : ℚ) = leading * 2 ^ exponent := by
  rw [h.quantaAt_eq, Nat.cast_mul, Nat.cast_pow, Nat.cast_ofNat]

theorem cast_one_shiftLeft (k : ℕ) : ((1 <<< k : ℕ) : ℚ) = 2 ^ k := by
  rw [Nat.one_shiftLeft, Nat.cast_pow, Nat.cast_ofNat]

/-- In quanta, the bound is halfway between the largest finite size and the place of infinity. -/
theorem overflowBound_mul :
    2 * (overflowBound * quantaPerUnit) =
      quantaAt (infinityRank - 1) + quantaAt infinityRank := by
  -- with a variable in the exponents, so that no power is multiplied out
  have hpowers (k : ℕ) : 2 * (((2 : ℚ) ^ (k + 54) - 2 ^ k) * 2 ^ (k + 104)) =
      (2 * 2 ^ 52 - 1) * 2 ^ (2 * k + 105) + 2 ^ 52 * 2 ^ (2 * k + 106) := by
    ring
  have hlargest : (quantaAt (infinityRank - 1) : ℚ) = (2 * fractionRanks - 1 : ℕ) * 2 ^ 2045 :=
    @IsLeading.cast_quantaAt 2045 (2 * fractionRanks - 1) ⟨by decide, fun _ => by decide⟩
  have hinfinity : (quantaAt infinityRank : ℚ) = fractionRanks * 2 ^ 2046 :=
    @IsLeading.cast_quantaAt 2046 fractionRanks ⟨by decide, fun _ => Nat.le_refl _⟩
  have hbits : ((2 * fractionRanks - 1 : ℕ) : ℚ) = 2 * 2 ^ 52 - 1 := by norm_num
  have hfraction : ((fractionRanks : ℕ) : ℚ) = 2 ^ 52 := by norm_num
  rw [hbits] at hlargest
  rw [hfraction] at hinfinity
  calc 2 * (overflowBound * quantaPerUnit)
      = 2 * ((2 ^ (970 + 54) - 2 ^ 970) * 2 ^ (970 + 104)) := by
        rw [quantaPerUnit, cast_one_shiftLeft]
        rfl
    _ = _ := hpowers 970
    _ = quantaAt (infinityRank - 1) + quantaAt infinityRank := by
        rw [hlargest, hinfinity]

/-- **Which numbers of quanta are rounded to a finite size.** -/
theorem nearestRank_lt_infinityRank_iff {q : ℚ} (hq : 0 ≤ q) :
    nearestRank q < infinityRank ↔ q < overflowBound * quantaPerUnit := by
  obtain ⟨below, hlow, hhigh, hnear, heven⟩ := exists_neighbours hq
  have hbound := overflowBound_mul
  have hlast : (quantaAt (infinityRank - 1) : ℚ) < quantaAt infinityRank :=
    quantaAt_lt_quantaAt (by decide)
  rcases lt_trichotomy below (infinityRank - 1) with hlt | rfl | hgt
  · -- both neighbours are finite, and the bound is above them
    have hle : (quantaAt (below + 1) : ℚ) ≤ quantaAt (infinityRank - 1) :=
      quantaAt_le_quantaAt hlt
    constructor
    · intro _
      linarith
    · intro _
      omega
  · -- the bound is halfway between the neighbours, of which the upper one is even
    have hupper : infinityRank - 1 + 1 = infinityRank := by decide
    rw [hupper] at hhigh hnear heven
    rcases lt_or_ge q (overflowBound * quantaPerUnit) with hq' | hq'
    · refine iff_of_true ?_ hq'
      rcases hnear with ⟨hrank, -⟩ | ⟨hrank, hnear⟩
      · rw [hrank]
        decide
      · linarith
    · refine iff_of_false ?_ hq'.not_gt
      rcases hnear with ⟨hrank, hnear⟩ | ⟨hrank, -⟩
      · have hrank' : nearestRank q % 2 = 0 := heven (by linarith)
        rw [hrank] at hrank'
        exact absurd hrank' (by decide)
      · rw [hrank]
        exact Nat.lt_irrefl _
  · -- both neighbours are past the finite sizes
    have hle : (quantaAt infinityRank : ℚ) ≤ quantaAt below := quantaAt_le_quantaAt (by omega)
    refine iff_of_false ?_ (by linarith)
    omega

/-! ### Decimals -/

namespace Decimal

theorem value_nonneg (d : Decimal) : 0 ≤ d.value := by
  unfold value
  positivity

theorem value_mul_nonneg (d : Decimal) : 0 ≤ d.value * quantaPerUnit :=
  mul_nonneg d.value_nonneg quantaPerUnit_pos.le

/-- **Which decimals are rounded to a finite number.** -/
theorem isFinite_nearest_iff (d : Decimal) :
    d.nearest.isFinite = true ↔ d.value < overflowBound := by
  rw [nearest_eq, Magnitude.isFinite, decide_eq_true_eq, Magnitude.rank_ofRank,
    min_lt_iff, or_iff_left (Nat.lt_irrefl _), nearestRank_lt_infinityRank_iff d.value_mul_nonneg,
    mul_lt_mul_iff_of_pos_right quantaPerUnit_pos]

end Decimal

theorem Magnitude.abs_sub_quanta (v : ℚ) (m : Magnitude) :
    |v * quantaPerUnit - m.quanta| = |v - m.value| * quantaPerUnit := by
  rw [← m.value_mul, ← sub_mul, abs_mul, abs_of_pos quantaPerUnit_pos]

theorem Binary64.abs_sub_size_le {v : ℚ} (hv : 0 ≤ v) (negative : Bool) (m : Magnitude) :
    |v - m.value| ≤ |v - (signed negative m).value| := by
  have hm := m.value_nonneg
  cases negative with
  | false => exact le_refl _
  | true =>
    -- on the other side of zero the distance is the sum of the sizes
    show |v - m.value| ≤ |v - -m.value|
    rw [sub_neg_eq_add, abs_of_nonneg (add_nonneg hv hm), abs_le]
    constructor <;> linarith

namespace Decimal

variable {d : Decimal}

theorem rank_nearest (h : d.value < overflowBound) :
    d.nearest.rank = nearestRank (d.value * quantaPerUnit) := by
  have hfinite := d.isFinite_nearest_iff.2 h
  rw [Magnitude.isFinite, decide_eq_true_eq, nearest_eq, Magnitude.rank_ofRank] at hfinite
  rw [nearest_eq, Magnitude.rank_ofRank, Nat.min_eq_left]
  omega

theorem abs_sub_nearest_le (h : d.value < overflowBound) (m : Magnitude) :
    |d.value - d.nearest.value| ≤ |d.value - m.value| := by
  refine le_of_mul_le_mul_right ?_ quantaPerUnit_pos
  rw [← Magnitude.abs_sub_quanta, ← Magnitude.abs_sub_quanta, Magnitude.quanta, rank_nearest h]
  exact abs_sub_quantaAt_nearestRank_le d.value_mul_nonneg m.rank

theorem even_rank_nearest (h : d.value < overflowBound) {m : Magnitude} (hne : m ≠ d.nearest)
    (htie : |d.value - m.value| = |d.value - d.nearest.value|) : d.nearest.rank % 2 = 0 := by
  have hrank : m.rank ≠ nearestRank (d.value * quantaPerUnit) := by
    rw [← rank_nearest h]
    exact mt Magnitude.rank_injective hne
  have hquanta : |d.value * quantaPerUnit - m.quanta| =
      |d.value * quantaPerUnit - d.nearest.quanta| := by
    rw [Magnitude.abs_sub_quanta, Magnitude.abs_sub_quanta, htie]
  rw [rank_nearest h]
  refine even_nearestRank_of_tie d.value_mul_nonneg hrank ?_
  rwa [← rank_nearest h]

/-- Only zero is equally near with the other sign. -/
theorem value_nearest_eq_zero (h : d.value < overflowBound)
    (htie : |d.value - -d.nearest.value| = |d.value - d.nearest.value|) : d.nearest.value = 0 := by
  have hvalue := d.value_nonneg
  have hsize := d.nearest.value_nonneg
  -- zero is no nearer than the size, but the size on the other side would be farther away
  have hzero := abs_sub_nearest_le h .zero
  have hzero' : Magnitude.zero.value = 0 := by
    rw [Magnitude.value, show Magnitude.zero.quanta = 0 from rfl, Nat.cast_zero, zero_div]
  rw [hzero', sub_zero, abs_of_nonneg hvalue] at hzero
  rw [sub_neg_eq_add, abs_of_nonneg (add_nonneg hvalue hsize)] at htie
  linarith

/-- **A decimal below the bound is rounded to the nearest number**, which has no sign. -/
theorem isNearest_nearest (h : d.value < overflowBound) :
    (Binary64.signed false d.nearest).IsNearest d.value := by
  refine ⟨d.isFinite_nearest_iff.2 h, ?_, ?_⟩
  · intro y hy
    cases y with
    | nan => cases hy
    | signed negative m =>
      exact (abs_sub_nearest_le h m).trans
        (Binary64.abs_sub_size_le d.value_nonneg negative m)
  · intro y hy hne htie
    have heven : d.nearest.rank % 2 = 0 := by
      cases y with
      | nan => cases hy
      | signed negative m =>
        by_cases hm : m = d.nearest
        · -- the numbers of one size are equally near only if they are zeros
          subst hm
          cases negative with
          | false => exact absurd rfl hne
          | true =>
            have hzero : d.nearest.value = 0 := value_nearest_eq_zero h htie
            refine absurd ?_ hne
            show -d.nearest.value = d.nearest.value
            rw [hzero, neg_zero]
        · refine even_rank_nearest h hm (le_antisymm ?_ (abs_sub_nearest_le h m))
          exact (Binary64.abs_sub_size_le d.value_nonneg negative m).trans_eq htie
    show (0 + d.nearest.rank) % 2 = 0
    rwa [Nat.zero_add]

end Decimal

end Calculator
