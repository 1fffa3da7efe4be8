import Calculator.Proofs.Number.Written

/-!
# The decimal that is written

The decimal that is written for a positive finite size reads back as the size, and its first digit
does not stand behind that of the size.  So a size with a fraction has an exponent in writing if and
only if it is below `10 ^ (-4)`: sizes with a fraction are less than `2 ^ 52`, and what is not less
than `10 ^ 16` does not read back as one of them.

## Main definitions

* `Magnitude.WrittenBy` — a decimal that may be written for a size.

## Main results

* `Magnitude.writtenBy_shortest` — **the decimal that is written reads back.**
* `Magnitude.point_shortest_le` — a size with a fraction has at most 16 digits before the point.
* `Magnitude.lt_point_shortest_iff` — which sizes have few zeros behind the point.
-/

namespace Calculator

namespace Magnitude

/-! ### Candidates -/

/-- A decimal that may be written for a size: it reads back as the size, and is not smaller than the
power of ten that the first digit of the size stands for. -/
structure WrittenBy (m : Magnitude) (d : Decimal) : Prop where
  nearest_eq : d.nearest = m
  le_value : (10 : ℚ) ^ (m.leadingPlace - 1) ≤ d.value

theorem WrittenBy.coefficient_pos {m : Magnitude} {d : Decimal} (h : m.WrittenBy d) :
    0 < d.coefficient := by
  have hpower : (0 : ℚ) < 10 ^ (m.leadingPlace - 1) := by positivity
  exact Decimal.value_pos_iff.1 (hpower.trans_le h.le_value)

theorem value_exact (m : Magnitude) : m.exact.value = m.value := by
  unfold exact Decimal.value value quantaPerUnit
  -- any number of binary places will do, and a power of a variable is not multiplied out
  generalize hz : (-1074 : ℤ) = z
  generalize hn : 1074 = n
  have hexponent : z = -n := by omega
  have hfives : ((Nat.pow 5 n : ℕ) : ℚ) = 5 ^ n := Nat.cast_pow 5 n
  have hten : (10 : ℚ) ^ n = 2 ^ n * 5 ^ n := by
    rw [← mul_pow]
    norm_num
  rw [hexponent, Nat.one_shiftLeft, Nat.cast_mul, hfives, zpow_neg, zpow_natCast, hten,
    Nat.cast_pow, Nat.cast_ofNat]
  field_simp

theorem dividedBy_eq (m : Magnitude) (exponent : ℤ) : 0 < (m.dividedBy exponent).2 ∧
    ((m.dividedBy exponent).1 / (m.dividedBy exponent).2 : ℚ) = m.value / 10 ^ exponent := by
  have hunit : 0 < quantaPerUnit := by decide
  unfold dividedBy value
  split
  · rename_i hexponent
    obtain ⟨k, rfl⟩ := Int.eq_ofNat_of_zero_le hexponent
    refine ⟨Nat.mul_pos hunit (ten_pow_pos _), ?_⟩
    rw [Int.toNat_natCast, Nat.cast_mul, cast_ten_pow, zpow_natCast, div_div]
  · rename_i hexponent
    obtain ⟨k, hk⟩ := Int.eq_ofNat_of_zero_le (Int.neg_nonneg_of_nonpos (Int.not_le.1 hexponent).le)
    refine ⟨hunit, ?_⟩
    rw [hk, Int.toNat_natCast, ← neg_neg exponent, hk, Nat.cast_mul, cast_ten_pow, zpow_neg,
      zpow_natCast, div_inv_eq_mul, mul_div_right_comm]

/-- The decimal that is left of a size if its digits are cut off behind some places has its first
digit where the size has it. -/
theorem value_cut (m : Magnitude) {places n : ℕ}
    (hn : n = m.quanta * Nat.pow 10 places / quantaPerUnit) (hpos : 0 < n) :
    (10 : ℚ) ^ ((⟨n, -places⟩ : Decimal).point - 1) ≤ m.value ∧
      m.value < 10 ^ (⟨n, -places⟩ : Decimal).point := by
  have hpower : (0 : ℚ) < 10 ^ places := by positivity
  have hfloor : ⌊m.value * 10 ^ places⌋₊ = n := by
    rw [value, div_mul_eq_mul_div, ← cast_ten_pow, ← Nat.cast_mul, Nat.floor_div_eq_div, hn]
  have hcut : (⟨n, -places⟩ : Decimal).value = n / 10 ^ places := by
    rw [Decimal.value, zpow_neg, zpow_natCast, div_eq_mul_inv]
  constructor
  · refine (Decimal.le_value hpos).trans ?_
    rw [hcut, div_le_iff₀ hpower, ← hfloor]
    exact Nat.floor_le (mul_nonneg m.value_nonneg hpower.le)
  · -- not even the next number has more digits in front of the cut
    have hdigits : n + 1 ≤ 10 ^ (Nat.toDigits 10 n).length :=
      (Nat.length_toDigits_le_iff (by decide) Nat.length_toDigits_pos).1 (Nat.le_refl _)
    have hnext : m.value * 10 ^ places < 10 ^ (Nat.toDigits 10 n).length := by
      refine (Nat.lt_floor_add_one _).trans_le ?_
      rw [hfloor]
      exact_mod_cast hdigits
    rw [Decimal.point, zpow_add₀ (by norm_num), zpow_natCast, zpow_neg, zpow_natCast,
      ← div_eq_mul_inv, lt_div_iff₀ hpower]
    exact hnext

theorem quanta_pos {m : Magnitude} (h : 0 < m.rank) : 0 < m.quanta :=
  quantaAt_zero ▸ strictMono_quantaAt h

theorem value_leadingPlace {m : Magnitude} (h : 0 < m.rank) :
    (10 : ℚ) ^ (m.leadingPlace - 1) ≤ m.value ∧ m.value < 10 ^ m.leadingPlace := by
  have hunit : quantaPerUnit ≤ Nat.pow 10 324 := by decide +kernel
  unfold leadingPlace
  -- as in `value_exact`, a variable stands for the number of places
  generalize hz : (324 : ℤ) = z
  generalize hplaces : 324 = places at hunit ⊢
  obtain ⟨n, hn⟩ : ∃ n, n = m.quanta * Nat.pow 10 places / quantaPerUnit := ⟨_, rfl⟩
  have hpos : 0 < n := by
    rw [hn]
    refine Nat.div_pos (hunit.trans ?_) (by decide)
    exact Nat.le_mul_of_pos_left _ (quanta_pos h)
  have hexponent : z = places := by omega
  rw [← hn, hexponent]
  exact m.value_cut hn hpos

/-- A neighbour that is found reads back, and is one of the multiples around the size. -/
theorem neighbour?_eq_some {m : Magnitude} {exponent : ℤ} {d : Decimal}
    (h : m.neighbour? exponent = some d) : d.nearest = m ∧ d.exponent = exponent ∧
      ⌊m.value / 10 ^ exponent⌋₊ ≤ d.coefficient := by
  have hfloor : ⌊m.value / 10 ^ exponent⌋₊ =
      (m.dividedBy exponent).1 / (m.dividedBy exponent).2 := by
    rw [← (m.dividedBy_eq exponent).2, Nat.floor_div_eq_div]
  unfold neighbour? at h
  simp only at h
  rw [hfloor]
  generalize (m.dividedBy exponent).1 / (m.dividedBy exponent).2 = low at h ⊢
  -- the multiple below, the one above, or both may read back
  split at h
  · rename_i hbelow habove
    obtain rfl := Option.some.inj h
    split
    · exact ⟨beq_iff_eq.1 hbelow, rfl, Nat.le_refl _⟩
    · exact ⟨beq_iff_eq.1 habove, rfl, Nat.le_succ _⟩
  · rename_i hbelow habove
    obtain rfl := Option.some.inj h
    exact ⟨beq_iff_eq.1 hbelow, rfl, Nat.le_refl _⟩
  · rename_i hbelow habove
    obtain rfl := Option.some.inj h
    exact ⟨beq_iff_eq.1 habove, rfl, Nat.le_succ _⟩
  · cases h

/-- A neighbour among the multiples of a power of ten below the leading place may be written. -/
theorem writtenBy_of_neighbour? {m : Magnitude} (hpos : 0 < m.rank) {k : ℕ} {d : Decimal}
    (h : m.neighbour? (m.leadingPlace - (k + 1 : ℕ)) = some d) : m.WrittenBy d := by
  obtain ⟨hnearest, hexponent, hcoefficient⟩ := neighbour?_eq_some h
  refine ⟨hnearest, ?_⟩
  have hsplit : (10 : ℚ) ^ (m.leadingPlace - 1) = (10 ^ k : ℕ) * 10 ^ d.exponent := by
    rw [hexponent, Nat.cast_pow, Nat.cast_ofNat, ← zpow_natCast, ← zpow_add₀ (by norm_num)]
    congr 1
    push_cast
    ring
  have hpower : (0 : ℚ) < 10 ^ d.exponent := by positivity
  -- the size has its first digit at the leading place, and so do the multiples around it
  have hleading : 10 ^ k ≤ d.coefficient := by
    refine le_trans ?_ hcoefficient
    rw [Nat.le_floor_iff (div_nonneg m.value_nonneg (by positivity)), ← hexponent,
      le_div_iff₀ hpower, ← hsplit]
    exact (value_leadingPlace hpos).1
  rw [hsplit, Decimal.value]
  gcongr

/-- **The decimal that is written reads back.** -/
theorem writtenBy_shortest {m : Magnitude} (hpos : 0 < m.rank) : m.WrittenBy m.shortest := by
  unfold shortest
  cases hfound : (List.range mostDigits).findSome? fun k =>
      m.neighbour? (m.leadingPlace - (k + 1 : ℕ)) with
  | none =>
    have hexact := m.value_exact
    exact ⟨Decimal.nearest_of_value_eq hexact, hexact ▸ (value_leadingPlace hpos).1⟩
  | some d =>
    obtain ⟨k, -, hk⟩ := List.exists_of_findSome?_eq_some hfound
    exact writtenBy_of_neighbour? hpos hk

/-! ### Where the point stands -/

theorem rank_lt_of_mod_ne_zero {m : Magnitude} (h : m.quanta % quantaPerUnit ≠ 0) :
    m.rank < 1075 * fractionRanks := by
  obtain ⟨exponent, leading, hleading, hrank⟩ := exists_isLeading m.rank
  -- from the exponent 1074 on every size is a whole number
  have hexponent : exponent < 1074 := by
    refine Nat.not_le.1 fun hle => h (Nat.mod_eq_zero_of_dvd ?_)
    rw [quanta, hrank, hleading.quantaAt_eq, quantaPerUnit, Nat.one_shiftLeft]
    generalize 1074 = places at hle ⊢
    exact Dvd.dvd.mul_left (Nat.pow_dvd_pow 2 hle) _
  have hsize := hleading.1
  have hle : exponent * fractionRanks ≤ 1073 * fractionRanks :=
    Nat.mul_le_mul_right _ (Nat.le_of_lt_succ hexponent)
  rw [hrank]
  omega

theorem point_shortest_le {m : Magnitude} (hpos : 0 < m.rank)
    (hfraction : m.quanta % quantaPerUnit ≠ 0) : m.shortest.point ≤ 16 := by
  have hwritten := writtenBy_shortest hpos
  refine Int.not_lt.1 fun hpoint => ?_
  -- what is not less than `10 ^ 16` is not rounded to a size that is less than `2 ^ 52`
  have hrank := Decimal.nearest_mono (Decimal.value_power_le hwritten.coefficient_pos hpoint)
  have hbound : 1075 * fractionRanks ≤ (⟨1, 16⟩ : Decimal).nearest.rank := by decide +kernel
  rw [hwritten.nearest_eq] at hrank
  exact absurd (rank_lt_of_mod_ne_zero hfraction) (Nat.not_lt.2 (hbound.trans hrank))

/-- The sizes from `10 ^ (-4)` on are those from the size on that `10 ^ (-4)` is rounded to. -/
theorem tenThousandth_le_value_iff {m : Magnitude} :
    1 / 10000 ≤ m.value ↔ (⟨1, -4⟩ : Decimal).nearest.rank ≤ m.rank := by
  constructor
  · intro hle
    have hexact : (⟨1, -4⟩ : Decimal).value ≤ m.exact.value := by
      rw [Decimal.value_power, value_exact]
      exact le_trans (by norm_num) hle
    rw [← Decimal.nearest_of_value_eq m.value_exact]
    exact Decimal.nearest_mono hexact
  · intro hrank
    have hbound : quantaPerUnit ≤ 10000 * (⟨1, -4⟩ : Decimal).nearest.quanta := by decide +kernel
    have hquanta : (quantaPerUnit : ℚ) ≤ 10000 * m.quanta := by
      exact_mod_cast hbound.trans (Nat.mul_le_mul_left _ (strictMono_quantaAt.monotone hrank))
    rw [value, le_div_iff₀ quantaPerUnit_pos]
    linarith

/-- What is written has at most three zeros behind the point if and only if the size is at least
`10 ^ (-4)`. -/
theorem lt_point_shortest_iff {m : Magnitude} (hpos : 0 < m.rank) :
    -4 < m.shortest.point ↔ 1 / 10000 ≤ m.value := by
  have hwritten := writtenBy_shortest hpos
  constructor
  · intro hpoint
    -- a power of ten that is not larger is not rounded to a larger size
    have hrank := Decimal.nearest_mono (Decimal.value_power_le hwritten.coefficient_pos hpoint)
    rw [hwritten.nearest_eq] at hrank
    exact tenThousandth_le_value_iff.2 hrank
  · intro hvalue
    have hbase : (1 : ℚ) < 10 := by norm_num
    have hpower : (1 / 10000 : ℚ) = 10 ^ (-4 : ℤ) := by norm_num
    rw [hpower] at hvalue
    have hplace := (zpow_lt_zpow_iff_right₀ hbase).1 (hvalue.trans_lt (value_leadingPlace hpos).2)
    have hpoint := (zpow_lt_zpow_iff_right₀ hbase).1
      (hwritten.le_value.trans_lt m.shortest.value_lt)
    omega

end Magnitude

end Calculator
