import Calculator.Number.Magnitude
import Mathlib.Order.Monotone.Basic
import Mathlib.Tactic.Ring

/-!
# The list of sizes

A rank is an exponent and up to 53 leading bits, and the size at it is what these bits are worth.
The sizes grow from rank to rank, by steps that are powers of two and get longer where the next
power of two is reached.  So every number of quanta lies between two neighbours of the list, and
`floorRank` is the rank of the lower one.

## Main definitions

* `IsLeading` — the leading bits that go with an exponent.
* `stepAt` — how far the next size is from the one at a rank.

## Main results

* `quantaAt_succ` — the sizes of neighbours differ by a step.
* `strictMono_quantaAt` — the list is increasing.
* `quantaAt_floorRank_le`, `lt_quantaAt_floorRank_succ` — **every number of quanta lies between two
  neighbours.**
* `floorRank_eq_iff` — no other neighbours have it between them.
-/

namespace Calculator

/-! ### Exponents and leading bits -/

/-- Leading bits are 53 and begin with a one, but behind the smallest exponent they may be fewer. -/
def IsLeading (exponent leading : ℕ) : Prop :=
  leading < 2 * fractionRanks ∧ (exponent ≠ 0 → fractionRanks ≤ leading)

theorem exists_isLeading (rank : ℕ) :
    ∃ exponent leading, IsLeading exponent leading ∧ rank = exponent * fractionRanks + leading := by
  have hsplit := Nat.div_add_mod' rank fractionRanks
  have hmod : rank % fractionRanks < fractionRanks := Nat.mod_lt _ (by decide)
  -- below the first power of two all bits are leading ones
  cases hquotient : rank / fractionRanks with
  | zero =>
    rw [hquotient] at hsplit
    exact ⟨0, rank % fractionRanks, ⟨by omega, by simp⟩, hsplit.symm⟩
  | succ e =>
    rw [hquotient, Nat.add_one_mul] at hsplit
    exact ⟨e, fractionRanks + rank % fractionRanks, ⟨by omega, by omega⟩, by omega⟩

/-- How many quanta the size at a rank is away from the next one. -/
def stepAt (rank : ℕ) : ℕ := 2 ^ (rank / fractionRanks - 1)

theorem stepAt_pos (rank : ℕ) : 0 < stepAt rank := Nat.two_pow_pos _

namespace IsLeading

variable {exponent leading : ℕ}

/-- Fewer leading bits go with the smallest exponent only. -/
theorem exponent_eq_zero (h : IsLeading exponent leading) (hlt : leading < fractionRanks) :
    exponent = 0 := by
  by_contra hne
  exact absurd (h.2 hne) (Nat.not_le.2 hlt)

theorem div_eq (h : IsLeading exponent leading) :
    (exponent * fractionRanks + leading) / fractionRanks - 1 = exponent := by
  have hpos : 0 < fractionRanks := by decide
  rw [Nat.mul_comm, Nat.mul_add_div hpos]
  rcases Nat.lt_or_ge leading fractionRanks with hlt | hge
  · rw [Nat.div_eq_of_lt hlt, h.exponent_eq_zero hlt]
  · rw [Nat.div_eq_of_lt_le (by omega) (Nat.lt_of_lt_of_eq h.1 rfl : leading < (1 + 1) * _)]
    rfl

theorem stepAt_eq (h : IsLeading exponent leading) :
    stepAt (exponent * fractionRanks + leading) = 2 ^ exponent := by
  rw [stepAt, h.div_eq]

theorem quantaAt_eq (h : IsLeading exponent leading) :
    quantaAt (exponent * fractionRanks + leading) = leading * 2 ^ exponent := by
  rcases Nat.lt_or_ge leading fractionRanks with hlt | hge
  · rw [h.exponent_eq_zero hlt, Nat.zero_mul, Nat.zero_add, quantaAt_of_lt hlt, Nat.pow_zero, Nat.mul_one]
  · have hrank : ¬ exponent * fractionRanks + leading < fractionRanks := by omega
    have hlast : leading - fractionRanks < fractionRanks := by
      have hlt := h.1
      omega
    have hfraction : (exponent * fractionRanks + leading) % fractionRanks =
        leading - fractionRanks := by
      rw [Nat.mul_comm, Nat.mul_add_mod, Nat.mod_eq_sub_mod hge, Nat.mod_eq_of_lt hlast]
    rw [quantaAt, if_neg hrank, h.div_eq, hfraction, Nat.add_sub_cancel' hge, Nat.shiftLeft_eq]

end IsLeading

/-! ### Neighbours -/

/-- **The sizes of neighbours differ by a step.** -/
theorem quantaAt_succ (rank : ℕ) : quantaAt (rank + 1) = quantaAt rank + stepAt rank := by
  obtain ⟨exponent, leading, h, rfl⟩ := exists_isLeading rank
  rw [h.quantaAt_eq, h.stepAt_eq]
  rcases Nat.lt_or_ge (leading + 1) (2 * fractionRanks) with hlt | hge
  · -- the exponent stays, and the leading bits are one more
    have hnext : IsLeading exponent (leading + 1) := ⟨hlt, fun hne => Nat.le_succ_of_le (h.2 hne)⟩
    rw [Nat.add_assoc, hnext.quantaAt_eq, Nat.add_one_mul]
  · -- the next power of two is reached
    have hlast : leading + 1 = 2 * fractionRanks := Nat.le_antisymm h.1 hge
    have hnext : IsLeading (exponent + 1) fractionRanks := ⟨by decide, fun _ => Nat.le_refl _⟩
    have hrank : exponent * fractionRanks + leading + 1 =
        (exponent + 1) * fractionRanks + fractionRanks := by
      rw [Nat.add_one_mul]
      omega
    rw [hrank, hnext.quantaAt_eq, ← Nat.add_one_mul, hlast, Nat.pow_succ]
    ring

/-- **The sizes grow from rank to rank.** -/
theorem strictMono_quantaAt : StrictMono quantaAt := by
  refine strictMono_nat_of_lt_succ fun rank => ?_
  rw [quantaAt_succ]
  exact Nat.lt_add_of_pos_right (stepAt_pos rank)

/-! ### Between neighbours -/

/-- A number of quanta has leading bits, and further bits behind them. -/
theorem exists_floorRank_eq (q : ℕ) : ∃ exponent leading, IsLeading exponent leading ∧
    floorRank q = exponent * fractionRanks + leading ∧ leading = q / 2 ^ exponent := by
  rcases Nat.lt_or_ge q (2 * fractionRanks) with hlt | hge
  · exact ⟨0, q, ⟨hlt, by simp⟩, by simp [floorRank, hlt], by simp⟩
  · have hne : q ≠ 0 := by
      rintro rfl
      exact absurd hge (by decide)
    have hlog : 53 ≤ q.log2 := (Nat.le_log2 hne).2 hge
    obtain ⟨exponent, hexponent⟩ := Nat.exists_eq_add_of_le (Nat.le_of_succ_le hlog)
    -- `52 + exponent` bits are behind the first one, so that 53 leading ones are left
    have hlow : fractionRanks * 2 ^ exponent ≤ q := by
      calc fractionRanks * 2 ^ exponent = 2 ^ (52 + exponent) := (Nat.pow_add 2 52 exponent).symm
        _ ≤ q := hexponent ▸ Nat.log2_self_le hne
    have hhigh : q < 2 * fractionRanks * 2 ^ exponent := by
      calc q < 2 ^ (52 + exponent + 1) := hexponent ▸ Nat.lt_log2_self
        _ = 2 * fractionRanks * 2 ^ exponent := by
          rw [Nat.pow_succ, Nat.pow_add]
          ring
    have hbits : q.log2 - 52 = exponent := by omega
    refine ⟨exponent, q / 2 ^ exponent, ⟨?_, fun _ => ?_⟩, ?_, rfl⟩
    · exact (Nat.div_lt_iff_lt_mul (Nat.two_pow_pos _)).2 hhigh
    · exact (Nat.le_div_iff_mul_le (Nat.two_pow_pos _)).2 hlow
    · rw [floorRank, if_neg (Nat.not_lt.2 hge), hbits, Nat.shiftRight_eq_div_pow]

/-- **Every number of quanta lies between two neighbours**, and not below the lower one. -/
theorem quantaAt_floorRank_le (q : ℕ) : quantaAt (floorRank q) ≤ q := by
  obtain ⟨exponent, leading, h, hrank, hleading⟩ := exists_floorRank_eq q
  rw [hrank, h.quantaAt_eq, hleading]
  exact Nat.div_mul_le_self q _

/-- **Every number of quanta lies between two neighbours**, below the upper one. -/
theorem lt_quantaAt_floorRank_succ (q : ℕ) : q < quantaAt (floorRank q + 1) := by
  obtain ⟨exponent, leading, h, hrank, hleading⟩ := exists_floorRank_eq q
  rw [quantaAt_succ, hrank, h.quantaAt_eq, h.stepAt_eq, hleading, ← Nat.add_one_mul]
  exact Nat.lt_mul_of_div_lt (Nat.lt_succ_self _) (Nat.two_pow_pos _)

/-- A number of quanta lies between no other neighbours. -/
theorem floorRank_eq_iff {q rank : ℕ} :
    floorRank q = rank ↔ quantaAt rank ≤ q ∧ q < quantaAt (rank + 1) := by
  constructor
  · rintro rfl
    exact ⟨quantaAt_floorRank_le q, lt_quantaAt_floorRank_succ q⟩
  · -- two intervals that share a number are one, as the list is increasing
    rintro ⟨hlow, hhigh⟩
    have hle := strictMono_quantaAt.lt_iff_lt.1 ((quantaAt_floorRank_le q).trans_lt hhigh)
    have hge := strictMono_quantaAt.lt_iff_lt.1 (hlow.trans_lt (lt_quantaAt_floorRank_succ q))
    omega

@[simp] theorem floorRank_quantaAt (rank : ℕ) : floorRank (quantaAt rank) = rank :=
  floorRank_eq_iff.2 ⟨Nat.le_refl _, strictMono_quantaAt (Nat.lt_succ_self rank)⟩

theorem monotone_floorRank : Monotone floorRank := by
  intro p q hle
  -- the lower neighbour of the smaller number is below the upper one of the larger
  have hlt : quantaAt (floorRank p) < quantaAt (floorRank q + 1) :=
    ((quantaAt_floorRank_le p).trans hle).trans_lt (lt_quantaAt_floorRank_succ q)
  exact Nat.lt_succ_iff.1 (strictMono_quantaAt.lt_iff_lt.1 hlt)

end Calculator
