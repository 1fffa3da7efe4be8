import Calculator.Number.Shortest
import Calculator.Proofs.Number.Nearest
import Calculator.Proofs.Scan.Joining
import Mathlib.Data.List.DropRight

/-!
# Decimals in writing

What a decimal is written as says what it is worth: digits with a point among them are a numeral of
that value, and an exponent behind them multiplies the numeral by a power of ten.

## Main definitions

* `mantissa` — the digits in front of an exponent.
* `Decimal.ofText` — the decimal that a text says.

## Main results

* `Decimal.value_eq` — what a decimal is worth, by its digits and its point.
* `Decimal.le_value`, `Decimal.value_lt` — where the point stands says how large a decimal is.
* `isNumeral_positional`, `value_ofNumeral_positional` — digits with a point among them.
* `Decimal.value_ofText_text` — **a decimal in writing says what the decimal is worth.**
-/

namespace Calculator

/-! ### Digits and the point -/

theorem isDigit_of_mem_toDigits {n : ℕ} : ∀ c ∈ Nat.toDigits 10 n, c.isDigit = true :=
  fun _ => Nat.isDigit_of_mem_toDigits (by decide) (by decide)

namespace Decimal

theorem isDigit_of_mem_digits {d : Decimal} : ∀ c ∈ d.digits, c.isDigit = true := by
  intro c h
  rw [digits, List.mem_reverse] at h
  exact isDigit_of_mem_toDigits c (List.mem_reverse.1 ((List.dropWhile_sublist _).mem h))

theorem exists_toDigits_eq (d : Decimal) :
    ∃ zeros, Nat.toDigits 10 d.coefficient = d.digits ++ List.replicate zeros '0' := by
  have hsplit : d.digits ++ (Nat.toDigits 10 d.coefficient).rtakeWhile (· == '0') =
      Nat.toDigits 10 d.coefficient := List.rdropWhile_append_rtakeWhile
  refine ⟨_, hsplit.symm.trans (congrArg (d.digits ++ ·) (List.eq_replicate_iff.2 ⟨rfl, ?_⟩))⟩
  intro c hc
  exact beq_iff_eq.1 (List.mem_rtakeWhile_imp (p := (· == '0')) hc)

/-- **What a decimal is worth**, by its digits and its point. -/
theorem value_eq (d : Decimal) :
    d.value = Nat.ofDigitChars 10 d.digits 0 * 10 ^ (d.point - d.digits.length) := by
  obtain ⟨zeros, hdigits⟩ := d.exists_toDigits_eq
  have hcoefficient : d.coefficient = 10 ^ zeros * Nat.ofDigitChars 10 d.digits 0 := by
    rw [← Nat.ofDigitChars_replicate_zero, ← Nat.ofDigitChars_append, ← hdigits,
      Nat.ofDigitChars_ten_toDigits]
  have hpoint : d.point - d.digits.length = zeros + d.exponent := by
    rw [point, hdigits, List.length_append, List.length_replicate]
    push_cast
    ring
  -- the zeros behind the digits are a power of ten
  rw [value, hpoint, hcoefficient, zpow_add₀ (by norm_num), zpow_natCast]
  push_cast
  ring

theorem digits_ne_nil {d : Decimal} (h : 0 < d.coefficient) : d.digits ≠ [] := by
  intro hnil
  have hvalue := d.value_eq
  rw [hnil, Nat.ofDigitChars_nil, Nat.cast_zero, zero_mul] at hvalue
  exact (value_pos_iff.2 h).ne' hvalue

/-- Where the point stands says how large a decimal is, here from below. -/
theorem le_value {d : Decimal} (h : 0 < d.coefficient) : (10 : ℚ) ^ (d.point - 1) ≤ d.value := by
  obtain ⟨k, hk⟩ : ∃ k, (Nat.toDigits 10 d.coefficient).length = k + 1 :=
    Nat.exists_eq_add_one_of_ne_zero Nat.length_toDigits_pos.ne'
  -- a number with `k + 1` digits is at least `10 ^ k`
  have hcoefficient : 10 ^ k ≤ d.coefficient := by
    rcases Nat.eq_zero_or_pos k with rfl | hpos
    · exact h
    · refine Nat.not_lt.1 fun hlt => ?_
      have hlength := (Nat.length_toDigits_le_iff (by decide) hpos).2 hlt
      omega
  have hpoint : d.point - 1 = k + d.exponent := by
    rw [point, hk]
    push_cast
    ring
  rw [value, hpoint, zpow_add₀ (by norm_num), zpow_natCast]
  gcongr
  exact_mod_cast hcoefficient

theorem value_power (exponent : ℤ) : (⟨1, exponent⟩ : Decimal).value = 10 ^ exponent := by
  rw [value, Nat.cast_one, one_mul]

theorem value_power_le {d : Decimal} (h : 0 < d.coefficient) {exponent : ℤ}
    (hexponent : exponent < d.point) : (⟨1, exponent⟩ : Decimal).value ≤ d.value := by
  refine le_trans ?_ (le_value h)
  rw [value_power]
  exact zpow_le_zpow_right₀ (by norm_num) (Int.le_sub_one_of_lt hexponent)

theorem value_lt (d : Decimal) : d.value < 10 ^ d.point := by
  have hcoefficient : d.coefficient < 10 ^ (Nat.toDigits 10 d.coefficient).length :=
    (Nat.length_toDigits_le_iff (by decide) Nat.length_toDigits_pos).1 (Nat.le_refl _)
  rw [value, point, zpow_add₀ (by norm_num), zpow_natCast]
  gcongr
  exact_mod_cast hcoefficient

end Decimal

/-! ### Numerals -/

theorem isNumeral_toDigits (n : ℕ) : IsNumeral (Nat.toDigits 10 n) :=
  .whole Nat.toDigits_ne_nil isDigit_of_mem_toDigits

theorem ofNumeral_whole {digits : List Char} (hdigits : ∀ c ∈ digits, c.isDigit = true) :
    Decimal.ofNumeral digits = ⟨Nat.ofDigitChars 10 digits 0, 0⟩ := by
  have hdrop : digits.dropWhile Char.isDigit = [] := List.dropWhile_eq_nil_iff.2 hdigits
  have htake : digits.takeWhile Char.isDigit = digits := List.takeWhile_eq_self_iff.2 hdigits
  simp [Decimal.ofNumeral, hdrop, htake]

theorem ofNumeral_fraction {digits places : List Char} (hdigits : ∀ c ∈ digits, c.isDigit = true) :
    Decimal.ofNumeral (digits ++ '.' :: places) =
      ⟨Nat.ofDigitChars 10 (digits ++ places) 0, -places.length⟩ := by
  have htake : (digits ++ '.' :: places).takeWhile Char.isDigit = digits :=
    takeWhile_append_of_head hdigits (by simp)
  have hdrop : (digits ++ '.' :: places).dropWhile Char.isDigit = '.' :: places :=
    dropWhile_append_of_head hdigits (by simp)
  simp [Decimal.ofNumeral, hdrop, htake]

theorem isDigit_of_mem_replicate {k : ℕ} {c : Char} (h : c ∈ List.replicate k '0') :
    c.isDigit = true := by
  rw [List.eq_of_mem_replicate h]
  rfl

/-- In front of the digits: zeros fill the space behind the point. -/
theorem positional_neg (digits : List Char) (k : ℕ) :
    positional digits (-k) = ['0'] ++ '.' :: (List.replicate k '0' ++ digits) := by
  rw [positional, if_pos (by omega), neg_neg, Int.toNat_natCast]
  rfl

theorem positional_of_lt {digits : List Char} {k : ℕ} (hpos : 0 < k) (hlt : k < digits.length) :
    positional digits k = digits.take k ++ '.' :: digits.drop k := by
  have hspace : k - digits.length = 0 := by omega
  have hafter : (digits.drop k).isEmpty = false := by
    rw [List.isEmpty_eq_false_iff, ← List.length_pos_iff, List.length_drop]
    omega
  rw [positional, if_neg (by omega), Int.toNat_natCast]
  simp [hspace, hafter]

/-- Behind the digits: zeros fill the space in front of the point. -/
theorem positional_of_le {digits : List Char} {k : ℕ} (hpos : 0 < k) (hle : digits.length ≤ k) :
    positional digits k =
      (digits ++ List.replicate (k - digits.length) '0') ++ '.' :: ['0'] := by
  have hbefore : (digits ++ List.replicate (k - digits.length) '0').length = k := by
    rw [List.length_append, List.length_replicate]
    omega
  rw [positional, if_neg (by omega), Int.toNat_natCast]
  simp [List.take_of_length_le hbefore.le, List.drop_of_length_le hle]

/-- Digits with a point among them are digits, a point and more digits, which are worth what the
place of the point says. -/
theorem exists_positional_eq {digits : List Char} (hne : digits ≠ [])
    (hdigits : ∀ c ∈ digits, c.isDigit = true) (point : ℤ) :
    ∃ whole places, positional digits point = whole ++ '.' :: places ∧ whole ≠ [] ∧
      (∀ c ∈ whole, c.isDigit = true) ∧ (∀ c ∈ places, c.isDigit = true) ∧
      Decimal.value ⟨Nat.ofDigitChars 10 (whole ++ places) 0, -places.length⟩ =
        Nat.ofDigitChars 10 digits 0 * 10 ^ (point - digits.length) := by
  -- the point stands in front of the digits, among them, or behind them
  rcases le_or_gt point 0 with hpoint | hpoint
  · obtain ⟨k, rfl⟩ : ∃ k : ℕ, point = -k := ⟨(-point).toNat, by omega⟩
    refine ⟨_, _, positional_neg digits k, by simp, fun c => isDigit_of_mem_replicate (k := 1), ?_,
      ?_⟩
    · intro c hc
      exact (List.mem_append.1 hc).elim isDigit_of_mem_replicate (hdigits c)
    · have hexponent : -((List.replicate k '0' ++ digits).length : ℤ) = -k - digits.length := by
        rw [List.length_append, List.length_replicate]
        push_cast
        ring
      have hzeros : Nat.ofDigitChars 10 (['0'] ++ (List.replicate k '0' ++ digits)) 0 =
          Nat.ofDigitChars 10 digits 0 := by
        rw [Nat.ofDigitChars_append, Nat.ofDigitChars_append, Nat.ofDigitChars_replicate_zero]
        rfl
      rw [Decimal.value, hexponent, hzeros]
  · obtain ⟨k, rfl⟩ : ∃ k : ℕ, point = k := ⟨point.toNat, by omega⟩
    have hpos : 0 < k := by omega
    rcases Nat.lt_or_ge k digits.length with hlt | hge
    · refine ⟨_, _, positional_of_lt hpos hlt, ?_, ?_, ?_, ?_⟩
      · rw [← List.length_pos_iff, List.length_take]
        omega
      · exact fun c hc => hdigits c (List.mem_of_mem_take hc)
      · exact fun c hc => hdigits c (List.mem_of_mem_drop hc)
      · have hexponent : -((digits.drop k).length : ℤ) = k - digits.length := by
          rw [List.length_drop]
          omega
        rw [Decimal.value, hexponent, List.take_append_drop]
    · refine ⟨_, _, positional_of_le hpos hge, by simp [hne], ?_,
        fun c => isDigit_of_mem_replicate (k := 1), ?_⟩
      · intro c hc
        exact (List.mem_append.1 hc).elim (hdigits c) isDigit_of_mem_replicate
      · have hexponent : (k : ℤ) - digits.length = (k - digits.length : ℕ) := by omega
        have hlast (n : ℕ) : Nat.ofDigitChars 10 ['0'] n = 10 * n := rfl
        rw [Decimal.value, hexponent, Nat.ofDigitChars_append, Nat.ofDigitChars_append,
          Nat.ofDigitChars_replicate_zero, hlast, zpow_natCast]
        push_cast
        rw [List.length_singleton, Nat.cast_one, zpow_neg_one]
        ring

theorem isNumeral_positional {digits : List Char} (hne : digits ≠ [])
    (hdigits : ∀ c ∈ digits, c.isDigit = true) (point : ℤ) :
    IsNumeral (positional digits point) := by
  obtain ⟨whole, places, heq, hwhole, hbefore, hafter, -⟩ :=
    exists_positional_eq hne hdigits point
  rw [heq]
  exact .fraction hwhole hbefore hafter

theorem value_ofNumeral_positional {digits : List Char} (hne : digits ≠ [])
    (hdigits : ∀ c ∈ digits, c.isDigit = true) (point : ℤ) :
    (Decimal.ofNumeral (positional digits point)).value =
      Nat.ofDigitChars 10 digits 0 * 10 ^ (point - digits.length) := by
  obtain ⟨whole, places, heq, -, hbefore, -, hvalue⟩ := exists_positional_eq hne hdigits point
  rw [heq, ofNumeral_fraction hbefore, hvalue]

/-! ### Exponents -/

/-- The digits in front of an exponent, with a point behind the first if there are more. -/
def mantissa (digits : List Char) : List Char :=
  digits.take 1 ++ (if digits.length ≤ 1 then [] else '.' :: digits.drop 1)

/-- A mantissa is a numeral, which is worth what its digits are with the point behind the first of
them. -/
theorem isNumeral_mantissa {digits : List Char} (hne : digits ≠ [])
    (hdigits : ∀ c ∈ digits, c.isDigit = true) :
    IsNumeral (mantissa digits) ∧ Decimal.ofNumeral (mantissa digits) =
      ⟨Nat.ofDigitChars 10 digits 0, 1 - digits.length⟩ := by
  obtain ⟨c, cs, rfl⟩ := List.exists_cons_of_ne_nil hne
  cases cs with
  | nil => exact ⟨.whole hne hdigits, ofNumeral_whole hdigits⟩
  | cons d ds =>
    have hfirst : ∀ b ∈ [c], b.isDigit = true :=
      List.forall_mem_singleton.2 (List.forall_mem_cons.1 hdigits).1
    have hplaces : ∀ b ∈ d :: ds, b.isDigit = true := (List.forall_mem_cons.1 hdigits).2
    have heq : mantissa (c :: d :: ds) = [c] ++ '.' :: d :: ds := by simp [mantissa]
    rw [heq]
    refine ⟨.fraction (by simp) hfirst hplaces, ?_⟩
    rw [ofNumeral_fraction hfirst]
    simp

/-- Digits with an exponent are a mantissa and a signed number. -/
theorem scientific_eq (digits : List Char) (point : ℤ) :
    scientific digits point = mantissa digits ++ 'e' :: (if point < 1 then '-' else '+') ::
      (List.replicate (2 - (Nat.toDigits 10 (point - 1).natAbs).length) '0' ++
        Nat.toDigits 10 (point - 1).natAbs) := by
  simp [scientific, mantissa]

namespace Decimal

/-- The decimal that a text says: a numeral, and behind an `e` the power of ten that multiplies
it. -/
def ofText (text : List Char) : Decimal :=
  let numeral := ofNumeral (text.takeWhile (· != 'e'))
  match (text.dropWhile (· != 'e')).drop 1 with
  | '-' :: digits => ⟨numeral.coefficient, numeral.exponent - Nat.ofDigitChars 10 digits 0⟩
  | '+' :: digits => ⟨numeral.coefficient, numeral.exponent + Nat.ofDigitChars 10 digits 0⟩
  | _ => numeral

theorem ne_e_of_isNumeral {numeral : List Char} (h : IsNumeral numeral) :
    ∀ c ∈ numeral, (c != 'e') = true := by
  intro c hc
  refine bne_iff_ne.2 ?_
  rintro rfl
  cases h.inNumeral_of_mem hc

/-- Without an exponent a text says what its numeral says. -/
theorem ofText_of_isNumeral {numeral : List Char} (h : IsNumeral numeral) :
    ofText numeral = ofNumeral numeral := by
  have hall := ne_e_of_isNumeral h
  have htake : numeral.takeWhile (· != 'e') = numeral := List.takeWhile_eq_self_iff.2 hall
  have hdrop : numeral.dropWhile (· != 'e') = [] := List.dropWhile_eq_nil_iff.2 hall
  simp [ofText, htake, hdrop]

/-- With an exponent it says the multiple of what its numeral says. -/
theorem ofText_append {numeral digits : List Char} (h : IsNumeral numeral) (p : Prop)
    [Decidable p] :
    ofText (numeral ++ 'e' :: (if p then '-' else '+') :: digits) =
      ⟨(ofNumeral numeral).coefficient, (ofNumeral numeral).exponent +
        if p then -(Nat.ofDigitChars 10 digits 0 : ℤ) else Nat.ofDigitChars 10 digits 0⟩ := by
  have hall := ne_e_of_isNumeral h
  unfold ofText
  rw [takeWhile_append_of_head hall (by simp), List.dropWhile_append_of_pos hall]
  by_cases hp : p <;> simp [hp, Int.sub_eq_add_neg]

theorem exists_cons_text {d : Decimal} (h : 0 < d.coefficient) :
    ∃ c cs, d.text = c :: cs ∧ c.isDigit = true := by
  have hne := digits_ne_nil h
  have hdigits : ∀ c ∈ d.digits, c.isDigit = true := isDigit_of_mem_digits
  rw [text]
  split
  · exact (isNumeral_positional hne hdigits _).exists_cons
  · obtain ⟨c, cs, hmantissa, hc⟩ := (isNumeral_mantissa hne hdigits).1.exists_cons
    rw [scientific_eq, hmantissa]
    exact ⟨c, _, List.cons_append, hc⟩

/-- **A decimal in writing says what the decimal is worth.** -/
theorem value_ofText_text {d : Decimal} (h : 0 < d.coefficient) :
    (ofText d.text).value = d.value := by
  have hne := digits_ne_nil h
  have hdigits : ∀ c ∈ d.digits, c.isDigit = true := isDigit_of_mem_digits
  rw [d.value_eq, text]
  split
  · rw [ofText_of_isNumeral (isNumeral_positional hne hdigits _),
      value_ofNumeral_positional hne hdigits]
  · obtain ⟨hnumeral, hvalue⟩ := isNumeral_mantissa hne hdigits
    -- the exponent that is written moves the point back from behind the first digit
    have hexponent : (1 - d.digits.length : ℤ) +
        (if d.point < 1 then -((d.point - 1).natAbs : ℤ) else (d.point - 1).natAbs) =
        d.point - d.digits.length := by
      split <;> omega
    rw [scientific_eq, ofText_append hnumeral, hvalue, Nat.ofDigitChars_append,
      Nat.ofDigitChars_replicate_zero, Nat.mul_zero, Nat.ofDigitChars_ten_toDigits, value,
      hexponent]

end Decimal

end Calculator
