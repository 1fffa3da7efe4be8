import Calculator.Proofs.Number.Shortest
import Mathlib.Data.Nat.Cast.Field

/-!
# Numbers as they are shown

A finite number is shown with a minus sign if it is less than zero, and behind it as a numeral, or,
if its size is less than `10 ^ (-4)` and not zero, as a numeral with a negative exponent.  Read as a
number it is the number that was shown, apart from the sign of a zero.

## Main definitions

* `Magnitude.Spelled` — what a finite size looks like.
* `inNumber` — the characters that a finite number is shown with.
* `Binary64.value` — what a finite number is worth.
* `Binary64.ofText` — the number that a text says.
* `Binary64.unsignedZero` — the number, without the sign of a zero.

## Main results

* `Binary64.exists_spelled` — **what a finite number looks like.**
* `Binary64.ofText_text`, `Binary64.ofText_display` — **a finite number in writing reads back.**
* `Binary64.display_eq_display_iff` — numbers that look the same are the same.
-/

namespace Calculator

/-! ### Sizes -/

theorem Decimal.isFinite_nearest_mantissa {d : Decimal} (h : 0 < d.coefficient) :
    (ofNumeral (mantissa d.digits)).nearest.isFinite = true := by
  -- a mantissa is less than ten, and ten is rounded to a finite size
  have hvalue : (ofNumeral (mantissa d.digits)).value ≤ (⟨1, 1⟩ : Decimal).value := by
    have hten : (10 : ℚ) ≠ 0 := by norm_num
    rw [(isNumeral_mantissa (digits_ne_nil h) isDigit_of_mem_digits).2, value_power]
    calc (⟨Nat.ofDigitChars 10 d.digits 0, 1 - d.digits.length⟩ : Decimal).value
        = d.value * 10 ^ (1 - d.point) := by
          rw [d.value_eq, mul_assoc, ← zpow_add₀ hten, value]
          congr 2
          ring
      _ ≤ 10 ^ d.point * 10 ^ (1 - d.point) := by
          gcongr
          exact d.value_lt.le
      _ = 10 ^ (1 : ℤ) := by
          rw [← zpow_add₀ hten, add_sub_cancel]
  have hbound : (⟨1, 1⟩ : Decimal).nearest.rank < infinityRank := by decide +kernel
  exact decide_eq_true ((nearest_mono hvalue).trans_lt hbound)

namespace Magnitude

/-- What a finite size looks like. -/
inductive Spelled (m : Magnitude) : List Char → Prop
  /-- Zero, and sizes from `10 ^ (-4)` on, are numerals that are rounded to them. -/
  | numeral {size : List Char} (hlarge : m.rank = 0 ∨ 1 / 10000 ≤ m.value)
      (hsize : IsNumeral size) (hnearest : (Decimal.ofNumeral size).nearest = m) : Spelled m size
  /-- Smaller sizes are numerals with an exponent behind them. -/
  | exponent {size digits : List Char} (hpos : 0 < m.rank) (hsmall : m.value < 1 / 10000)
      (hsize : IsNumeral size) (hfinite : (Decimal.ofNumeral size).nearest.isFinite = true)
      (hne : digits ≠ []) (hdigits : ∀ c ∈ digits, c.isDigit = true) :
      Spelled m (size ++ 'e' :: '-' :: digits)

theorem quantaPerUnit_le_of_mod_eq_zero {m : Magnitude} (h : m.quanta % quantaPerUnit = 0)
    (hpos : 0 < m.rank) : quantaPerUnit ≤ m.quanta :=
  Nat.le_of_dvd (quanta_pos hpos) (Nat.dvd_of_mod_eq_zero h)

theorem quanta_eq_zero {m : Magnitude} (h : m.rank = 0) : m.quanta = 0 := by
  rw [quanta, h, quantaAt_zero]

theorem rank_pos_of_fraction {m : Magnitude} (h : m.quanta % quantaPerUnit ≠ 0) : 0 < m.rank := by
  refine Nat.pos_of_ne_zero fun hzero => h ?_
  rw [quanta_eq_zero hzero, Nat.zero_mod]

theorem nearest_ofNumeral_toDigits {m : Magnitude} (h : m.quanta % quantaPerUnit = 0) :
    (Decimal.ofNumeral (Nat.toDigits 10 (m.quanta / quantaPerUnit))).nearest = m := by
  refine Decimal.nearest_of_value_eq ?_
  rw [ofNumeral_whole isDigit_of_mem_toDigits, Nat.ofDigitChars_ten_toDigits, Decimal.value,
    zpow_zero, mul_one, value, Nat.cast_div (Nat.dvd_of_mod_eq_zero h) quantaPerUnit_pos.ne']

theorem spelled_toDigits {m : Magnitude} (h : m.quanta % quantaPerUnit = 0) :
    m.Spelled (Nat.toDigits 10 (m.quanta / quantaPerUnit)) := by
  refine .numeral ?_ (isNumeral_toDigits _) (nearest_ofNumeral_toDigits h)
  -- a whole size is zero or at least one
  refine (Nat.eq_zero_or_pos m.rank).imp_right fun hpos => ?_
  have hle := quantaPerUnit_le_of_mod_eq_zero h hpos
  have hone : 1 ≤ m.value := by
    rw [value, one_le_div quantaPerUnit_pos]
    exact_mod_cast hle
  exact le_trans (by norm_num) hone

/-- A size with a fraction is spelled by its shortest decimal. -/
theorem spelled_shortest {m : Magnitude} (hpos : 0 < m.rank)
    (hfraction : m.quanta % quantaPerUnit ≠ 0) : m.Spelled m.shortest.text := by
  have hwritten := writtenBy_shortest hpos
  have hne := Decimal.digits_ne_nil hwritten.coefficient_pos
  have hdigits : ∀ c ∈ m.shortest.digits, c.isDigit = true := Decimal.isDigit_of_mem_digits
  have hpoint := point_shortest_le hpos hfraction
  -- how many zeros are behind the point decides between a numeral and an exponent
  by_cases hlarge : 1 / 10000 ≤ m.value
  · have hnumeral := isNumeral_positional hne hdigits m.shortest.point
    rw [Decimal.text, if_pos ⟨(lt_point_shortest_iff hpos).2 hlarge, hpoint⟩]
    refine .numeral (Or.inr hlarge) hnumeral
      ((Decimal.nearest_congr ?_).trans hwritten.nearest_eq)
    rw [value_ofNumeral_positional hne hdigits, ← Decimal.value_eq]
  · have hfew : ¬ -4 < m.shortest.point := fun h => hlarge ((lt_point_shortest_iff hpos).1 h)
    rw [Decimal.text, if_neg (fun h => hfew h.1), scientific_eq, if_pos (by omega)]
    refine .exponent hpos (not_le.1 hlarge) (isNumeral_mantissa hne hdigits).1
      (Decimal.isFinite_nearest_mantissa hwritten.coefficient_pos) ?_ ?_
    · simp
    · intro c hc
      exact (List.mem_append.1 hc).elim isDigit_of_mem_replicate (isDigit_of_mem_toDigits c)

theorem Spelled.exists_cons {m : Magnitude} {size : List Char} (h : m.Spelled size) :
    ∃ c cs, size = c :: cs ∧ c.isDigit = true := by
  cases h with
  | numeral hlarge hsize hnearest => exact hsize.exists_cons
  | exponent hpos hsmall hsize hfinite hne hdigits =>
    obtain ⟨c, cs, rfl, hc⟩ := hsize.exists_cons
    exact ⟨c, _, List.cons_append, hc⟩

end Magnitude

/-! ### Numbers -/

/-- Whether a finite number may be shown with a character. -/
def inNumber (c : Char) : Bool := inNumeral c || c == '-' || c == 'e'

theorem Magnitude.Spelled.inNumber_of_mem {m : Magnitude} {size : List Char} (h : m.Spelled size) :
    ∀ c ∈ size, inNumber c = true := by
  have hnumeral {c : Char} (hc : inNumeral c = true) : inNumber c = true := by
    rw [inNumber, hc, Bool.true_or, Bool.true_or]
  intro c hc
  cases h with
  | numeral hlarge hsize hnearest => exact hnumeral (hsize.inNumeral_of_mem hc)
  | exponent hpos hsmall hsize hfinite hne hdigits =>
    simp only [List.mem_append, List.mem_cons] at hc
    rcases hc with hc | rfl | rfl | hc
    · exact hnumeral (hsize.inNumeral_of_mem hc)
    · rfl
    · rfl
    · exact hnumeral (by rw [inNumeral, hdigits c hc, Bool.true_or])

namespace Binary64

/-- What a finite number is worth. -/
def value : Binary64 → ℚ
  | nan => 0
  | signed negative size => if negative then -size.value else size.value

@[simp] theorem abs_value_signed (negative : Bool) (size : Magnitude) :
    |(signed negative size).value| = size.value := by
  have habs : |size.value| = size.value := abs_of_nonneg size.value_nonneg
  cases negative with
  | false => exact habs
  | true => exact (abs_neg _).trans habs

/-- An integer is shown by its digits, with a minus sign if it is less than zero. -/
theorem display_of_whole {negative : Bool} {m : Magnitude} (h : m.isFinite = true)
    (hwhole : m.quanta % quantaPerUnit = 0) : (signed negative m).display.toList =
      signText (negative && m.rank != 0) ++ Nat.toDigits 10 (m.quanta / quantaPerUnit) := by
  have hnat : m.quanta / quantaPerUnit = 0 ↔ m.rank = 0 := by
    constructor
    · intro hzero
      by_contra hne
      have hle := Magnitude.quantaPerUnit_le_of_mod_eq_zero hwhole (Nat.pos_of_ne_zero hne)
      exact (Nat.div_pos hle (by decide)).ne' hzero
    · intro hzero
      rw [Magnitude.quanta_eq_zero hzero, Nat.zero_div]
  have hinteger : (signed negative m).whole? =
      some (if negative then -((m.quanta / quantaPerUnit : ℕ) : ℤ)
        else (m.quanta / quantaPerUnit : ℕ)) := by
    simp [whole?, h, hwhole]
  unfold display
  rw [hinteger]
  -- from here on only whether the integer is zero matters
  generalize m.quanta / quantaPerUnit = n at hnat ⊢
  cases negative with
  | false => simp [signText]
  | true =>
    by_cases hrank : m.rank = 0
    · simp [signText, hrank, hnat.2 hrank]
    · have hpos : 0 < n := Nat.pos_of_ne_zero fun hzero => hrank (hnat.1 hzero)
      simp [signText, hrank, hpos]

theorem display_of_fraction {negative : Bool} {m : Magnitude}
    (hfraction : m.quanta % quantaPerUnit ≠ 0) :
    (signed negative m).display = (signed negative m).text := by
  have hnone : (signed negative m).whole? = none := by simp [whole?, hfraction]
  rw [display, hnone]

theorem toList_text {negative : Bool} {m : Magnitude} (h : m.isFinite = true) (hpos : 0 < m.rank) :
    (signed negative m).text.toList = signText negative ++ m.shortest.text := by
  have hne : m ≠ .zero := by
    rintro rfl
    cases hpos
  rw [text, String.toList_ofList, if_neg hne, if_pos h]

/-- **What a finite number looks like**: a minus sign if it is less than zero, and its size. -/
theorem exists_spelled (negative : Bool) {m : Magnitude} (h : m.isFinite = true) :
    ∃ size, (signed negative m).display.toList = signText (negative && m.rank != 0) ++ size ∧
      m.Spelled size := by
  by_cases hwhole : m.quanta % quantaPerUnit = 0
  · exact ⟨_, display_of_whole h hwhole, m.spelled_toDigits hwhole⟩
  · have hpos := Magnitude.rank_pos_of_fraction hwhole
    refine ⟨_, ?_, m.spelled_shortest hpos hwhole⟩
    have hsign : (m.rank != 0) = true := bne_iff_ne.2 hpos.ne'
    rw [display_of_fraction hwhole, toList_text h hpos, hsign, Bool.and_true]

theorem inNumber_of_mem_display {x : Binary64} (h : x.isFinite = true) :
    x.display.toList ≠ [] ∧ ∀ c ∈ x.display.toList, inNumber c = true := by
  cases x with
  | nan => cases h
  | signed negative m =>
    obtain ⟨size, hdisplay, hsize⟩ := exists_spelled negative h
    rw [hdisplay]
    refine ⟨?_, ?_⟩
    · obtain ⟨c, cs, rfl, -⟩ := hsize.exists_cons
      simp
    · intro c hc
      rcases List.mem_append.1 hc with hsign | hc
      · unfold signText at hsign
        split at hsign
        · rw [List.mem_singleton.1 hsign]
          rfl
        · cases hsign
      · exact hsize.inNumber_of_mem c hc

/-! ### Reading back -/

/-- The number that a text says: it may have a minus sign, and is rounded to the nearest. -/
def ofText : List Char → Binary64
  | '-' :: size => signed true (Decimal.ofText size).nearest
  | size => signed false (Decimal.ofText size).nearest

/-- The number, without the sign of a zero. -/
def unsignedZero (x : Binary64) : Binary64 := if x.isZero then signed false .zero else x

theorem ofText_signText_append {size : List Char} (h : ∃ c cs, size = c :: cs ∧ c.isDigit = true)
    (negative : Bool) :
    ofText (signText negative ++ size) = signed negative (Decimal.ofText size).nearest := by
  obtain ⟨c, cs, rfl, hc⟩ := h
  cases negative with
  | true => rfl
  | false =>
    unfold ofText
    split
    · rename_i heq
      obtain rfl : c = '-' := (List.cons.inj heq).1
      cases hc
    · rfl

/-- **A finite number in writing reads back.** -/
theorem ofText_text {x : Binary64} (h : x.isFinite = true) : ofText x.text.toList = x := by
  cases x with
  | nan => cases h
  | signed negative m =>
    rcases Nat.eq_zero_or_pos m.rank with hzero | hpos
    · obtain rfl : m = .zero := Magnitude.rank_injective hzero
      have hsize : (Decimal.ofText ['0', '.', '0']).nearest = .zero := by decide +kernel
      rw [text, if_pos rfl, String.toList_ofList,
        ofText_signText_append ⟨_, _, rfl, rfl⟩, hsize]
    · have hwritten := Magnitude.writtenBy_shortest hpos
      have hcoefficient := hwritten.coefficient_pos
      rw [toList_text h hpos, ofText_signText_append (Decimal.exists_cons_text hcoefficient),
        Decimal.nearest_congr (Decimal.value_ofText_text hcoefficient), hwritten.nearest_eq]

theorem unsignedZero_signed (negative : Bool) (m : Magnitude) :
    (signed negative m).unsignedZero = signed (negative && m.rank != 0) m := by
  by_cases hzero : m.rank = 0
  · obtain rfl : m = .zero := Magnitude.rank_injective hzero
    cases negative <;> rfl
  · simp [unsignedZero, isZero, hzero]

/-- **A finite number that is shown reads back**, without the sign of a zero. -/
theorem ofText_display {x : Binary64} (h : x.isFinite = true) :
    ofText x.display.toList = x.unsignedZero := by
  cases x with
  | nan => cases h
  | signed negative m =>
    by_cases hwhole : m.quanta % quantaPerUnit = 0
    · have hnumeral := isNumeral_toDigits (m.quanta / quantaPerUnit)
      rw [display_of_whole h hwhole, ofText_signText_append hnumeral.exists_cons,
        Decimal.ofText_of_isNumeral hnumeral, Magnitude.nearest_ofNumeral_toDigits hwhole,
        unsignedZero_signed]
    · have hsign : (m.rank != 0) = true := bne_iff_ne.2
        (Magnitude.rank_pos_of_fraction hwhole).ne'
      rw [display_of_fraction hwhole, ofText_text h, unsignedZero_signed, hsign, Bool.and_true]

/-- The sign of a zero is not shown. -/
theorem display_unsignedZero (x : Binary64) : x.unsignedZero.display = x.display := by
  cases x with
  | nan => rfl
  | signed negative m =>
    by_cases hzero : m.rank = 0
    · obtain rfl : m = .zero := Magnitude.rank_injective hzero
      cases negative <;> decide +kernel
    · simp [unsignedZero, isZero, hzero]

theorem unsignedZero_eq_iff {x y : Binary64} (hx : x.isFinite = true) :
    x.unsignedZero = y.unsignedZero ↔ x.sameNumber y = true := by
  cases x with
  | nan => cases hx
  | signed s a =>
    cases y with
    | nan =>
      rw [unsignedZero_signed]
      constructor <;> intro h <;> cases h
    | signed t b =>
      rw [unsignedZero_signed, unsignedZero_signed, sameNumber]
      -- the ranks tell the sizes, and the signs matter unless both are zero
      by_cases hrank : a.rank = b.rank
      · obtain rfl : a = b := Magnitude.rank_injective hrank
        by_cases hzero : a.rank = 0
        · simp [hzero]
        · have hsign : (a.rank != 0) = true := bne_iff_ne.2 hzero
          simp [hzero, hsign]
      · have hne : a ≠ b := fun h => hrank (congrArg Magnitude.rank h)
        simp [hrank, hne]

/-- **Equal numbers look the same, and no others do.** -/
theorem display_eq_display_iff {x y : Binary64} (hx : x.isFinite = true) (hy : y.isFinite = true) :
    x.display = y.display ↔ x.sameNumber y = true := by
  rw [← unsignedZero_eq_iff hx]
  constructor
  · intro h
    -- what is shown is read back
    rw [← ofText_display hx, ← ofText_display hy, h]
  · intro h
    rw [← display_unsignedZero x, ← display_unsignedZero y, h]

end Binary64

end Calculator
