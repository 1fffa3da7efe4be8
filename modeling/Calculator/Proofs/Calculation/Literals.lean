import Calculator.Proofs.Calculation.Overflow
import Calculator.Proofs.Number.Rounding

/-!
# The literals of a text

However long a numeral is, the scan takes the number nearest to what the numeral is worth, or finds
a fault if that is too large for a number.  So the literals of an expression that is read from a
text are finite and have no sign.

## Main definitions

* `numeralValue` — what a numeral is worth.
* `Piece.OfNumeral` — what becomes of a numeral.

## Main results

* `Decimal.value_ofNumeral` — the decimal that a numeral says is worth what the numeral is.
* `Piece.Fits.ofNumeral` — what may be a piece where a numeral stands.
* `numerals_rounded` — **numerals are rounded correctly, or found to be too large.**
-/

namespace Calculator

/-! ### What a numeral is worth -/

/-- What a numeral is worth: the digits in front of the point count ones, and those behind it count
parts of one. -/
def numeralValue (numeral : List Char) : ℚ :=
  let whole := numeral.takeWhile Char.isDigit
  let places := (numeral.dropWhile Char.isDigit).drop 1
  Nat.ofDigitChars 10 whole 0 + Nat.ofDigitChars 10 places 0 / 10 ^ places.length

theorem numeralValue_whole {digits : List Char} (hdigits : ∀ c ∈ digits, c.isDigit = true) :
    numeralValue digits = Nat.ofDigitChars 10 digits 0 := by
  have hdrop : digits.dropWhile Char.isDigit = [] := List.dropWhile_eq_nil_iff.2 hdigits
  have htake : digits.takeWhile Char.isDigit = digits := List.takeWhile_eq_self_iff.2 hdigits
  simp [numeralValue, hdrop, htake]

theorem numeralValue_fraction {digits places : List Char}
    (hdigits : ∀ c ∈ digits, c.isDigit = true) :
    numeralValue (digits ++ '.' :: places) =
      Nat.ofDigitChars 10 digits 0 + Nat.ofDigitChars 10 places 0 / 10 ^ places.length := by
  have htake : (digits ++ '.' :: places).takeWhile Char.isDigit = digits :=
    takeWhile_append_of_head hdigits (by simp)
  have hdrop : (digits ++ '.' :: places).dropWhile Char.isDigit = '.' :: places :=
    dropWhile_append_of_head hdigits (by simp)
  simp [numeralValue, hdrop, htake]

theorem Decimal.value_ofNumeral {numeral : List Char} (h : IsNumeral numeral) :
    (ofNumeral numeral).value = numeralValue numeral := by
  cases h with
  | whole hne hdigits =>
    rw [ofNumeral_whole hdigits, numeralValue_whole hdigits, value, zpow_zero, mul_one]
  | @fraction digits places hne hdigits hplaces =>
    -- the digits behind the point move those in front of it up by as many places
    have hcoefficient : (Nat.ofDigitChars 10 (digits ++ places) 0 : ℚ) =
        10 ^ places.length * Nat.ofDigitChars 10 digits 0 + Nat.ofDigitChars 10 places 0 := by
      rw [Nat.ofDigitChars_append, Nat.ofDigitChars_eq_ofDigitChars_zero]
      push_cast
      rfl
    rw [ofNumeral_fraction hdigits, numeralValue_fraction hdigits, value, hcoefficient, zpow_neg,
      zpow_natCast]
    field_simp

/-! ### What becomes of a numeral -/

/-- What becomes of a numeral in the given place: a token with the number nearest to what it is
worth, or a fault if that is too large. -/
inductive Piece.OfNumeral (numeral : List Char) (l : Location) : Piece → Prop
  | number {size : Magnitude} (hbound : numeralValue numeral < overflowBound)
      (hnearest : (Binary64.signed false size).IsNearest (numeralValue numeral)) :
      OfNumeral numeral l (.ok ⟨.number, String.ofList numeral, some (.signed false size), l⟩)
  | overflow (hbound : overflowBound ≤ numeralValue numeral) :
      OfNumeral numeral l (.error ⟨.numeralOverflow (String.ofList numeral), l⟩)

theorem isFinite_ofNumeral_iff {numeral : List Char} (h : IsNumeral numeral) :
    (Decimal.ofNumeral numeral).nearest.isFinite = true ↔ numeralValue numeral < overflowBound := by
  rw [Decimal.isFinite_nearest_iff, Decimal.value_ofNumeral h]

/-- **What may be a piece where a numeral stands** is what becomes of the numeral. -/
theorem Piece.Fits.ofNumeral {p : Piece} {rest : List Char} (h : p.Fits rest)
    (hnumeral : IsNumeral p.characters) : p.OfNumeral p.characters p.location := by
  obtain ⟨c, cs, hchars, hdigit⟩ := hnumeral.exists_cons
  cases h with
  | @number lexeme _ l hlexeme hfinite =>
    have hbound := (isFinite_ofNumeral_iff hlexeme.numeral).1 hfinite
    rw [characters, String.toList_ofList]
    refine .number hbound ?_
    rw [← Decimal.value_ofNumeral hlexeme.numeral] at hbound ⊢
    exact Decimal.isNearest_nearest hbound
  | @overflow lexeme _ l hlexeme hinfinite =>
    rw [characters, String.toList_ofList]
    refine .overflow (not_lt.1 fun hbound => ?_)
    rw [(isFinite_ofNumeral_iff hlexeme.numeral).2 hbound] at hinfinite
    cases hinfinite
  | @symbol d kind _ l hkind =>
    -- symbols are no digits, and unexpected characters are none either
    rw [characters, Char.toString_eq_singleton, String.toList_singleton] at hchars
    obtain ⟨rfl, -⟩ := List.cons.inj hchars
    rw [isDigit_of_ofSymbol? hkind] at hdigit
    cases hdigit
  | unexpected hblank hnone hkind =>
    rw [characters] at hchars
    obtain ⟨rfl, -⟩ := List.cons.inj hchars
    rw [hnone] at hdigit
    cases hdigit

theorem LongestNumeral.exists_fits {lexeme rest : List Char} (h : LongestNumeral lexeme rest)
    (l : Location) :
    ∃ p : Piece, p.Fits rest ∧ p.characters = lexeme ∧ p.location = l := by
  by_cases hfinite : (Decimal.ofNumeral lexeme).nearest.isFinite = true
  · exact ⟨_, .number h hfinite, String.toList_ofList, rfl⟩
  · exact ⟨_, .overflow h (Bool.not_eq_true _ ▸ hfinite), String.toList_ofList, rfl⟩

/-- **A scanner in front of a numeral** takes what becomes of it, and the scan goes on behind it. -/
theorem Scanner.exists_ofNumeral (name : String) {s : Scanner} {lexeme rest : List Char}
    (hahead : s.ahead = lexeme ++ rest) (h : LongestNumeral lexeme rest) :
    ∃ p after, p.OfNumeral lexeme (s.location name) ∧ s.next? name = some (p, after) ∧
      (s.pieces name).1 = p :: ((s.advanceBy lexeme.length).pieces name).1 := by
  obtain ⟨p, hfits, rfl, hlocation⟩ := h.exists_fits (s.location name)
  obtain ⟨after, hnext, -⟩ := next?_of_fits hahead hfits hlocation
  have hpieces : s.Tiled name (p :: ((s.advanceBy p.characters.length).pieces name).1) :=
    .cons hahead hfits hlocation (tiled_pieces name _)
  exact ⟨p, after, hlocation ▸ hfits.ofNumeral h.numeral, hnext, hpieces.pieces_eq⟩

/-- No two pieces of a tiling begin in the same place. -/
theorem Scanner.Tiled.eq_of_offset_eq {name : String} {s : Scanner} {pieces : List Piece}
    (h : Tiled name s pieces) {p q : Piece} (hp : p ∈ pieces) (hq : q ∈ pieces)
    (hoffset : q.location.offset = p.location.offset) : q = p := by
  obtain ⟨before, -, -, hplace, -⟩ := h.stands hp
  -- a piece covers the character where it begins, and no two pieces cover one
  have hcovers {r : Piece} (hr : r ∈ pieces) (hsame : r.location.offset = p.location.offset) :
      r.Covers (s.position.offset + before.length) := by
    obtain ⟨_, _, _, _, hfits⟩ := h.stands hr
    have hpos := hfits.length_pos
    rw [Piece.Covers, Piece.stop]
    omega
  exact eq_of_covers h.ordered hp hq (hcovers hp rfl) (hcovers hq hoffset)

/-- **Numerals are rounded correctly, or found to be too large.**  A scanner in front of a numeral
takes what becomes of it, in a single step and as the first piece of a scan.  Wherever a scan of a
text has found a numeral it has found what becomes of that, and nothing else in the same place.  So
the literals of an expression that is read from a text are finite and have no sign. -/
theorem numerals_rounded :
    (∀ (name : String) (s : Scanner) (lexeme rest : List Char), s.ahead = lexeme ++ rest →
      LongestNumeral lexeme rest →
        ∃ p after, p.OfNumeral lexeme (s.location name) ∧ s.next? name = some (p, after) ∧
          (s.pieces name).1 = p :: ((s.advanceBy lexeme.length).pieces name).1) ∧
      (∀ (name text : String), ∀ p ∈ (scan name text).merged, IsNumeral p.characters →
        p.OfNumeral p.characters p.location ∧
          ∀ q ∈ (scan name text).merged, q.location.offset = p.location.offset → q = p) ∧
      ∀ (name text : String) (tokens : List Token) (tree : Expr Binary64),
        Reads name text tokens tree → ∀ value span, .literal value span ∈ tree.nodes →
          ∃ size : Magnitude, value = .signed false size ∧ size.isFinite = true := by
  refine ⟨?_, ?_, ?_⟩
  · intro name s lexeme rest hahead h
    exact Scanner.exists_ofNumeral name hahead h
  · intro name text p hp hnumeral
    rw [merged_scan] at hp ⊢
    have htiled := Scanner.tiled_pieces name (.ofText text)
    obtain ⟨before, after, -, -, hfits⟩ := htiled.stands hp
    refine ⟨hfits.ofNumeral hnumeral, ?_⟩
    intro q hq hoffset
    exact htiled.eq_of_offset_eq hp hq hoffset
  · intro name text tokens tree h value span hmem
    exact h.exists_size_of_literal hmem

end Calculator
