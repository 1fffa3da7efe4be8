import Calculator.Proofs.Calculation.Composition
import Calculator.Proofs.Number.Display

/-!
# Calculating what is shown

The text that a finite number is shown as is a calculation again.  If it is a numeral, with or
without a minus sign, then its result is the number; if it has an exponent, then no token begins
with the `e`, and the calculation fails there.

## Main results

* `outcome_numeral` — the calculation of a numeral with a minus sign or without.
* `tokenize_eq_error_of_tiled` — the fault of a text behind its first tokens.
* `tokenize_exponent` — an exponent is not read.
* `outcome_display` — **what is shown calculates to what it shows**, or to a fault at its exponent.
-/

namespace Calculator

/-! ### Numerals -/

theorem Scanner.Tiled.last_numeral {name : String} {s : Scanner} {lexeme : List Char}
    (hahead : s.ahead = lexeme) (hlexeme : IsNumeral lexeme)
    (hfinite : (Decimal.ofNumeral lexeme).nearest.isFinite = true) :
    s.Tiled name [.ok (.ofNumeral lexeme (s.location name))] := by
  have hend : (s.advanceBy lexeme.length).ahead = [] := by
    rw [ahead_advanceBy, hahead, List.drop_length]
  refine .numeral (by rw [hahead, List.append_nil]) (hlexeme.longest (by simp)) hfinite
    (.finish ?_)
  rw [hend]
  exact fun c hc => absurd hc List.not_mem_nil

/-- A numeral, with a minus sign or without, is an expression of its value. -/
theorem exists_derivation_of_numeral (name : String) {text : String} {negative : Bool}
    {lexeme : List Char} (htext : text.toList = Binary64.signText negative ++ lexeme)
    (hlexeme : IsNumeral lexeme) (hfinite : (Decimal.ofNumeral lexeme).nearest.isFinite = true) :
    ∃ d : Derivation .expression, (Scanner.ofText text).Tiled name (d.word.map .ok) ∧
      d.nesting ≤ 1 ∧ (Draft.complete d.draft).value =
        .ok (.signed negative (Decimal.ofNumeral lexeme).nearest) := by
  let s := Scanner.ofText text
  cases negative with
  | false =>
    have hahead : s.ahead = lexeme := htext
    let number := Token.ofNumeral lexeme (s.location name)
    have hkind : number.kind = .number := rfl
    refine ⟨.ofNumber number hkind .expression, ?_, ?_, ?_⟩
    · rw [Derivation.word_ofNumber]
      exact .last_numeral hahead hlexeme hfinite
    · rw [Derivation.nesting_ofNumber]
      exact Nat.zero_le _
    · rw [Derivation.draft_ofNumber]
      rfl
  | true =>
    have hahead : s.ahead = '-' :: lexeme := htext
    have hbehind : (s.advanceBy 1).ahead = lexeme := by
      rw [Scanner.ahead_advanceBy, hahead]
      rfl
    let sign : Token := ⟨.minus, '-'.toString, none, s.location name⟩
    let number := Token.ofNumeral lexeme ((s.advanceBy 1).location name)
    have hkind : number.kind = .number := rfl
    obtain ⟨d, hword, hdraft, hnesting⟩ :=
      (Derivation.minus sign rfl (.plain (.number number hkind))).exists_looser .expression
        (Category.tightness_expression_le _)
    refine ⟨d, ?_, ?_, ?_⟩
    · rw [hword]
      exact .symbol hahead rfl (.last_numeral hbehind hlexeme hfinite)
    · rw [hnesting]
      simp only [Derivation.nesting]
      exact Nat.le_refl _
    · rw [hdraft]
      rfl

/-- **A numeral, with a minus sign or without, calculates to its value.** -/
theorem outcome_numeral (watched : Bool) (name : String) {text : String} {negative : Bool}
    {lexeme : List Char} (htext : text.toList = Binary64.signText negative ++ lexeme)
    (hlexeme : IsNumeral lexeme) (hfinite : (Decimal.ofNumeral lexeme).nearest.isFinite = true) :
    ∃ c, (calculate watched name text).outcome = some c ∧
      c.result = .ok (.signed negative (Decimal.ofNumeral lexeme).nearest) := by
  obtain ⟨d, htiled, hnesting, hvalue⟩ :=
    exists_derivation_of_numeral name htext hlexeme hfinite
  obtain ⟨l, htokens⟩ := tokenize_of_tiled htiled
  have hroom : d.nesting ≤ allowance := hnesting.trans (by decide)
  exact ⟨_, staged_iff.1 (.value ⟨htokens, parse_word_append hroom rfl⟩ hvalue), rfl⟩

/-! ### Exponents -/

/-- A character that no token begins with is a fault, wherever the text goes on. -/
theorem Scanner.Tiled.unexpected (name : String) {s : Scanner} {c : Char} {rest : List Char}
    (hahead : s.ahead = c :: rest) (hblank : isBlank c = false) (hdigit : c.isDigit = false)
    (hkind : Token.Kind.ofSymbol? c = none) :
    s.Tiled name (.error ⟨.unexpectedCharacter c, s.location name⟩ ::
      ((s.advanceBy 1).pieces name).1) :=
  .cons hahead (.unexpected hblank hdigit hkind) rfl (tiled_pieces name _)

/-- The fault of a text is the first piece of a tiling that is none of the tokens in front of it. -/
theorem tokenize_eq_error_of_tiled {name text : String} (front : List Token)
    {fault : LexicalFault} {ps : List Piece}
    (h : (Scanner.ofText text).Tiled name (front.map .ok ++ .error fault :: ps)) :
    tokenize name text = .error fault := by
  have hfront : pieceFaults (front.map .ok) = [] := by
    rw [pieceFaults, List.filterMap_map]
    exact List.filterMap_eq_nil_iff.2 fun _ _ => rfl
  refine tokenize_eq_error_iff.2 ?_
  show (pieceFaults ((Scanner.ofText text).pieces name).1).head? = some fault
  rw [h.pieces_eq, pieceFaults, List.filterMap_append, ← pieceFaults, hfront]
  rfl

/-- **An exponent is not read**: the fault of the text is the letter behind the numeral. -/
theorem tokenize_exponent (name : String) {text : String} {negative : Bool}
    {lexeme rest : List Char}
    (htext : text.toList = Binary64.signText negative ++ (lexeme ++ 'e' :: rest))
    (hlexeme : IsNumeral lexeme) (hfinite : (Decimal.ofNumeral lexeme).nearest.isFinite = true) :
    tokenize name text = .error ⟨.unexpectedCharacter 'e',
      .inText name text (Binary64.signText negative ++ lexeme).length⟩ := by
  have hlongest : LongestNumeral lexeme ('e' :: rest) := by
    refine hlexeme.longest fun c hc => ?_
    obtain rfl : 'e' = c := Option.some.inj hc
    rfl
  -- from a scanner in front of the numeral on
  have hnumeral (s : Scanner) (hahead : s.ahead = lexeme ++ 'e' :: rest) :
      s.Tiled name (.ok (.ofNumeral lexeme (s.location name)) ::
        .error ⟨.unexpectedCharacter 'e', (s.advanceBy lexeme.length).location name⟩ ::
        (((s.advanceBy lexeme.length).advanceBy 1).pieces name).1) := by
    have hbehind : (s.advanceBy lexeme.length).ahead = 'e' :: rest := by
      rw [Scanner.ahead_advanceBy, hahead, List.drop_left]
    exact .numeral hahead hlongest hfinite (.unexpected name hbehind rfl rfl rfl)
  let s := Scanner.ofText text
  rw [← Scanner.location_ofText, List.length_append, ← Scanner.advanceBy_add]
  cases negative with
  | false => exact tokenize_eq_error_of_tiled [_] (hnumeral s htext)
  | true =>
    have hahead : s.ahead = '-' :: (lexeme ++ 'e' :: rest) := htext
    have hbehind : (s.advanceBy 1).ahead = lexeme ++ 'e' :: rest := by
      rw [Scanner.ahead_advanceBy, hahead]
      rfl
    exact tokenize_eq_error_of_tiled [_, _] (.symbol hahead rfl (hnumeral _ hbehind))

/-! ### What is shown -/

/-- **What is shown calculates to what it shows.**  A finite number that is zero or whose size is at
least `10 ^ (-4)` is shown as a text with that value, only that a zero loses its sign.  Any other is
shown as a numeral with a negative exponent, and the calculation of that fails at the letter in
front of the exponent. -/
theorem outcome_display (watched : Bool) (name : String) {x : Binary64}
    (hx : x.isFinite = true) :
    (x.value = 0 ∨ 1 / 10000 ≤ |x.value| →
      ∃ c, (calculate watched name x.display).outcome = some c ∧ c.result = .ok x.unsignedZero) ∧
    (0 < |x.value| ∧ |x.value| < 1 / 10000 →
      ∃ negative lexeme digits, IsNumeral lexeme ∧ digits ≠ [] ∧
        (∀ d ∈ digits, d.isDigit = true) ∧
        x.display.toList = Binary64.signText negative ++ (lexeme ++ 'e' :: '-' :: digits) ∧
        ∃ c, (calculate watched name x.display).outcome = some c ∧
          c.result = .error (.lexical ⟨.unexpectedCharacter 'e',
            .inText name x.display (Binary64.signText negative ++ lexeme).length⟩)) := by
  cases x with
  | nan => cases hx
  | signed negative m =>
    have hvalue : (Binary64.signed negative m).value = 0 ↔ m.value = 0 := by
      rw [← abs_eq_zero, Binary64.abs_value_signed]
    obtain ⟨size, hdisplay, hsize⟩ := Binary64.exists_spelled negative hx
    rw [hvalue, Binary64.abs_value_signed, Binary64.unsignedZero_signed]
    -- how the size is spelled goes with how large it is, so that only one of the two cases is left
    cases hsize with
    | numeral hlarge hnumeral hnearest =>
      have hfinite : (Decimal.ofNumeral size).nearest.isFinite = true := hnearest ▸ hx
      refine ⟨?_, ?_⟩
      · intro _
        have houtcome := outcome_numeral watched name hdisplay hnumeral hfinite
        rwa [hnearest] at houtcome
      · rintro ⟨hpos, hsmall⟩
        rcases hlarge with hzero | hlarge
        · exact absurd hzero (Magnitude.value_pos_iff.1 hpos).ne'
        · exact absurd hlarge (not_le.2 hsmall)
    | @exponent lexeme digits hpos hsmall hnumeral hfinite hne hdigits =>
      refine ⟨?_, ?_⟩
      · rintro (hzero | hlarge)
        · exact absurd hzero (Magnitude.value_pos_iff.2 hpos).ne'
        · exact absurd hlarge (not_le.2 hsmall)
      · intro _
        have houtcome : (calculate watched name (Binary64.signed negative m).display).outcome =
            some _ := staged_iff.1 (.lexical (tokenize_exponent name hdisplay hnumeral hfinite))
        exact ⟨_, lexeme, digits, hnumeral, hne, hdigits, hdisplay, _, houtcome, rfl⟩

/-- A negative zero is shown as zero, minus one calculates to minus one, and the smallest size of
all is shown with an exponent. -/
theorem outcome_display_signs :
    (∃ c, (calculate false defaultName (Binary64.signed true .zero).display).outcome = some c ∧
      c.result = .ok (.signed false .zero)) ∧
    (∃ c, (calculate true defaultName (Binary64.signed true .one).display).outcome = some c ∧
      c.result = .ok (.signed true .one)) ∧
    ∃ negative lexeme digits, IsNumeral lexeme ∧ digits ≠ [] ∧
      (∀ d ∈ digits, d.isDigit = true) ∧
      (Binary64.signed true (.ofRank 1)).display.toList =
        Binary64.signText negative ++ (lexeme ++ 'e' :: '-' :: digits) ∧
      ∃ c, (calculate false defaultName (Binary64.signed true (.ofRank 1)).display).outcome =
          some c ∧
        c.result = .error (.lexical ⟨.unexpectedCharacter 'e',
          .inText defaultName (Binary64.signed true (.ofRank 1)).display
            (Binary64.signText negative ++ lexeme).length⟩) := by
  have hone : Magnitude.one.value = 1 := by
    have hquanta : Magnitude.one.quanta = quantaPerUnit := by decide +kernel
    rw [Magnitude.value, hquanta, div_self quantaPerUnit_pos.ne']
  have hsmallest : (Magnitude.ofRank 1).value = 1 / quantaPerUnit := by
    have hquanta : (Magnitude.ofRank 1).quanta = 1 := rfl
    rw [Magnitude.value, hquanta, Nat.cast_one]
  have hunit : (10000 : ℚ) < quantaPerUnit := by
    have hnat : 10000 < quantaPerUnit := by decide
    exact_mod_cast hnat
  refine ⟨(outcome_display false defaultName (by decide)).1 (Or.inl ?_),
    (outcome_display true defaultName (by decide)).1 (Or.inr ?_),
    (outcome_display false defaultName (by decide)).2 ?_⟩
  · rw [← abs_eq_zero, Binary64.abs_value_signed, Magnitude.value, Magnitude.quanta_eq_zero rfl,
      Nat.cast_zero, zero_div]
  · rw [Binary64.abs_value_signed, hone]
    norm_num
  · rw [Binary64.abs_value_signed, hsmallest]
    exact ⟨one_div_pos.2 quantaPerUnit_pos, one_div_lt_one_div_of_lt (by norm_num) hunit⟩

end Calculator
