import Calculator.Proofs.Calculation.Stages
import Calculator.Proofs.Scan.Joining

/-!
# Wording

What is told about a calculation is put together from fixed words, numbers, lexemes and quoted text.
All of these get by with the characters that ASCII prints, and but for a few headings without the
colon.  So they are left as they are by whatever looks for other characters only, be they the colon,
the ends of lines or controls.

## Main definitions

* `isWording`, `Worded` — the characters that wording is made of, and texts of them.

## Main results

* `Binary64.worded_text`, `Binary64.worded_display` — numbers.
* `worded_lexeme_of_mem` — the lexemes of all tokens of a text.
* `worded_quoted` — wording between quotes.
* `SyntaxFault.worded_message`, `SyntaxFault.worded_suggestions`, `ArithmeticFault.worded_help` —
  **what faults say**, as far as it has no colon.
-/

namespace Calculator

/-- Whether wording uses a character: everything that ASCII prints but the colon. -/
def isWording (c : Char) : Bool := 32 ≤ c.toNat && c.toNat < 127 && c != ':'

/-- Every character of the text is one that wording uses. -/
def Worded (text : String) : Prop := ∀ c ∈ text.toList, isWording c = true

theorem isWording_iff {c : Char} :
    isWording c = true ↔ 32 ≤ c.toNat ∧ c.toNat < 127 ∧ c ≠ ':' := by
  simp [isWording, and_assoc]

@[simp] theorem worded_append {s t : String} : Worded (s ++ t) ↔ Worded s ∧ Worded t := by
  unfold Worded
  rw [String.toList_append]
  exact List.forall_mem_append

theorem worded_ofList {cs : List Char} (h : ∀ c ∈ cs, isWording c = true) :
    Worded (String.ofList cs) := by
  rwa [Worded, String.toList_ofList]

/-- A literal is seen to be worded as the list of its characters. -/
theorem worded_of_all {cs : List Char} (h : cs.all isWording = true) : Worded (String.ofList cs) :=
  worded_ofList (List.all_eq_true.1 h)

/-- Worded parts with wording between them. -/
theorem worded_intercalate {between : String} {parts : List String} (hbetween : Worded between)
    (h : ∀ part ∈ parts, Worded part) : Worded (between.intercalate parts) := by
  induction parts with
  | nil =>
    rw [String.intercalate_nil]
    exact List.forall_mem_nil _
  | cons part parts ih =>
    have hpart : Worded part := h part List.mem_cons_self
    cases parts with
    | nil => rwa [String.intercalate_singleton]
    | cons next parts =>
      rw [String.intercalate_cons_cons]
      refine worded_append.2 ⟨worded_append.2 ⟨hpart, hbetween⟩, ih fun later hlater => ?_⟩
      exact h later (List.mem_cons_of_mem _ hlater)

/-! ### Numbers -/

theorem isWording_of_isDigit {c : Char} (h : c.isDigit = true) : isWording c = true := by
  have hlow : 48 ≤ c.toNat := (Char.isDigit_iff_toNat.1 h).1
  have hhigh : c.toNat ≤ 57 := (Char.isDigit_iff_toNat.1 h).2
  refine isWording_iff.2 ⟨by omega, by omega, ?_⟩
  rintro rfl
  exact absurd hhigh (by decide)

theorem isWording_of_mem_toDigits {n : Nat} {c : Char} (h : c ∈ Nat.toDigits 10 n) :
    isWording c = true :=
  isWording_of_isDigit (Nat.isDigit_of_mem_toDigits (by decide) (by decide) h)

theorem worded_toString (n : Int) : Worded (toString n) := by
  have hnat (m : Nat) : Worded (toString m) := by
    rw [Nat.toString_eq_ofList_toDigits]
    exact worded_ofList fun c hc => isWording_of_mem_toDigits hc
  cases n with
  | ofNat m => exact hnat m
  | negSucc m =>
    show Worded ("-" ++ toString m.succ)
    exact worded_append.2 ⟨worded_of_all (by decide), hnat m.succ⟩

theorem isWording_of_mem_positional {digits : List Char} {point : Int}
    (h : ∀ c ∈ digits, isWording c = true) :
    ∀ c ∈ positional digits point, isWording c = true := by
  unfold positional
  split
  · -- the point stands in front of the digits, with zeros between them
    intro c hc
    simp only [List.cons_append, List.mem_cons, List.mem_append] at hc
    rcases hc with rfl | rfl | hzero | hdigit
    · rfl
    · rfl
    · obtain rfl := List.eq_of_mem_replicate hzero
      rfl
    · exact h c hdigit
  · intro c hc
    -- the point stands among the digits or behind them, with zeros in front of it
    dsimp only at hc
    rcases List.mem_append.1 hc with hbefore | hc
    · rcases List.mem_append.1 (List.mem_of_mem_take hbefore) with hdigit | hzero
      · exact h c hdigit
      · obtain rfl := List.eq_of_mem_replicate hzero
        rfl
    · rcases List.mem_cons.1 hc with rfl | hafter
      · rfl
      · split at hafter
        · obtain rfl := List.mem_singleton.1 hafter
          rfl
        · exact h c (List.mem_of_mem_drop hafter)

theorem isWording_of_mem_scientific {digits : List Char} {point : Int}
    (h : ∀ c ∈ digits, isWording c = true) :
    ∀ c ∈ scientific digits point, isWording c = true := by
  intro c hc
  unfold scientific at hc
  dsimp only at hc
  rcases List.mem_append.1 hc with hc | hexponent
  · rcases List.mem_append.1 hc with hmantissa | hc
    · rcases List.mem_append.1 hmantissa with hfirst | hplaces
      · exact h c (List.mem_of_mem_take hfirst)
      · split at hplaces
        · cases hplaces
        · rcases List.mem_cons.1 hplaces with rfl | hplace
          · rfl
          · exact h c (List.mem_of_mem_drop hplace)
    · rcases List.mem_cons.1 hc with rfl | hc
      · rfl
      · rcases List.mem_cons.1 hc with rfl | hzero
        · split <;> rfl
        · obtain rfl := List.eq_of_mem_replicate hzero
          rfl
  · exact isWording_of_mem_toDigits hexponent

theorem Decimal.isWording_of_mem_text {d : Decimal} : ∀ c ∈ d.text, isWording c = true := by
  have hdigits : ∀ c ∈ d.digits, isWording c = true := by
    intro c hc
    rw [digits, List.mem_reverse] at hc
    exact isWording_of_mem_toDigits (List.mem_reverse.1 ((List.dropWhile_sublist _).mem hc))
  unfold text
  split
  · exact isWording_of_mem_positional hdigits
  · exact isWording_of_mem_scientific hdigits

namespace Binary64

theorem isWording_of_mem_signText {negative : Bool} {c : Char} (h : c ∈ signText negative) :
    isWording c = true := by
  cases negative with
  | false => cases h
  | true =>
    obtain rfl := List.mem_singleton.1 h
    rfl

/-- **A number is worded.** -/
theorem worded_text (x : Binary64) : Worded x.text := by
  cases x with
  | nan =>
    show Worded "nan"
    exact worded_of_all (by decide)
  | signed negative size =>
    intro c hc
    rw [text, String.toList_ofList] at hc
    rcases List.mem_append.1 hc with hsign | hsize
    · exact isWording_of_mem_signText hsign
    · split at hsize
      · simp only [List.mem_cons, List.not_mem_nil, or_false] at hsize
        rcases hsize with rfl | rfl | rfl <;> rfl
      · split at hsize
        · exact Decimal.isWording_of_mem_text c hsize
        · simp only [List.mem_cons, List.not_mem_nil, or_false] at hsize
          rcases hsize with rfl | rfl | rfl <;> rfl

/-- **So is a value as it is displayed.** -/
theorem worded_display (x : Binary64) : Worded x.display := by
  unfold display
  split
  · refine worded_ofList fun c hc => ?_
    rcases List.mem_append.1 hc with hsign | hdigit
    · exact isWording_of_mem_signText hsign
    · exact isWording_of_mem_toDigits hdigit
  · exact x.worded_text

end Binary64

/-! ### Lexemes -/

theorem worded_of_isNumeral {lexeme : List Char} (h : IsNumeral lexeme) :
    Worded (String.ofList lexeme) := by
  refine worded_ofList fun c hc => ?_
  rcases Bool.or_eq_true_iff.1 (h.inNumeral_of_mem hc) with hdigit | hpoint
  · exact isWording_of_isDigit hdigit
  · rw [beq_iff_eq.1 hpoint]
    decide

theorem Piece.Fits.worded_lexeme {t : Token} {rest : List Char} (h : Fits (.ok t) rest) :
    Worded t.lexeme := by
  cases h with
  | number hlexeme hfinite => exact worded_of_isNumeral hlexeme.numeral
  | @symbol c kind _ _ hkind =>
    have hall : (Token.Kind.symbols.all fun entry => isWording entry.1) = true := by decide
    have hc : isWording c = true := List.all_eq_true.1 hall _ (Token.Kind.mem_symbols hkind)
    show Worded c.toString
    simpa [Worded] using hc

/-- **So are those of all tokens of a text**, the end included. -/
theorem worded_lexeme_of_mem {name text : String} {tokens : List Token} {t : Token}
    (h : tokenize name text = .ok tokens) (ht : t ∈ tokens) : Worded t.lexeme := by
  obtain ⟨front, rfl, htiled, -⟩ := exists_tiled_of_tokenize h
  rcases List.mem_append.1 ht with hfront | hlast
  · obtain ⟨before, after, -, -, hfits⟩ :=
      htiled.stands (List.mem_map_of_mem (f := Except.ok) hfront)
    exact hfits.worded_lexeme
  · obtain rfl := List.mem_singleton.1 hlast
    exact List.forall_mem_nil _

/-! ### Quoted text -/

/-- Digits in base sixteen are wording, in small and in capital letters. -/
theorem isWording_of_mem_toDigits_sixteen {n : Nat} {c : Char} (h : c ∈ Nat.toDigits 16 n) :
    isWording c = true ∧ isWording c.toUpper = true := by
  have hdigit : ∀ k < 16, isWording k.digitChar = true ∧ isWording k.digitChar.toUpper = true := by
    decide
  induction n using Nat.strongRecOn with
  | ind n ih =>
    rw [Nat.toDigits_eq_if (by decide)] at h
    split at h
    · rename_i hlt
      obtain rfl := List.mem_singleton.1 h
      exact hdigit n hlt
    · rename_i hge
      rcases List.mem_append.1 h with hfront | hlast
      · exact ih (n / 16) (by omega) hfront
      · obtain rfl := List.mem_singleton.1 hlast
        exact hdigit (n % 16) (Nat.mod_lt n (by decide))

theorem isWording_of_mem_hexDigits {width n : Nat} {c : Char} (h : c ∈ hexDigits width n) :
    isWording c = true ∧ isWording c.toUpper = true := by
  rcases List.mem_append.1 h with hzero | hdigit
  · obtain rfl := List.eq_of_mem_replicate hzero
    decide
  · exact isWording_of_mem_toDigits_sixteen hdigit

/-- Wording is escaped by wording. -/
theorem isWording_of_mem_escape {quote c d : Char} (hc : isWording c = true)
    (h : d ∈ escape quote c) : isWording d = true := by
  have hhex {letter : Char} {width n : Nat} (hletter : isWording letter = true)
      (h : d ∈ '\\' :: letter :: hexDigits width n) : isWording d = true := by
    rcases List.mem_cons.1 h with rfl | h
    · decide
    · rcases List.mem_cons.1 h with rfl | h
      · exact hletter
      · exact (isWording_of_mem_hexDigits h).1
  have htwo {letter : Char} (hletter : isWording letter = true) (h : d ∈ ['\\', letter]) :
      isWording d = true := by
    rcases List.mem_cons.1 h with rfl | h
    · decide
    · rwa [List.mem_singleton.1 h]
  -- a character stands for itself, behind a backslash, or is told by its number
  unfold escape at h
  split at h
  · exact htwo hc h
  split at h
  · exact htwo (by decide) h
  split at h
  · exact htwo (by decide) h
  split at h
  · exact htwo (by decide) h
  split at h
  · rwa [List.mem_singleton.1 h]
  split at h
  · exact hhex (by decide) h
  split at h
  · exact hhex (by decide) h
  · exact hhex (by decide) h

/-- Between quotes wording stays so. -/
theorem worded_quoted {text : String} (h : Worded text) : Worded (quoted text) := by
  have hquote : isWording (quoteFor text.toList) = true := by
    unfold quoteFor
    split <;> decide
  refine worded_ofList fun c hc => ?_
  rcases List.mem_append.1 hc with hc | hc
  · -- a quote, the escaped characters, and the quote again
    rcases List.mem_cons.1 hc with rfl | hc
    · exact hquote
    · obtain ⟨d, hd, hc⟩ := List.mem_flatMap.1 hc
      exact isWording_of_mem_escape (h d hd) hc
  · rwa [List.mem_singleton.1 hc]

/-! ### Faults -/

theorem LexicalFault.worded_shownLexeme {lexeme : String} (h : Worded lexeme) :
    Worded (shownLexeme lexeme) := by
  unfold shownLexeme
  split
  · exact h
  · refine worded_append.2 ⟨worded_ofList fun c hc => ?_, worded_of_all (by decide)⟩
    exact h c (List.mem_of_mem_take hc)

namespace SyntaxFault

theorem worded_description (kind : Token.Kind) : Worded kind.description := by
  cases kind <;> exact worded_of_all (by decide)

theorem worded_expectedText (expected : List Token.Kind) : Worded (expectedText expected) := by
  unfold expectedText
  refine worded_intercalate (worded_of_all (by decide)) ?_
  intro part hpart
  obtain ⟨kind, -, rfl⟩ := List.mem_map.1 hpart
  exact worded_description kind

theorem worded_foundText {found : Token} (h : Worded found.lexeme) : Worded (foundText found) := by
  unfold foundText
  split
  · exact worded_description found.kind
  · simp only [worded_append]
    exact ⟨⟨worded_of_all (by decide), h⟩, worded_of_all (by decide)⟩

theorem worded_message {fault : SyntaxFault} (h : Worded fault.found.lexeme) :
    Worded fault.message := by
  cases fault with
  | unexpectedToken expected found =>
    show Worded ("Expected " ++ expectedText expected ++ ", found " ++ foundText found)
    have hhead : Worded "Expected " := worded_of_all (by decide)
    simp only [worded_append]
    exact ⟨⟨⟨hhead, worded_expectedText expected⟩, worded_of_all (by decide)⟩, worded_foundText h⟩
  | unclosedParen opener found =>
    show Worded "Unclosed parenthesis"
    exact worded_of_all (by decide)
  | trailingInput found =>
    show Worded ("Unexpected trailing input '" ++ found.lexeme ++ "'")
    simp only [worded_append]
    exact ⟨⟨worded_of_all (by decide), h⟩, worded_of_all (by decide)⟩

theorem worded_operandSuggestions {found : Token} (h : Worded found.lexeme) :
    ∀ s ∈ operandSuggestions found, Worded s := by
  unfold operandSuggestions
  split
  · exact List.forall_mem_singleton.2 (worded_of_all (by decide))
  · refine List.forall_mem_cons.2 ⟨worded_of_all (by decide), ?_⟩
    exact List.forall_mem_singleton.2 (worded_of_all (by decide))
  · exact List.forall_mem_singleton.2 (worded_of_all (by decide))
  · split
    · have hbefore : Worded ("Add an operand before '" ++ found.lexeme ++ "'") := by
        simp only [worded_append]
        exact ⟨⟨worded_of_all (by decide), h⟩, worded_of_all (by decide)⟩
      refine List.forall_mem_cons.2 ⟨hbefore, ?_⟩
      exact List.forall_mem_singleton.2 (worded_of_all (by decide))
    · exact List.forall_mem_nil _

theorem worded_trailingSuggestions (found : Token) : ∀ s ∈ trailingSuggestions found, Worded s := by
  unfold trailingSuggestions
  split <;> exact List.forall_mem_singleton.2 (worded_of_all (by decide))

theorem worded_suggestions {fault : SyntaxFault} (h : Worded fault.found.lexeme) :
    ∀ s ∈ fault.suggestions, Worded s := by
  cases fault with
  | unexpectedToken expected found => exact worded_operandSuggestions h
  | unclosedParen opener found =>
    show ∀ s ∈ ["Add a closing ')'", "Check for missing delimiters"], Worded s
    refine List.forall_mem_cons.2 ⟨worded_of_all (by decide), ?_⟩
    exact List.forall_mem_singleton.2 (worded_of_all (by decide))
  | trailingInput found => exact worded_trailingSuggestions found

end SyntaxFault

namespace ArithmeticFault

theorem worded_help (fault : ArithmeticFault) : Worded fault.help := by
  cases fault with
  | zeroDivisor divisor =>
    show Worded "The right-hand side of this division evaluates to zero."
    exact worded_of_all (by decide)
  | zeroToNegative power =>
    show Worded "A negative exponent divides by the base, which is zero here."
    exact worded_of_all (by decide)
  | invalidPower power base exponent =>
    show Worded "A negative number raised to a non-integer power has no real result."
    exact worded_of_all (by decide)
  | overflow power =>
    show Worded "The result of this operation is too large to represent."
    exact worded_of_all (by decide)

end ArithmeticFault

end Calculator
