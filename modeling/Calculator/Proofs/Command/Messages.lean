import Calculator.Proofs.Command.Console

/-!
# The messages of faults on the console

Most of what a fault says is wording, which the console leaves as it is.  The rest has a colon at
the end of a heading, or tells of a location, as the help for a parenthesis does that is not closed,
or quotes the character that is unexpected, which may be one that the console leaves out.

## Main results

* `LexicalFault.verbatim_message_iff` — **a lexical fault is verbatim unless it quotes a control.**
* `LexicalFault.verbatim_help`, `LexicalFault.verbatim_suggestions` — its help and suggestions are.
* `SyntaxFault.verbatim_help` — the help for a syntax fault is if the location is that it tells of.
* `ArithmeticFault.verbatim_message` — the message of an arithmetic fault is.
-/

namespace Calculator

/-! ### Lexical faults -/

/-- A character between quotes is verbatim unless it is left out: even a colon has no other one
beside it. -/
theorem verbatim_quotedCharacter_iff (c : Char) :
    Verbatim ['\'', c, '\''] ↔ isDropped c = false := by
  have hquote : ∀ d ∈ ['\''], isPlain d = true := List.all_eq_true.1 (by decide)
  constructor
  · intro h
    exact (verbatim_iff.1 h).2 c (by simp)
  · intro hc
    rw [show ['\'', c, '\''] = ['\''] ++ c :: ['\''] from rfl, verbatim_plain_append_iff hquote]
    by_cases hcolon : c = ':'
    · subst hcolon
      exact verbatim_colon hquote
    · exact verbatim_of_isPlain (List.forall_mem_cons.2 ⟨isPlain_iff.2 ⟨hcolon, hc⟩, hquote⟩)

namespace LexicalFault

/-- **A lexical fault is verbatim unless it quotes a control** that the console leaves out. -/
theorem verbatim_message_iff {fault : LexicalFault} {rest : List Char}
    (h : Piece.Fits (.error fault) rest) : Verbatim fault.cause.message.toList ↔
      ∀ c, fault.cause = .unexpectedCharacter c → isDropped c = false := by
  cases h with
  | @unexpected c _ l =>
    have hhead : Worded "Unexpected character" := worded_of_all (by decide)
    have hmessage : (Cause.unexpectedCharacter c).message.toList =
        "Unexpected character".toList ++ ':' :: ' ' :: ['\'', c, '\''] := by
      show ("Unexpected character: '" ++ c.toString ++ "'").toList = _
      simp [String.toList_append]
    rw [hmessage, verbatim_heading_iff hhead (by decide) (by decide), verbatim_quotedCharacter_iff]
    simp
  | @overflow lexeme _ l hlexeme =>
    let shown := "'" ++ shownLexeme (String.ofList lexeme) ++ "'"
    have hhead : Worded "Number literal overflow" := worded_of_all (by decide)
    have hquote : Worded "'" := worded_of_all (by decide)
    have hshown : Worded shown := worded_append.2
      ⟨worded_append.2 ⟨hquote, worded_shownLexeme (worded_of_isNumeral hlexeme.numeral)⟩, hquote⟩
    have hmessage : (Cause.numeralOverflow (String.ofList lexeme)).message.toList =
        "Number literal overflow".toList ++ ':' :: ' ' :: shown.toList := by
      show ("Number literal overflow: '" ++ shownLexeme (String.ofList lexeme) ++ "'").toList = _
      simp [shown, String.toList_append]
    rw [hmessage, verbatim_heading_iff hhead (by decide) (by decide)]
    exact iff_of_true (verbatim_of_worded hshown) (by simp)

/-- A character that looks like a symbol is plain, and what was meant by it is wording. -/
theorem worded_of_alternative? {c : Char} {meant : String} (h : alternative? c = some meant) :
    isPlain c = true ∧ Worded meant := by
  have hall : (alternatives.all fun entry => isPlain entry.1 && entry.2.toList.all isWording) =
      true := by decide
  obtain ⟨before, after, hsplit, -⟩ := List.lookup_eq_some_iff.1 h
  have hmem : (c, meant) ∈ alternatives := by
    rw [hsplit]
    simp
  have hboth := List.all_eq_true.1 hall _ hmem
  rw [Bool.and_eq_true] at hboth
  exact ⟨hboth.1, List.all_eq_true.1 hboth.2⟩

theorem worded_codePoint (c : Char) : Worded (codePoint c) := by
  refine worded_append.2 ⟨worded_of_all (by decide), worded_ofList fun d hd => ?_⟩
  obtain ⟨digit, hdigit, rfl⟩ := List.mem_map.1 hd
  exact (isWording_of_mem_hexDigits hdigit).2

theorem verbatim_help (cause : Cause) : Verbatim cause.help.toList := by
  cases cause with
  | unexpectedCharacter c =>
    rw [Cause.help]
    split
    · rename_i meant hmeant
      refine verbatim_of_worded ?_
      simp only [worded_append]
      exact ⟨⟨worded_of_all (by decide), worded_quoted (worded_of_alternative? hmeant).2⟩,
        worded_of_all (by decide)⟩
    · split
      · exact verbatim_of_worded (worded_of_all (by decide))
      · have hhead : Worded "Non-printable character (Unicode" := worded_of_all (by decide)
        have hhelp : ("Non-printable character (Unicode: " ++ codePoint c ++
            ") is not allowed.").toList = "Non-printable character (Unicode".toList ++
              ':' :: ' ' :: (codePoint c ++ ") is not allowed.").toList := by
          simp [String.toList_append]
        rw [hhelp, verbatim_heading_iff hhead (by decide) (by decide)]
        refine verbatim_of_worded (worded_append.2 ⟨worded_codePoint c, ?_⟩)
        exact worded_of_all (by decide)
  | numeralOverflow lexeme =>
    have hhelp : Worded "Numeric literals must be finite double precision values." :=
      worded_of_all (by decide)
    exact verbatim_of_worded hhelp

theorem verbatim_suggestions (cause : Cause) : ∀ s ∈ cause.suggestions, Verbatim s.toList := by
  intro s hs
  cases cause with
  | unexpectedCharacter c =>
    rw [Cause.suggestions] at hs
    split at hs
    · rename_i meant hmeant
      obtain ⟨hc, hmeant⟩ := worded_of_alternative? hmeant
      obtain rfl := List.mem_singleton.1 hs
      have hfront : Worded "Replace '" := worded_of_all (by decide)
      have hbehind : Worded ("' with '" ++ meant ++ "'") := by
        simp only [worded_append]
        exact ⟨⟨worded_of_all (by decide), hmeant⟩, worded_of_all (by decide)⟩
      have hline : ("Replace '" ++ c.toString ++ "' with '" ++ meant ++ "'").toList =
          "Replace '".toList ++ c :: ("' with '" ++ meant ++ "'").toList := by
        simp [String.toList_append]
      rw [hline, verbatim_worded_append_iff hfront]
      exact verbatim_of_isPlain (List.forall_mem_cons.2 ⟨hc, isPlain_of_worded hbehind⟩)
    · cases hs
  | numeralOverflow lexeme =>
    obtain rfl := List.mem_singleton.1 hs
    exact verbatim_of_worded (worded_of_all (by decide))

end LexicalFault

/-! ### Syntax and arithmetic faults -/

theorem Token.worded_text {t : Token} (h : Worded t.lexeme) : Worded t.text := by
  unfold text
  split
  · exact worded_of_all (by decide)
  · have hname : Worded t.kind.name := by cases t.kind <;> exact worded_of_all (by decide)
    simp only [worded_append]
    exact ⟨⟨⟨hname, worded_of_all (by decide)⟩, worded_quoted h⟩, worded_of_all (by decide)⟩

/-- The help for a syntax fault is verbatim, as far as it tells of a location that is. -/
theorem SyntaxFault.verbatim_help {fault : SyntaxFault} (h : Worded fault.found.lexeme)
    (hlocation : Verbatim fault.location.text.toList) : Verbatim fault.help.toList := by
  cases fault with
  | unexpectedToken expected found =>
    have hhead : Worded "The parser expected to see " := worded_of_all (by decide)
    have hplace : Worded " at this position, but found " := worded_of_all (by decide)
    have hend : Worded " instead." := worded_of_all (by decide)
    have hhelp : Worded ("The parser expected to see " ++ expectedText expected ++
        " at this position, but found " ++ foundText found ++ " instead.") := by
      simp only [worded_append]
      exact ⟨⟨⟨⟨hhead, worded_expectedText expected⟩, hplace⟩, worded_foundText h⟩, hend⟩
    exact verbatim_of_worded hhelp
  | unclosedParen opener found =>
    have hfront : Worded "The '(' at " := worded_of_all (by decide)
    have hbehind : Worded ("was never closed; found " ++ found.text ++ " instead of ')'.") := by
      simp only [worded_append]
      exact ⟨⟨worded_of_all (by decide), Token.worded_text h⟩, worded_of_all (by decide)⟩
    -- the only help that tells of a location, which is the one of the parenthesis
    have hhelp : (unclosedParen opener found).help.toList = "The '(' at ".toList ++
        (opener.location.text.toList ++ ' ' ::
          ("was never closed; found " ++ found.text ++ " instead of ')'.").toList) := by
      show ("The '(' at " ++ opener.location.text ++ " was never closed; found " ++ found.text ++
        " instead of ')'.").toList = _
      simp [String.toList_append]
    rw [hhelp, verbatim_worded_append_iff hfront,
      verbatim_append_blank_iff (by decide) (by decide)]
    exact ⟨hlocation, verbatim_of_worded hbehind⟩
  | trailingInput found =>
    have hhelp : Worded "A complete expression was parsed but more input follows it." :=
      worded_of_all (by decide)
    exact verbatim_of_worded hhelp

theorem ArithmeticFault.verbatim_message (fault : ArithmeticFault) :
    Verbatim fault.message.toList := by
  cases fault with
  | zeroDivisor divisor =>
    have hmessage : Worded "Division by zero" := worded_of_all (by decide)
    exact verbatim_of_worded hmessage
  | zeroToNegative power =>
    have hhead : Worded "Division by zero" := worded_of_all (by decide)
    have hbody : Worded "zero raised to a negative power" := worded_of_all (by decide)
    have hmessage : (zeroToNegative power).message.toList =
        "Division by zero".toList ++ ':' :: ' ' :: "zero raised to a negative power".toList := by
      show "Division by zero: zero raised to a negative power".toList = _
      simp
    rw [hmessage, verbatim_heading_iff hhead (by decide) (by decide)]
    exact verbatim_of_worded hbody
  | invalidPower power base exponent =>
    have hhead : Worded "Invalid power operation" := worded_of_all (by decide)
    have hbody : Worded (base.text ++ " ^ " ++ exponent.text) := by
      simp only [worded_append]
      exact ⟨⟨base.worded_text, worded_of_all (by decide)⟩, exponent.worded_text⟩
    have hmessage : (invalidPower power base exponent).message.toList =
        "Invalid power operation".toList ++ ':' :: ' ' ::
          (base.text ++ " ^ " ++ exponent.text).toList := by
      show ("Invalid power operation: " ++ base.text ++ " ^ " ++ exponent.text).toList = _
      simp [String.toList_append]
    rw [hmessage, verbatim_heading_iff hhead (by decide) (by decide)]
    exact verbatim_of_worded hbody
  | overflow power =>
    have hmessage : Worded "Numeric overflow" := worded_of_all (by decide)
    exact verbatim_of_worded hmessage

end Calculator
