import Calculator.Proofs.Text.Wording

/-!
# Texts of one line

The summary of a failure is told in one line.  Its wording has no character that ends a line; and
what it quotes of a text that is calculated is never white space, which every character that ends a
line is.

## Main definitions

* `lineEnds`, `OneLine` — the characters that end a line, and texts without one.

## Main results

* `oneLine_of_worded`, `oneLine_of_forall` — wording, and what has no white space, is one line.
* `Diagnostic.oneLine_summary` — so is the summary of a diagnostic if its message is.
* `LexicalFault.oneLine_message`, `ArithmeticFault.oneLine_message` — messages that are not all
  wording.
-/

namespace Calculator

/-- The characters that end a line wherever a text is cut into lines: line feed, line tabulation,
form feed, carriage return, three separators of the controls, the next line, and the line and
paragraph separators. -/
def lineEnds : List Char :=
  ['\n', '\x0b', '\x0c', '\r', '\x1c', '\x1d', '\x1e', '\u0085', '\u2028', '\u2029']

/-- No character of the text ends a line. -/
def OneLine (text : String) : Prop := ∀ c ∈ text.toList, c ∉ lineEnds

/-- Looking at every character of a text decides whether it is one line. -/
theorem all_iff_oneLine {text : String} :
    (text.toList.all fun c => !lineEnds.contains c) = true ↔ OneLine text := by
  simp [OneLine, List.all_eq_true]

instance (text : String) : Decidable (OneLine text) := decidable_of_iff _ all_iff_oneLine

/-! ### Texts -/

theorem isBlank_of_mem_lineEnds {c : Char} (h : c ∈ lineEnds) : isBlank c = true := by
  have hall : lineEnds.all isBlank = true := by decide
  exact List.all_eq_true.1 hall c h

/-- **What has no white space is one line.** -/
theorem oneLine_of_forall {text : String} (h : ∀ c ∈ text.toList, isBlank c = false) :
    OneLine text := by
  intro c hc hend
  have hblank := isBlank_of_mem_lineEnds hend
  rw [h c hc] at hblank
  cases hblank

@[simp] theorem oneLine_append {s t : String} : OneLine (s ++ t) ↔ OneLine s ∧ OneLine t := by
  unfold OneLine
  rw [String.toList_append]
  exact List.forall_mem_append

/-- **Wording is one line.** -/
theorem oneLine_of_worded {text : String} (h : Worded text) : OneLine text := by
  have hall : lineEnds.all (fun c => !isWording c) = true := by decide
  intro c hc hend
  have hnot := List.all_eq_true.1 hall c hend
  rw [h c hc] at hnot
  cases hnot

/-! ### Diagnostics -/

theorem Diagnostic.oneLine_summary {d : Diagnostic} (hseverity : OneLine d.severity)
    (hcode : ∀ code ∈ d.code, OneLine code) (hmessage : OneLine d.message) :
    OneLine d.summary := by
  -- a code that is missing or empty is not shown
  have hgiven : OneLine (given d.code fun code => "[" ++ code ++ "]") := by
    unfold given
    split
    · rename_i code hsome
      split
      · decide
      · exact oneLine_append.2 ⟨oneLine_append.2 ⟨by decide, hcode code hsome⟩, by decide⟩
    · decide
  have hoffset : OneLine (toString d.location.offset) := oneLine_of_worded (worded_toString _)
  simp only [summary, oneLine_append]
  exact ⟨⟨⟨⟨⟨⟨hseverity, hgiven⟩, by decide⟩, hmessage⟩, by decide⟩, hoffset⟩, by decide⟩

/-- The message of a lexical fault quotes what is no white space. -/
theorem LexicalFault.oneLine_message {fault : LexicalFault} {rest : List Char}
    (h : Piece.Fits (.error fault) rest) : OneLine fault.cause.message := by
  cases h with
  | @unexpected c _ l hblank =>
    -- the character may be no wording, but it is no white space
    have hquoted : OneLine c.toString := by
      refine oneLine_of_forall fun d hd => ?_
      rw [Char.toString_eq_singleton, String.toList_singleton] at hd
      rwa [List.mem_singleton.1 hd]
    show OneLine ("Unexpected character: '" ++ c.toString ++ "'")
    exact oneLine_append.2 ⟨oneLine_append.2 ⟨by decide, hquoted⟩, by decide⟩
  | @overflow lexeme _ l hlexeme =>
    have hshown := worded_shownLexeme (worded_of_isNumeral hlexeme.numeral)
    show OneLine ("Number literal overflow: '" ++ shownLexeme (String.ofList lexeme) ++ "'")
    exact oneLine_append.2 ⟨oneLine_append.2 ⟨by decide, oneLine_of_worded hshown⟩, by decide⟩

theorem ArithmeticFault.oneLine_message (fault : ArithmeticFault) : OneLine fault.message := by
  cases fault with
  | zeroDivisor divisor =>
    show OneLine "Division by zero"
    decide
  | zeroToNegative power =>
    show OneLine "Division by zero: zero raised to a negative power"
    decide
  | invalidPower power base exponent =>
    show OneLine ("Invalid power operation: " ++ base.text ++ " ^ " ++ exponent.text)
    simp only [oneLine_append]
    exact ⟨⟨⟨by decide, oneLine_of_worded base.worded_text⟩, by decide⟩,
      oneLine_of_worded exponent.worded_text⟩
  | overflow power =>
    show OneLine "Numeric overflow"
    decide

end Calculator
