import Calculator.Proofs.Calculation.Trimming
import Calculator.Proofs.Command.Fold
import Calculator.Proofs.Command.Messages

/-!
# Diagnostics in full

A diagnostic in full goes through the console, which does not leave every text as it is.  Its parts
stand on lines of their own or behind white space, so that they can be looked at one by one.  Of a
failure two parts matter: the location, where the line stands between two colons and may be a short
code, and the message of a lexical fault, which may quote a control that the console leaves out.

## Main definitions

* `Diagnostic.front`, `Diagnostic.back` — a diagnostic up to its location and behind it.
* `Failure.QuotesControl` — the failure of a control that the console leaves out.

## Main results

* `Diagnostic.verbatim_trimEnd_text_iff` — a diagnostic part by part.
* `Location.verbatim_text_iff` — a location is verbatim unless its line is a short code.
* `Failure.paragraph_text_eq_iff` — a failure as the console writes it.
* `explained_verbatim_iff` — **when a failure is told in full and verbatim.**
-/

namespace Calculator

/-! ### Diagnostics -/

namespace Diagnostic

theorem verbatim_given_append_iff {help : Option String} {cs : List Char} :
    Verbatim ((given help fun help => "  help: " ++ help ++ "\n").toList ++ cs) ↔
      (∀ text ∈ help, Verbatim text.toList) ∧ Verbatim cs := by
  cases help with
  | none => simp [given]
  | some text =>
    simp only [given, Option.mem_some_iff, forall_eq']
    split
    · rename_i hempty
      rw [String.isEmpty_iff.1 hempty]
      exact (and_iff_right verbatim_nil).symm
    · have hhead : Worded "  help" := worded_of_all (by decide)
      have hline : ("  help: " ++ text ++ "\n").toList ++ cs =
          "  help".toList ++ ':' :: ' ' :: (text.toList ++ '\n' :: cs) := by
        simp [String.toList_append]
      rw [hline, verbatim_heading_iff hhead (by decide) (by decide),
        verbatim_append_blank_iff (by decide) (by decide)]

theorem verbatim_suggestions_iff {suggestions : List String} :
    Verbatim (String.join (suggestions.map fun s => "    - " ++ s ++ "\n")).toList ↔
      ∀ s ∈ suggestions, Verbatim s.toList := by
  induction suggestions with
  | nil => simp [verbatim_nil]
  | cons s suggestions ih =>
    have hdash : Worded "    - " := worded_of_all (by decide)
    have hline : (String.join ((s :: suggestions).map fun s => "    - " ++ s ++ "\n")).toList =
        "    - ".toList ++ (s.toList ++ '\n' ::
          (String.join (suggestions.map fun s => "    - " ++ s ++ "\n")).toList) := by
      simp [String.toList_append, String.join_cons]
    rw [hline, verbatim_worded_append_iff hdash, verbatim_append_blank_iff (by decide) (by decide),
      ih, List.forall_mem_cons]

theorem verbatim_suggestionLines_iff {suggestions : Option (List String)} :
    Verbatim (suggestionLines suggestions).toList ↔
      ∀ list ∈ suggestions, ∀ s ∈ list, Verbatim s.toList := by
  unfold suggestionLines
  split
  · simp [verbatim_nil]
  · simp [verbatim_nil]
  · rename_i list hne
    have hhead : Worded "  suggestions" := worded_of_all (by decide)
    have hline : ("  suggestions:\n" ++
        String.join (list.map fun s => "    - " ++ s ++ "\n")).toList = "  suggestions".toList ++
          ':' :: '\n' :: (String.join (list.map fun s => "    - " ++ s ++ "\n")).toList := by
      simp [String.toList_append]
    rw [hline, verbatim_heading_iff hhead (by decide) (by decide), verbatim_suggestions_iff]
    simp

/-- A diagnostic up to its location. -/
def front (d : Diagnostic) : List Char :=
  (uppercase d.severity).toList ++ ':' :: ' ' :: (d.message.toList ++ '\n' ::
    ("  --> ".toList ++ d.location.text.toList))

/-- A diagnostic behind its location. -/
def back (d : Diagnostic) : List Char :=
  (given d.help fun help => "  help: " ++ help ++ "\n").toList ++
    (suggestionLines d.suggestions).toList

theorem toList_text (d : Diagnostic) : d.text.toList = d.front ++ '\n' :: d.back := by
  simp [text, front, back, String.toList_append]

theorem verbatim_front_iff {d : Diagnostic} (hseverity : Worded (uppercase d.severity)) :
    Verbatim d.front ↔ Verbatim d.message.toList ∧ Verbatim d.location.text.toList := by
  have harrow : Worded "  --> " := worded_of_all (by decide)
  rw [front, verbatim_heading_iff hseverity (by decide) (by decide),
    verbatim_append_blank_iff (by decide) (by decide), verbatim_worded_append_iff harrow]

/-- **What decides whether the console writes a diagnostic verbatim**: its message and its location,
if its help is verbatim with its location and its suggestions are. -/
theorem verbatim_trimEnd_text_iff {d : Diagnostic} (hseverity : Worded (uppercase d.severity))
    (hlast : ∃ cs c, d.location.text.toList = cs ++ [c] ∧ isBlank c = false)
    (hhelp : Verbatim d.location.text.toList → ∀ help ∈ d.help, Verbatim help.toList)
    (hsuggestions : ∀ list ∈ d.suggestions, ∀ s ∈ list, Verbatim s.toList) :
    Verbatim (trimEnd d.text.toList) ↔
      Verbatim d.message.toList ∧ Verbatim d.location.text.toList := by
  rw [← verbatim_front_iff hseverity, toList_text]
  constructor
  · intro h
    -- the location does not end in white space, so that trimming does not reach it
    obtain ⟨cs, c, hlocation, hc⟩ := hlast
    have hfront : d.front = (uppercase d.severity).toList ++ ':' :: ' ' :: (d.message.toList ++
        '\n' :: ("  --> ".toList ++ cs)) ++ [c] := by simp [front, hlocation]
    rw [hfront, List.append_assoc, List.singleton_append] at h
    rw [hfront]
    exact verbatim_of_trimEnd hc (by decide) (by decide) h
  · intro h
    have hlocation := ((verbatim_front_iff hseverity).1 h).2
    refine verbatim_trimEnd ((verbatim_append_blank_iff (by decide) (by decide)).2 ⟨h, ?_⟩)
    exact verbatim_given_append_iff.2
      ⟨hhelp hlocation, verbatim_suggestionLines_iff.2 hsuggestions⟩

end Diagnostic

/-! ### Locations -/

theorem toDigits_inj {m n : Nat} : Nat.toDigits 10 m = Nat.toDigits 10 n ↔ m = n := by
  constructor
  · intro h
    rw [← Nat.ofDigitChars_ten_toDigits (n := m), h, Nat.ofDigitChars_ten_toDigits]
  · rintro rfl
    rfl

/-- The short codes of digits are two numbers. -/
theorem lookup_shortCodes_eq_none_iff {n : Nat} :
    shortCodes.lookup (String.ofList (Nat.toDigits 10 n)) = none ↔ n ≠ 100 ∧ n ≠ 1234 := by
  have hcode (m : Nat) : (String.ofList (Nat.toDigits 10 n) != toString m) = true ↔ n ≠ m := by
    rw [bne_iff_ne, Nat.toString_eq_ofList_toDigits, ne_eq, String.ofList_inj, toDigits_inj]
  rw [List.lookup_eq_none_iff]
  show (∀ p ∈ [(toString 100, '💯'), (toString 1234, '🔢')], _) ↔ _
  simp only [List.forall_mem_cons, hcode]
  simp

/-- A location begins with its name, and its line and column are written in digits. -/
theorem Location.toList_text_ofPosition (name : String) (p : Position) :
    (ofPosition name p).text.toList =
      name.toList ++ ':' :: (Nat.toDigits 10 p.line ++ ':' :: Nat.toDigits 10 p.column) := by
  have hdigits (n : Nat) : (toString (n : Int)).toList = Nat.toDigits 10 n := by
    show (toString n).toList = _
    rw [Nat.toString_eq_ofList_toDigits, String.toList_ofList]
  simp only [text, ofPosition, String.toList_append, hdigits]
  simp

/-- **The console writes a location verbatim unless its line is a short code.** -/
theorem Location.verbatim_text_iff {name : String} (hname : Worded name) (p : Position) :
    Verbatim (ofPosition name p).text.toList ↔ p.line ≠ 100 ∧ p.line ≠ 1234 := by
  have hplain (n : Nat) : ∀ c ∈ Nat.toDigits 10 n, isPlain c = true :=
    fun c hc => isPlain_of_isWording (isWording_of_mem_toDigits hc)
  have hcode : ∀ c ∈ Nat.toDigits 10 p.line, inCode c = true ∧ isDropped c = false := by
    intro c hc
    obtain ⟨hcolon, hkept⟩ := isPlain_iff.1 (hplain p.line c hc)
    have hblank := isBlank_of_isDigit (Nat.isDigit_of_mem_toDigits (by decide) (by decide) hc)
    exact ⟨by simp [inCode, hcolon, hblank], hkept⟩
  rw [toList_text_ofPosition, verbatim_worded_append_iff hname,
    verbatim_code_iff hcode (verbatim_of_isPlain (hplain p.column)),
    lookup_shortCodes_eq_none_iff]

theorem Location.exists_last (name : String) (p : Position) :
    ∃ cs c, (ofPosition name p).text.toList = cs ++ [c] ∧ isBlank c = false := by
  rcases List.eq_nil_or_concat (Nat.toDigits 10 p.column) with hnil | ⟨digits, c, hdigits⟩
  · exact absurd hnil Nat.toDigits_ne_nil
  · refine ⟨name.toList ++ ':' :: (Nat.toDigits 10 p.line ++ ':' :: digits), c, ?_, ?_⟩
    · rw [toList_text_ofPosition, hdigits]
      simp
    · have hc : c ∈ Nat.toDigits 10 p.column := by simp [hdigits]
      exact isBlank_of_isDigit (Nat.isDigit_of_mem_toDigits (by decide) (by decide) hc)

/-! ### Failures -/

/-- Of the characters that the console leaves out, all but two are white space. -/
theorem isDropped_eq_false_iff_of_not_blank {c : Char} (h : isBlank c = false) :
    isDropped c = false ↔ c ≠ '\x07' ∧ c ≠ '\x08' := by
  have hblank : c.toNat ≠ 0x0B ∧ c.toNat ≠ 0x0C ∧ c.toNat ≠ 0x0D := by
    -- the first range of white space covers all three
    have hfirst : ¬ (0x09 ≤ c.toNat ∧ c.toNat ≤ 0x0D) := fun hcovered =>
      Bool.false_ne_true (h.symm.trans (isBlank_iff.2 ⟨_, List.mem_cons_self, hcovered⟩))
    omega
  have hbell : c ≠ '\x07' ↔ c.toNat ≠ 0x07 := not_congr Char.toNat_inj.symm
  have hbackspace : c ≠ '\x08' ↔ c.toNat ≠ 0x08 := not_congr Char.toNat_inj.symm
  rw [isDropped_eq_false_iff, hbell, hbackspace]
  omega

namespace Failure

/-- The failure is that of a character which the console leaves out. -/
def QuotesControl : Failure → Prop
  | lexical ⟨.unexpectedCharacter c, _⟩ => c = '\x07' ∨ c = '\x08'
  | _ => False

theorem worded_severity (failure : Failure) : Worded (uppercase failure.diagnostic.severity) := by
  have hupper : ("error".toList.flatMap upperChars).all isWording = true := by decide +kernel
  rw [severity_diagnostic]
  exact worded_of_all hupper

/-- The message of a failure is verbatim unless it quotes a control. -/
theorem verbatim_message_iff {failure : Failure} (h : failure.FromText) :
    Verbatim failure.diagnostic.message.toList ↔ ¬ failure.QuotesControl := by
  cases failure with
  | lexical fault =>
    obtain ⟨rest, hfits⟩ := h
    show Verbatim fault.cause.message.toList ↔ _
    rw [LexicalFault.verbatim_message_iff hfits]
    cases hfits with
    | unexpected hblank => simp [QuotesControl, isDropped_eq_false_iff_of_not_blank hblank]
    | overflow hlexeme => simp [QuotesControl]
  | syntactic fault =>
    exact iff_of_true (verbatim_of_worded (SyntaxFault.worded_message h)) not_false
  | arithmetic fault => exact iff_of_true fault.verbatim_message not_false

theorem verbatim_help {failure : Failure} (h : failure.FromText)
    (hlocation : Verbatim failure.diagnostic.location.text.toList) :
    ∀ help ∈ failure.diagnostic.help, Verbatim help.toList := by
  intro help hhelp
  cases failure with
  | lexical fault =>
    obtain rfl := Option.some.inj hhelp
    exact LexicalFault.verbatim_help fault.cause
  | syntactic fault =>
    obtain rfl := Option.some.inj hhelp
    exact SyntaxFault.verbatim_help h hlocation
  | arithmetic fault =>
    obtain rfl := Option.some.inj hhelp
    exact verbatim_of_worded fault.worded_help

theorem verbatim_suggestions {failure : Failure} (h : failure.FromText) :
    ∀ list ∈ failure.diagnostic.suggestions, ∀ s ∈ list, Verbatim s.toList := by
  intro list hlist
  cases failure with
  | lexical fault =>
    obtain rfl := Option.some.inj hlist
    exact LexicalFault.verbatim_suggestions fault.cause
  | syntactic fault =>
    obtain rfl := Option.some.inj hlist
    exact fun s hs => verbatim_of_worded (SyntaxFault.worded_suggestions h s hs)
  | arithmetic fault => cases hlist

/-- **The console writes a failure verbatim** unless its line is a short code or it quotes a
control. -/
theorem paragraph_text_eq_iff {watched : Bool} {name text : String} {c : Calculation}
    {failure : Failure} (hname : Worded name)
    (hc : (calculate watched name text).outcome = some c) (hfailure : c.result = .error failure) :
    paragraph failure.diagnostic.text =
        String.ofList (trimEnd failure.diagnostic.text.toList) ++ "\n" ↔
      failure.diagnostic.location.line ≠ 100 ∧ failure.diagnostic.location.line ≠ 1234 ∧
        ¬ failure.QuotesControl := by
  have htext := fromText_of_outcome hc hfailure
  obtain ⟨p, -, hplace⟩ := exists_location_of_failure hc hfailure
  have hlocation : Verbatim failure.diagnostic.location.text.toList ↔
      failure.diagnostic.location.line ≠ 100 ∧ failure.diagnostic.location.line ≠ 1234 := by
    rw [hplace, Location.inText, Location.verbatim_text_iff hname]
    simp only [Location.ofPosition]
    omega
  have hlast : ∃ cs b, failure.diagnostic.location.text.toList = cs ++ [b] ∧
      isBlank b = false := by
    rw [hplace]
    exact Location.exists_last name _
  rw [paragraph_eq_iff, Diagnostic.verbatim_trimEnd_text_iff failure.worded_severity hlast
    (verbatim_help htext) (verbatim_suggestions htext), verbatim_message_iff htext, hlocation,
    and_comm, and_assoc]

end Failure

/-! ### Reports -/

/-- A failure is told in full if that is asked for, unless an expression is to be shown that is too
deep to be written. -/
theorem Report.err_ofCalculation_of_error {p : Preferences} {c : Calculation} {failure : Failure}
    (hexplain : p.explain = true) (hfailure : c.result = .error failure)
    (hshown : p.showTree = true → ∀ tree, c.tree = some tree → tree.height ≤ allowance) :
    (ofCalculation p c).err = paragraph failure.diagnostic.text := by
  have hresult : ofResult p.explain c.result =
      ⟨"", paragraph failure.diagnostic.text, .status failure.status⟩ := by
    rw [hfailure, hexplain]
    rfl
  unfold ofCalculation
  rw [hresult]
  cases htree : c.tree with
  | none => rfl
  | some tree =>
    by_cases hshow : p.showTree = true
    · have hwritten : tree.textWithin allowance = some tree.text :=
        if_pos (hshown hshow tree htree)
      simp only [hshow, if_true, hwritten, andThen, String.empty_append]
    · simp only [if_neg hshow]

/-- **A failure is told in full and verbatim**, exactly if the command does not break off, the line
of the failure is no short code, and the failure is not that of a control which the console leaves
out. -/
theorem explained_verbatim_iff {p : Preferences} {watched : Bool} {text : String}
    {c : Calculation} {failure : Failure} (hexplain : p.explain = true)
    (hc : (calculate watched defaultName text).outcome = some c)
    (hfailure : c.result = .error failure) :
    (Report.ofCalculation p c).err =
        String.ofList (trimEnd failure.diagnostic.text.toList) ++ "\n" ↔
      (p.showTree = true → ∀ tree, c.tree = some tree → tree.height ≤ allowance) ∧
        failure.diagnostic.location.line ≠ 100 ∧ failure.diagnostic.location.line ≠ 1234 ∧
        ¬ failure.QuotesControl := by
  have hname : Worded defaultName := worded_of_all (by decide)
  by_cases hshown : p.showTree = true → ∀ tree, c.tree = some tree → tree.height ≤ allowance
  · rw [Report.err_ofCalculation_of_error hexplain hfailure hshown,
      Failure.paragraph_text_eq_iff hname hc hfailure]
    exact (and_iff_right hshown).symm
  · refine iff_of_false ?_ (fun h => hshown h.1)
    simp only [Classical.not_forall, Nat.not_le] at hshown
    obtain ⟨hshow, tree, htree, hheight⟩ := hshown
    rw [Report.ofCalculation_of_lt hshow htree hheight]
    -- nothing at all is written, not even the end of a line
    intro hempty
    have hbreak : "\n".length = 1 := rfl
    have hlength := congrArg String.length hempty
    rw [String.length_append, hbreak, String.length_empty] at hlength
    omega

/-- What is unexpected in the second line is told in full. -/
theorem explained_verbatim_second_line :
    let failure : Failure := .lexical ⟨.unexpectedCharacter '$', ⟨defaultName, 2, 1, 2⟩⟩
    let c : Calculation := ⟨"1\n$", [], none, .error failure⟩
    (calculate false defaultName "1\n$").outcome = some c ∧
      (Report.ofCalculation ⟨true, true, false⟩ c).err =
        String.ofList (trimEnd failure.diagnostic.text.toList) ++ "\n" := by
  intro failure c
  have hc : (calculate false defaultName "1\n$").outcome = some c :=
    staged_iff.1 (.lexical (tokenize_eq_error_iff.2 (by decide +kernel)))
  refine ⟨hc, (explained_verbatim_iff rfl hc rfl).2 ⟨?_, by decide, by decide, ?_⟩⟩
  · rintro - tree ⟨⟩
  · show ¬ ('$' = '\x07' ∨ '$' = '\x08')
    decide

/-- The text with a fault in its hundredth line. -/
def faultInLineHundred : String := String.ofList ('1' :: List.replicate 99 '\n' ++ ['$'])

/-- A fault in the hundredth line is not told verbatim: the console writes a symbol in the place of
the line. -/
theorem explained_line_hundred :
    ∃ c failure, (calculate false defaultName faultInLineHundred).outcome = some c ∧
      c.result = .error failure ∧
      (Report.ofCalculation ⟨false, true, false⟩ c).err =
        "ERROR: Unexpected character: '$'\n  --> <input>💯1\n" ++
          "  help: Expressions may only contain numbers, + - * / ^ and parentheses.\n" ∧
      (Report.ofCalculation ⟨false, true, false⟩ c).err ≠
        String.ofList (trimEnd failure.diagnostic.text.toList) ++ "\n" := by
  have htokens : tokenize defaultName faultInLineHundred =
      .error ⟨.unexpectedCharacter '$', ⟨defaultName, 100, 1, 100⟩⟩ :=
    tokenize_eq_error_iff.2 (by decide +kernel)
  have hc : (calculate false defaultName faultInLineHundred).outcome = some _ :=
    staged_iff.1 (.lexical htokens)
  refine ⟨_, _, hc, rfl, by decide +kernel, ?_⟩
  have hname : Worded defaultName := worded_of_all (by decide)
  rw [Report.err_ofCalculation_of_error rfl rfl (by rintro ⟨⟩), ne_eq,
    Failure.paragraph_text_eq_iff hname hc rfl]
  rintro ⟨hline, -⟩
  exact hline rfl

end Calculator
