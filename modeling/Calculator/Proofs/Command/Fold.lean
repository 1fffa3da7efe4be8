import Calculator.Proofs.Calculation.Spacing
import Calculator.Proofs.Command.Words
import Calculator.Proofs.Expr.Guards
import Calculator.Proofs.Text.OneLine

/-!
# One line after the other

Where expressions are not shown, no line breaks off, and the report of several lines is put together
from the reports of the single lines: what they write stands in order, and the last line that fails
gives the status.  If nothing else is asked for either, a line that is not blank writes one line, a
value or the summary of its failure, whatever characters it holds: the characters that end a line
are white space, which is never quoted in a summary.

## Main definitions

* `Succeeds` — a text with a value.
* `Failure.FromText` — what a failure tells of comes from a text.

## Main results

* `Failure.oneLine_summary` — the summary of a failure is one line.
* `Report.ofLines_append` — lines in front of other lines.
* `Report.exists_last_failure` — which line gives the status.
* `Report.exists_ofLine_of_succeeds`, `Report.exists_ofLine_of_not_succeeds` — what one line writes.
* `lines_reported_one_by_one` — **lines are reported one after the other, each in one line.**
-/

namespace Calculator

/-- The text has a value. -/
def Succeeds (text : String) : Prop :=
  ∃ c x, (calculate false defaultName text).outcome = some c ∧ c.result = .ok x

/-! ### Summaries -/

theorem exists_fits_of_tokenize {name text : String} {fault : LexicalFault}
    (h : tokenize name text = .error fault) : ∃ rest, Piece.Fits (.error fault) rest := by
  have hmem : fault ∈ (scan name text).faults := List.mem_of_head? (tokenize_eq_error_iff.1 h)
  obtain ⟨before, after, -, -, hfits⟩ :=
    (Scanner.tiled_pieces name (.ofText text)).stands (mem_of_mem_pieceFaults hmem)
  exact ⟨after, hfits⟩

namespace Failure

theorem severity_diagnostic (failure : Failure) : failure.diagnostic.severity = "error" := by
  cases failure <;> rfl

theorem oneLine_severity (failure : Failure) : OneLine failure.diagnostic.severity := by
  rw [severity_diagnostic]
  decide

theorem oneLine_code (failure : Failure) : ∀ code ∈ failure.diagnostic.code, OneLine code := by
  have hall : ∀ code ∈ LexicalFault.codes ++ SyntaxFault.codes ++ ArithmeticFault.codes,
    OneLine code.id := by decide
  intro code hcode
  cases failure with
  | lexical fault =>
    obtain rfl := Option.some.inj hcode
    refine hall fault.cause.code ?_
    obtain ⟨cause, location⟩ := fault
    cases cause <;> simp [LexicalFault.Cause.code, LexicalFault.codes]
  | syntactic fault =>
    obtain rfl := Option.some.inj hcode
    refine hall fault.code ?_
    cases fault <;> simp [SyntaxFault.code, SyntaxFault.codes]
  | arithmetic fault =>
    obtain rfl := Option.some.inj hcode
    exact hall fault.code (List.mem_append_right _ fault.code_mem_codes)

/-- What the failure tells of comes from a text: a piece of it, or a token with a worded lexeme. -/
def FromText : Failure → Prop
  | lexical fault => ∃ rest, Piece.Fits (.error fault) rest
  | syntactic fault => Worded fault.found.lexeme
  | arithmetic _ => True

/-- A calculation fails in what comes from its text. -/
theorem fromText_of_outcome {watched : Bool} {name text : String} {c : Calculation}
    {failure : Failure} (hc : (calculate watched name text).outcome = some c)
    (h : c.result = .error failure) : failure.FromText := by
  cases staged_iff.2 hc with
  | lexical htokens =>
    cases h
    exact exists_fits_of_tokenize htokens
  | syntactic htokens hfault =>
    cases h
    exact worded_lexeme_of_mem htokens (mem_of_parse_fault htokens hfault).1
  | arithmetic hreads hwritten hfault =>
    cases h
    trivial
  | value hreads hvalue => cases h

/-- **The summary of a failure is one line**, whatever the text is that fails. -/
theorem oneLine_summary {failure : Failure} (h : failure.FromText) :
    OneLine failure.diagnostic.summary := by
  refine Diagnostic.oneLine_summary failure.oneLine_severity failure.oneLine_code ?_
  cases failure with
  | lexical fault =>
    obtain ⟨rest, hfits⟩ := h
    exact LexicalFault.oneLine_message hfits
  | syntactic fault => exact oneLine_of_worded (SyntaxFault.worded_message h)
  | arithmetic fault => exact fault.oneLine_message

theorem status_ne_zero (failure : Failure) : failure.status ≠ 0 := by
  cases failure <;> exact Nat.succ_ne_zero _

end Failure

/-! ### Reports in order -/

namespace Ending

/-- The later status counts unless it is zero. -/
theorem status_andThen_status (m n : Nat) :
    (status m).andThen (status n) = status (if n = 0 then m else n) := by
  cases n <;> rfl

theorem andThen_assoc (e e' e'' : Ending) :
    (e.andThen e').andThen e'' = e.andThen (e'.andThen e'') := by
  cases e'' with
  | brokenOff => rfl
  | status n => cases n <;> rfl

end Ending

namespace Report

theorem andThen_assoc (r r' r'' : Report) :
    (r.andThen r').andThen r'' = r.andThen (r'.andThen r'') := by
  simp only [andThen, String.append_assoc, Ending.andThen_assoc]

@[simp] theorem empty_andThen (r : Report) : empty.andThen r = r := by
  simp only [andThen, empty, String.empty_append, Ending.zero_andThen]

theorem inOrder_append (p : Preferences) (a b : List String) :
    inOrder p (a ++ b) = (inOrder p a).andThen (inOrder p b) := by
  induction a with
  | nil => exact (empty_andThen _).symm
  | cons line a ih =>
    show (ofLine p line).andThen (inOrder p (a ++ b)) = _
    rw [ih, ← andThen_assoc]
    rfl

section WithoutTrees

variable {p : Preferences}

theorem not_breaksOff (hp : p.showTree = false) (line : String) : ¬ BreaksOff p line := by
  rintro ⟨-, hshow, -⟩
  rw [hp] at hshow
  cases hshow

theorem ofLines_eq_inOrder (hp : p.showTree = false) (lines : List String) :
    ofLines p lines = inOrder p lines :=
  ofLines_of_forall fun line _ => not_breaksOff hp line

theorem exists_status_ofLine (hp : p.showTree = false) (line : String) :
    ∃ n, (ofLine p line).ending = .status n :=
  Ending.exists_status_iff.2 (ending_ofLine_ne (not_breaksOff hp line))

theorem exists_status_ofLines (hp : p.showTree = false) (lines : List String) :
    ∃ n, (ofLines p lines).ending = .status n := by
  rw [ofLines_eq_inOrder hp]
  exact Ending.exists_status_iff.2 (ending_inOrder_ne fun line _ => not_breaksOff hp line)

/-- **Lines in front of other lines**: both are reported as they are alone. -/
theorem ofLines_append (hp : p.showTree = false) (a b : List String) :
    ofLines p (a ++ b) = (ofLines p a).andThen (ofLines p b) := by
  simp only [ofLines_eq_inOrder hp]
  exact inOrder_append p a b

/-- **The last line that fails gives the status**; it is zero if no line fails. -/
theorem exists_last_failure (hp : p.showTree = false) (lines : List String) :
    (∀ line ∈ lines, (ofLine p line).ending = .status 0) ∧
        (ofLines p lines).ending = .status 0 ∨
      ∃ before line after n, lines = before ++ line :: after ∧
        (ofLine p line).ending = .status n ∧ n ≠ 0 ∧
        (∀ later ∈ after, (ofLine p later).ending = .status 0) ∧
        (ofLines p lines).ending = .status n := by
  rw [ofLines_eq_inOrder hp]
  induction lines with
  | nil => exact Or.inl ⟨by simp, rfl⟩
  | cons first lines ih =>
    obtain ⟨m, hm⟩ := exists_status_ofLine hp first
    have hending : (inOrder p (first :: lines)).ending =
        (Ending.status m).andThen (inOrder p lines).ending := by
      rw [← hm]
      rfl
    rcases ih with ⟨hall, hzero⟩ | ⟨before, line, after, n, rfl, hline, hn, hafter, hlast⟩
    · -- nothing behind the first line fails, so that its own status is left
      rw [hzero] at hending
      by_cases hfirst : m = 0
      · subst hfirst
        exact Or.inl ⟨by simpa [hm] using hall, hending⟩
      · exact Or.inr ⟨[], first, lines, m, rfl, hm, hfirst, hall, hending⟩
    · rw [hlast, Ending.status_andThen_status, if_neg hn] at hending
      exact Or.inr ⟨first :: before, line, after, n, rfl, hline, hn, hafter, hending⟩

end WithoutTrees

/-! ### One line -/

/-- A line that is not blank is reported as the text without the white space around it. -/
theorem ofLine_eq_ofOutcome {line : String} (h : ∃ c ∈ line.toList, isBlank c = false) :
    ofLine ⟨false, false, false⟩ line =
      ofOutcome id (calculate false defaultName (String.ofList (trim line.toList))).outcome := by
  rw [ofLine_of_ne (trim_ne_nil h), ofText_eq_ofOutcome]

theorem exists_ofLine_of_succeeds {line : String} (h : ∃ c ∈ line.toList, isBlank c = false)
    (hsucceeds : Succeeds (String.ofList (trim line.toList))) :
    ∃ shown, OneLine shown ∧
      ofLine ⟨false, false, false⟩ line = ⟨shown ++ "\n", "", .status 0⟩ := by
  obtain ⟨c, x, hc, hx⟩ := hsucceeds
  refine ⟨x.display, oneLine_of_worded x.worded_display, ?_⟩
  rw [ofLine_eq_ofOutcome h, hc, ofOutcome, hx]

theorem exists_ofLine_of_not_succeeds {line : String} (h : ∃ c ∈ line.toList, isBlank c = false)
    (hfails : ¬ Succeeds (String.ofList (trim line.toList))) :
    ∃ shown n, OneLine shown ∧ n ≠ 0 ∧
      ofLine ⟨false, false, false⟩ line = ⟨"", shown ++ "\n", .status n⟩ := by
  rw [ofLine_eq_ofOutcome h]
  cases hc : (calculate false defaultName (String.ofList (trim line.toList))).outcome with
  | none => exact ⟨"error: expression nested too deeply", tooDeepStatus, by decide, by decide, rfl⟩
  | some c =>
    cases hresult : c.result with
    | ok x => exact absurd ⟨c, x, hc, hresult⟩ hfails
    | error failure =>
      have hsummary := Failure.oneLine_summary (Failure.fromText_of_outcome hc hresult)
      refine ⟨failure.diagnostic.summary, failure.status, hsummary, failure.status_ne_zero, ?_⟩
      rw [ofOutcome, hresult]
      rfl

end Report

/-- **Lines are reported one after the other, each in one line.**  If nothing but values and
summaries is asked for, lines in front of other lines are reported as they are alone, and the later
status counts unless it is zero.  So the status is that of the last line that fails, or zero.  A
blank line writes nothing.  Every other line is reported as the outcome of the text without the
white space around it, in one line: if it succeeds, on the standard output with status zero, and if
it fails, on the standard error output with another status. -/
theorem lines_reported_one_by_one :
    let p : Preferences := ⟨false, false, false⟩
    (∀ a b : List String, ∃ m n, (Report.ofLines p a).ending = .status m ∧
      (Report.ofLines p b).ending = .status n ∧
      Report.ofLines p (a ++ b) =
        ⟨(Report.ofLines p a).out ++ (Report.ofLines p b).out,
          (Report.ofLines p a).err ++ (Report.ofLines p b).err,
          .status (if n = 0 then m else n)⟩) ∧
      (∀ lines : List String,
        (∀ line ∈ lines, (Report.ofLine p line).ending = .status 0) ∧
            (Report.ofLines p lines).ending = .status 0 ∨
          ∃ before line after n, lines = before ++ line :: after ∧
            (Report.ofLine p line).ending = .status n ∧ n ≠ 0 ∧
            (∀ later ∈ after, (Report.ofLine p later).ending = .status 0) ∧
            (Report.ofLines p lines).ending = .status n) ∧
      (∀ line : String, Report.ofLines p [line] = Report.ofLine p line) ∧
      (∀ line : String, (∀ c ∈ line.toList, isBlank c = true) →
        Report.ofLine p line = .empty) ∧
      ∀ line : String, (∃ c ∈ line.toList, isBlank c = false) →
        let text := String.ofList (trim line.toList)
        Report.ofLine p line = .ofOutcome id (calculate false defaultName text).outcome ∧
          (Succeeds text →
            ∃ shown, OneLine shown ∧ Report.ofLine p line = ⟨shown ++ "\n", "", .status 0⟩) ∧
          (¬ Succeeds text →
            ∃ shown n, OneLine shown ∧ n ≠ 0 ∧
              Report.ofLine p line = ⟨"", shown ++ "\n", .status n⟩) := by
  intro p
  have hp : p.showTree = false := rfl
  refine ⟨?_, Report.exists_last_failure hp, ?_, fun line => Report.ofLine_of_forall, ?_⟩
  · intro a b
    obtain ⟨m, hm⟩ := Report.exists_status_ofLines hp a
    obtain ⟨n, hn⟩ := Report.exists_status_ofLines hp b
    refine ⟨m, n, hm, hn, ?_⟩
    rw [Report.ofLines_append hp, ← Ending.status_andThen_status, ← hm, ← hn]
    rfl
  · intro line
    exact Report.ofLines_singleton (Report.ending_ofLine_ne (Report.not_breaksOff hp line))
  · intro line hline
    exact ⟨Report.ofLine_eq_ofOutcome hline, Report.exists_ofLine_of_succeeds hline,
      Report.exists_ofLine_of_not_succeeds hline⟩

end Calculator
