import Calculator.Proofs.Calculation.Trimming
import Calculator.Proofs.Command.Lines

/-!
# Words of an expression

Words among the arguments are joined with spaces and go the way of a line of the standard input: the
white space around the text is taken off before it is calculated, and a text that is nothing but
white space is passed over.  So the value is that of the joined words, and a failure has the same
status, but it tells its offset in the text that was left; and where a calculation of no words at
all would fail, nothing is reported.

## Main definitions

* `Report.ofOutcome` — the report of an outcome with offsets counted in some way.

## Main results

* `Report.ofText_eq_ofOutcome` — what is reported of a text.
* `Report.ofOutcome_moved` — an outcome in other places, with the places counted back.
* `runCommand_words` — **what is reported of words.**
-/

namespace Calculator

/-- The diagnostic with its offset counted in another way. -/
def Diagnostic.recounted (count : Int → Int) (d : Diagnostic) : Diagnostic :=
  { d with location := { d.location with offset := count d.location.offset } }

/-- The report of an outcome with offsets counted in some way: a value in one line, the summary of a
failure with its status, or that the text is nested too deeply. -/
def Report.ofOutcome (count : Int → Int) : Option Calculation → Report
  | none => tooDeep
  | some c =>
    match c.result with
    | .ok value => ⟨value.display ++ "\n", "", .status 0⟩
    | .error failure =>
      ⟨"", (failure.diagnostic.recounted count).summary ++ "\n", .status failure.status⟩

theorem Failure.status_moved (g : Location → Location) (failure : Failure) :
    (failure.moved g).status = failure.status := by
  cases failure <;> rfl

namespace Report

/-! ### Texts -/

/-- What is reported of a text, if nothing else is asked for. -/
theorem ofText_eq_ofOutcome (text : String) :
    ofText ⟨false, false, false⟩ text =
      ofOutcome id (calculate false defaultName text).outcome := by
  cases hc : (calculate false defaultName text).outcome with
  | none =>
    obtain ⟨notes, hreport, hnotes⟩ := exists_ofText_of_none (p := ⟨false, false, false⟩) hc
    rw [hreport, hnotes rfl]
    rfl
  | some c =>
    rw [ofText_of_some rfl hc]
    obtain ⟨text', tokens, tree, result⟩ := c
    cases result <;> cases tree <;> rfl

theorem ofLines_singleton {p : Preferences} {line : String}
    (h : (ofLine p line).ending ≠ .brokenOff) : ofLines p [line] = ofLine p line := by
  rw [ofLines]
  simp only [if_neg h]
  obtain ⟨out, err, ending⟩ := ofLine p line
  simp [ofLines, andThen, empty, Ending.andThen]

/-! ### Outcomes in other places -/

/-- The summary of a failure in another place, with the offset counted back. -/
theorem summary_recounted_moved {count : Int → Int} {g : Location → Location} {failure : Failure}
    (h : count (g failure.diagnostic.location).offset = failure.diagnostic.location.offset) :
    ((failure.moved g).diagnostic.recounted count).summary =
      (failure.diagnostic.recounted id).summary := by
  obtain ⟨hseverity, hcode, hmessage⟩ := failure.diagnostic_moved (g := g)
  have hoffset : ((failure.moved g).diagnostic.recounted count).location.offset =
      (failure.diagnostic.recounted id).location.offset := by
    show count (failure.moved g).diagnostic.location.offset = _
    rw [Failure.location_moved, h]
    rfl
  unfold Diagnostic.summary
  rw [hoffset]
  show (failure.moved g).diagnostic.severity ++
    Diagnostic.given (failure.moved g).diagnostic.code _ ++ ": " ++
      (failure.moved g).diagnostic.message ++ _ ++ _ ++ _ = _
  rw [hseverity, hcode, hmessage]
  rfl

/-- **An outcome in other places, with the places counted back**, has the report of the outcome. -/
theorem ofOutcome_moved {count : Int → Int} {g : Location → Location} {text : String}
    {outcome : Option Calculation}
    (h : ∀ c failure, outcome = some c → c.result = .error failure →
      count (g failure.diagnostic.location).offset = failure.diagnostic.location.offset) :
    ofOutcome count (outcome.map (Calculation.moved g text)) = ofOutcome id outcome := by
  cases outcome with
  | none => rfl
  | some c =>
    obtain ⟨text', tokens, tree, result⟩ := c
    cases result with
    | ok value => rfl
    | error failure =>
      have hsummary := summary_recounted_moved (h _ failure rfl rfl)
      show Report.mk "" (((failure.moved g).diagnostic.recounted count).summary ++ "\n")
        (.status (failure.moved g).status) = _
      rw [hsummary, failure.status_moved]
      rfl

/-- The report of a text with white space around it, from that of the text alone. -/
theorem ofOutcome_surrounded {text inner : String} {before behind : List Char}
    (htext : text.toList = before ++ (inner.toList ++ behind))
    (hbefore : ∀ c ∈ before, isBlank c = true) (hbehind : ∀ c ∈ behind, isBlank c = true)
    (name : String) :
    ofOutcome (fun p => min (p - before.length) inner.length)
        (calculate false name text).outcome =
      ofOutcome id (calculate false name inner).outcome := by
  have hlength : text.length = before.length + (inner.length + behind.length) := by
    rw [← String.length_toList, ← String.length_toList, htext, List.length_append,
      List.length_append]
  rw [outcome_surrounded htext hbefore hbehind]
  refine ofOutcome_moved ?_
  intro c failure hc hfailure
  obtain ⟨p, hp, hlocation⟩ := exists_location_of_failure hc hfailure
  rw [hlocation, Location.surrounded_inText name text hp, Location.offset_inText name hp]
  -- the end of the text alone is found at the end of the whole text
  by_cases hend : p = inner.length
  · rw [if_pos hend, Location.offset_inText name (Nat.le_refl _)]
    omega
  · rw [if_neg hend, Location.offset_inText name (by omega)]
    omega

/-! ### Lines -/

theorem ofLine_of_forall {p : Preferences} {line : String}
    (h : ∀ c ∈ line.toList, isBlank c = true) : ofLine p line = empty := by
  rw [ofLine, trim_eq_nil_iff.2 h]
  rfl

/-- Every other line is calculated without the white space around it, which moves its failure. -/
theorem ofLine_of_exists {line : String} (h : ∃ c ∈ line.toList, isBlank c = false) :
    ofLine ⟨false, false, false⟩ line = ofOutcome
      (fun p => min (p - (line.toList.takeWhile isBlank).length) (trim line.toList).length)
      (calculate false defaultName line).outcome := by
  obtain ⟨behind, hline, hbehind⟩ := exists_trim line.toList
  have hinner : line.toList = line.toList.takeWhile isBlank ++
      ((String.ofList (trim line.toList)).toList ++ behind) := by
    rw [String.toList_ofList]
    exact hline
  have hlead : ∀ c ∈ line.toList.takeWhile isBlank, isBlank c = true := fun c hc =>
    List.all_eq_true.1 List.all_takeWhile c hc
  rw [ofLine_of_ne (trim_ne_nil h), ofText_eq_ofOutcome,
    ← ofOutcome_surrounded hinner hlead hbehind defaultName, String.length_ofList]

end Report

/-- **What is reported of words**: nothing if the joined words are blank, and otherwise the outcome
of the joined words, where a failure tells its offset in what is left without the white space around
them. -/
theorem runCommand_words {arguments words : List String} {environment : String → Option String}
    (h : Request.read environment arguments = .ok (.calculate ⟨false, false, false⟩ words))
    (hne : words ≠ []) (input : String) :
    let text := " ".intercalate words
    ((∀ c ∈ text.toList, isBlank c = true) → runCommand arguments environment input = .empty) ∧
      ((∃ c ∈ text.toList, isBlank c = false) →
        runCommand arguments environment input = .ofOutcome
          (fun p => min (p - (text.toList.takeWhile isBlank).length) (trim text.toList).length)
          (calculate false defaultName text).outcome) := by
  intro text
  have hwords : words.isEmpty = false := by
    cases words with
    | nil => exact absurd rfl hne
    | cons w words => rfl
  have hlines : runCommand arguments environment input =
      Report.ofLines ⟨false, false, false⟩ [text] := by
    simp only [runCommand, h, hwords]
    rfl
  have hline : (Report.ofLine ⟨false, false, false⟩ text).ending ≠ .brokenOff := by
    refine Report.ending_ofLine_ne ?_
    rintro ⟨-, hshow, -⟩
    cases hshow
  rw [hlines, Report.ofLines_singleton hline]
  exact ⟨Report.ofLine_of_forall, Report.ofLine_of_exists⟩

/-- White space around the words is not counted in the offset of a failure. -/
theorem runCommand_words_surrounded :
    Request.read (fun _ => none) [" 1", "+", "$ "] =
        .ok (.calculate ⟨false, false, false⟩ [" 1", "+", "$ "]) ∧
      runCommand [" 1", "+", "$ "] (fun _ => none) "" =
        .ofOutcome (fun p => min (p - 1) 5) (calculate false defaultName " 1 + $ ").outcome := by
  have hread : Request.read (fun _ => none) [" 1", "+", "$ "] =
      .ok (.calculate ⟨false, false, false⟩ [" 1", "+", "$ "]) := rfl
  obtain ⟨-, h⟩ := runCommand_words hread (by decide) ""
  exact ⟨hread, h ⟨'1', by decide, rfl⟩⟩

/-- Nothing is reported of a blank word, although the blank text is not an expression; and the
offset of a failure is not that in the word as it was given. -/
theorem runCommand_words_blank :
    runCommand [" "] (fun _ => none) "" = .empty ∧
      Report.ofOutcome id (calculate false defaultName " ").outcome =
        ⟨"", "error[P001]: Expected a number or '(', found end of input (at offset 1)\n",
          .status 2⟩ ∧
      runCommand [" $"] (fun _ => none) "" =
        ⟨"", "error[L001]: Unexpected character: '$' (at offset 0)\n", .status 1⟩ ∧
      Report.ofOutcome id (calculate false defaultName " $").outcome =
        ⟨"", "error[L001]: Unexpected character: '$' (at offset 1)\n", .status 1⟩ := by
  decide +kernel

end Calculator
