import Calculator.Command.Report
import Calculator.Proofs.Depth.Watching

/-!
# Lines that break off

A line whose calculation is given up is a failure like others, and the lines behind it still get
their turn.  Showing an expression is not guarded like that: an expression that hides its depth has
been calculated, to a fault, and is only found to be too deep when it is shown.  Then the command
breaks off without a word about that line, and the lines behind it are lost.

## Main definitions

* `TooDeep` — a line that is nested too deeply for its calculation or for being shown.
* `BreaksOff` — a line that makes the command break off.
* `Report.inOrder` — the reports of several lines one after the other.

## Main results

* `Report.ofLine_of_breaksOff`, `Report.ending_ofLine_ne` — how a single line ends.
* `Report.ofLines_of_forall`, `Report.ofLines_append_cons` — several lines, up to one that breaks
  off.
* `ofLines_status_iff` — **the command ends with a status if and only if no line breaks off.**
-/

namespace Calculator

/-- The line is not blank, and its expression is nested too deeply for its calculation or for being
shown. -/
def TooDeep (p : Preferences) (line : String) : Prop :=
  trim line.toList ≠ [] ∧
    ((calculate p.verbose defaultName (String.ofList (trim line.toList))).outcome = none ∨
      p.showTree = true ∧ ∃ c tree,
        (calculate p.verbose defaultName (String.ofList (trim line.toList))).outcome = some c ∧
          c.tree = some tree ∧ allowance < tree.height)

/-- The line is not blank, and its expression is to be shown, but hides its depth: nobody has
watched its calculation. -/
def BreaksOff (p : Preferences) (line : String) : Prop :=
  trim line.toList ≠ [] ∧ p.showTree = true ∧ p.verbose = false ∧
    HidesDepth defaultName (String.ofList (trim line.toList))

/-! ### Endings -/

namespace Ending

theorem exists_status_iff {e : Ending} : (∃ n, e = status n) ↔ e ≠ brokenOff := by
  cases e with
  | status n => simp
  | brokenOff => simp

@[simp] theorem zero_andThen (e : Ending) : (status 0).andThen e = e := by
  cases e with
  | status n => cases n <;> rfl
  | brokenOff => rfl

theorem andThen_ne_brokenOff {e e' : Ending} (h : e ≠ brokenOff) (h' : e' ≠ brokenOff) :
    e.andThen e' ≠ brokenOff := by
  cases e' with
  | brokenOff => exact absurd rfl h'
  | status n =>
    cases n with
    | zero => exact h
    | succ n => exact h'

end Ending

namespace Report

/-- The reports of several lines one after the other, whatever they are. -/
def inOrder (p : Preferences) (lines : List String) : Report :=
  lines.foldr (fun line later => (ofLine p line).andThen later) empty

/-! ### One line -/

theorem ending_ofResult_ne (explain : Bool) (result : Except Failure Binary64) :
    (ofResult explain result).ending ≠ .brokenOff := by
  cases result <;> simp [ofResult, ofFailure]

/-- A calculation that is shown breaks off if its expression is too deep to be written. -/
theorem ofCalculation_of_lt {p : Preferences} {c : Calculation} {tree : Expr Binary64}
    (hshow : p.showTree = true) (htree : c.tree = some tree) (hheight : allowance < tree.height) :
    ofCalculation p c = ⟨"", "", .brokenOff⟩ := by
  have hwritten : tree.textWithin allowance = none := if_neg (Nat.not_le.2 hheight)
  simp only [ofCalculation, htree, hwritten, if_pos hshow]

/-- Every other calculation ends with a status. -/
theorem ending_ofCalculation_ne {p : Preferences} {c : Calculation}
    (h : p.showTree = true → ∀ tree, c.tree = some tree → tree.height ≤ allowance) :
    (ofCalculation p c).ending ≠ .brokenOff := by
  have hresult := ending_ofResult_ne p.explain c.result
  unfold ofCalculation
  cases htree : c.tree with
  | none => exact hresult
  | some tree =>
    by_cases hshow : p.showTree = true
    · have hwritten : tree.textWithin allowance = some tree.text := if_pos (h hshow tree htree)
      simp only [hshow, if_true, hwritten]
      rw [andThen, Ending.zero_andThen]
      exact hresult
    · simp only [if_neg hshow]
      exact hresult

/-- Nothing is told of a calculation that nobody watches but how it ends. -/
theorem ofText_of_some {p : Preferences} {text : String} {c : Calculation}
    (hverbose : p.verbose = false) (hc : (calculate p.verbose defaultName text).outcome = some c) :
    ofText p text = ofCalculation p c := by
  have hverbose' : ¬ p.verbose = true := by simp [hverbose]
  rw [ofText]
  simp only [hc, if_neg hverbose']

/-- A calculation that was given up is told, behind its notes if it was watched. -/
theorem exists_ofText_of_none {p : Preferences} {text : String}
    (hc : (calculate p.verbose defaultName text).outcome = none) :
    ∃ notes, ofText p text = (ofNotes notes).andThen tooDeep ∧
      (p.verbose = false → notes = []) := by
  rw [ofText]
  simp only [hc]
  by_cases hverbose : p.verbose = true
  · refine ⟨_, if_pos hverbose, ?_⟩
    intro hnot
    rw [hverbose] at hnot
    cases hnot
  · exact ⟨[], if_neg hverbose, fun _ => rfl⟩

/-- The notes of a calculation do not change how a text ends. -/
theorem ending_ofText (p : Preferences) (text : String) :
    (ofText p text).ending =
      match (calculate p.verbose defaultName text).outcome with
      | some c => (ofCalculation p c).ending
      | none => .status tooDeepStatus := by
  rw [ofText]
  cases (calculate p.verbose defaultName text).outcome with
  | none => by_cases hverbose : p.verbose = true <;> simp [hverbose, andThen, ofNotes, tooDeep]
  | some c => by_cases hverbose : p.verbose = true <;> simp [hverbose, andThen, ofNotes]

theorem ofLine_of_ne {p : Preferences} {line : String} (h : trim line.toList ≠ []) :
    ofLine p line = ofText p (String.ofList (trim line.toList)) := by
  rw [ofLine]
  exact if_neg (by simpa using h)

theorem ofLine_of_breaksOff {p : Preferences} {line : String} (h : BreaksOff p line) :
    ofLine p line = ⟨"", "", .brokenOff⟩ := by
  obtain ⟨hne, hshow, hverbose, hhides⟩ := h
  obtain ⟨c, tree, hc, htree, hheight⟩ :=
    exists_tree_iff_hidesDepth.2 ⟨hverbose, hhides⟩
  rw [ofLine_of_ne hne, ofText_of_some hverbose hc]
  exact ofCalculation_of_lt hshow htree hheight

theorem ending_ofLine_ne {p : Preferences} {line : String} (h : ¬ BreaksOff p line) :
    (ofLine p line).ending ≠ .brokenOff := by
  by_cases hblank : trim line.toList = []
  · rw [ofLine]
    simp [hblank, empty]
  · rw [ofLine_of_ne hblank, ending_ofText]
    split
    · rename_i c hc
      refine ending_ofCalculation_ne ?_
      intro hshow tree htree
      -- an expression that is too deep to be shown would have made the line break off
      refine Nat.not_lt.1 fun hheight => h ?_
      obtain ⟨hverbose, hhides⟩ := exists_tree_iff_hidesDepth.1 ⟨c, tree, hc, htree, hheight⟩
      exact ⟨hblank, hshow, hverbose, hhides⟩
    · intro hending
      cases hending

/-- A line that is nested too deeply and does not break off is reported as too deep. -/
theorem exists_ofLine_of_tooDeep {p : Preferences} {line : String} (h : TooDeep p line)
    (hnot : ¬ BreaksOff p line) :
    ∃ notes, ofLine p line = (ofNotes notes).andThen tooDeep ∧
      (p.verbose = false → notes = []) := by
  obtain ⟨hne, hc | ⟨hshow, htree⟩⟩ := h
  · rw [ofLine_of_ne hne]
    exact exists_ofText_of_none hc
  · obtain ⟨hverbose, hhides⟩ := exists_tree_iff_hidesDepth.1 htree
    exact absurd ⟨hne, hshow, hverbose, hhides⟩ hnot

/-! ### Several lines -/

/-- Without a line that breaks off, every line is reported, one after the other. -/
theorem ofLines_of_forall {p : Preferences} {lines : List String}
    (h : ∀ line ∈ lines, ¬ BreaksOff p line) : ofLines p lines = inOrder p lines := by
  induction lines with
  | nil => rfl
  | cons line lines ih =>
    rw [ofLines]
    simp only [if_neg (ending_ofLine_ne (h line (by simp)))]
    rw [ih fun later hlater => h later (by simp [hlater])]
    rfl

theorem ending_inOrder_ne {p : Preferences} {lines : List String}
    (h : ∀ line ∈ lines, ¬ BreaksOff p line) : (inOrder p lines).ending ≠ .brokenOff := by
  induction lines with
  | nil => simp [inOrder, empty]
  | cons line lines ih =>
    exact Ending.andThen_ne_brokenOff (ending_ofLine_ne (h line (by simp)))
      (ih fun later hlater => h later (by simp [hlater]))

/-- Where the first line breaks off nothing is reported. -/
theorem ofLines_of_breaksOff {p : Preferences} {line : String} (h : BreaksOff p line)
    (after : List String) : ofLines p (line :: after) = ⟨"", "", .brokenOff⟩ := by
  rw [ofLines, ofLine_of_breaksOff h]
  rfl

/-- The first line that breaks off ends the report, and the lines behind it are lost. -/
theorem ofLines_append_cons {p : Preferences} {before after : List String} {line : String}
    (hbefore : ∀ l ∈ before, ¬ BreaksOff p l) (hline : BreaksOff p line) :
    ofLines p (before ++ line :: after) = { inOrder p before with ending := .brokenOff } := by
  -- each line before it adds its report in front, and the ending stays
  induction before with
  | nil => exact ofLines_of_breaksOff hline after
  | cons first before ih =>
    rw [List.cons_append, ofLines]
    simp only [if_neg (ending_ofLine_ne (hbefore first (by simp)))]
    rw [ih fun l hl => hbefore l (by simp [hl])]
    rfl

/-- Among lines of which some break off there is a first one. -/
theorem exists_first_breaksOff {p : Preferences} {lines : List String}
    (h : ¬ ∀ line ∈ lines, ¬ BreaksOff p line) :
    ∃ before line after, lines = before ++ line :: after ∧
      (∀ l ∈ before, ¬ BreaksOff p l) ∧ BreaksOff p line := by
  induction lines with
  | nil => exact absurd (by simp) h
  | cons line lines ih =>
    by_cases hline : BreaksOff p line
    · exact ⟨[], line, lines, rfl, by simp, hline⟩
    · have hlater : ¬ ∀ later ∈ lines, ¬ BreaksOff p later := by
        intro hall
        exact h (by simpa [hline] using hall)
      obtain ⟨before, later, after, rfl, hbefore, hbreaks⟩ := ih hlater
      exact ⟨line :: before, later, after, rfl, by simpa [hline] using hbefore, hbreaks⟩

end Report

/-- **The command ends with a status if and only if no line breaks off.**  Then every line is
reported in its turn, those that are nested too deeply with the status for that.  Otherwise the
report ends in front of the first line that breaks off. -/
theorem ofLines_status_iff (p : Preferences) (lines : List String) :
    ((∃ n, (Report.ofLines p lines).ending = .status n) ↔ ∀ line ∈ lines, ¬ BreaksOff p line) ∧
      ((∀ line ∈ lines, ¬ BreaksOff p line) →
        Report.ofLines p lines = Report.inOrder p lines ∧
          ∀ line ∈ lines, TooDeep p line → ∃ notes,
            Report.ofLine p line = (Report.ofNotes notes).andThen .tooDeep ∧
              (p.verbose = false → notes = [])) ∧
      ((¬ ∀ line ∈ lines, ¬ BreaksOff p line) →
        ∃ before line after, lines = before ++ line :: after ∧
          (∀ l ∈ before, ¬ BreaksOff p l) ∧ BreaksOff p line ∧
          Report.ofLines p lines = { Report.inOrder p before with ending := .brokenOff }) := by
  have hbroken : (¬ ∀ line ∈ lines, ¬ BreaksOff p line) →
      ∃ before line after, lines = before ++ line :: after ∧
        (∀ l ∈ before, ¬ BreaksOff p l) ∧ BreaksOff p line ∧
        Report.ofLines p lines = { Report.inOrder p before with ending := .brokenOff } := by
    intro h
    obtain ⟨before, line, after, rfl, hbefore, hline⟩ := Report.exists_first_breaksOff h
    exact ⟨before, line, after, rfl, hbefore, hline, Report.ofLines_append_cons hbefore hline⟩
  refine ⟨?_, ?_, hbroken⟩
  · rw [Ending.exists_status_iff]
    constructor
    · intro hstatus
      refine Classical.byContradiction fun h => hstatus ?_
      obtain ⟨before, line, after, -, -, -, hreport⟩ := hbroken h
      rw [hreport]
    · intro h
      rw [Report.ofLines_of_forall h]
      exact Report.ending_inOrder_ne h
  · intro h
    refine ⟨Report.ofLines_of_forall h, ?_⟩
    intro line hline hdeep
    exact Report.exists_ofLine_of_tooDeep hdeep (h line hline)

/-! ### A line that breaks off -/

theorem trim_of_forall {cs : List Char} (h : ∀ c ∈ cs, isBlank c = false) : trim cs = cs := by
  have hdrop : ∀ {ds : List Char}, (∀ c ∈ ds, isBlank c = false) → ds.dropWhile isBlank = ds := by
    intro ds hds
    cases ds with
    | nil => rfl
    | cons d ds => rw [List.dropWhile_cons_of_neg (by simp [hds d (by simp)])]
  rw [trim, trimEnd, hdrop h, hdrop (by simpa using h), List.reverse_reverse]

theorem isBlank_hiddenProduct {n : Nat} : ∀ c ∈ (hiddenProduct n).toList, isBlank c = false := by
  have hones : ∀ c ∈ onesBehind '*' n, isBlank c = false := by
    induction n with
    | zero => simp [onesBehind]
    | succ n ih =>
      intro c hc
      rw [onesBehind, List.mem_cons, List.mem_cons] at hc
      rcases hc with rfl | rfl | hc
      · rfl
      · rfl
      · exact ih c hc
  intro c hc
  simp only [hiddenProduct, String.toList_ofList, List.mem_cons] at hc
  rcases hc with rfl | rfl | rfl | rfl | rfl | hc
  · rfl
  · rfl
  · rfl
  · rfl
  · rfl
  · exact hones c hc

theorem breaksOff_hiddenProduct {n : Nat} (hn : allowance ≤ n + 1) (explain : Bool) :
    BreaksOff ⟨true, explain, false⟩ (hiddenProduct n) := by
  have htrim := trim_of_forall (isBlank_hiddenProduct (n := n))
  rw [BreaksOff, htrim]
  refine ⟨by simp [hiddenProduct], rfl, rfl, ?_⟩
  rw [String.ofList_toList]
  exact hidesDepth_hiddenProduct defaultName hn

/-- Nothing is left of two lines if the first of them breaks off. -/
theorem ofLines_hiddenProduct :
    Report.ofLines ⟨true, false, false⟩ [hiddenProduct 2000, "2"] = ⟨"", "", .brokenOff⟩ :=
  Report.ofLines_of_breaksOff (breaksOff_hiddenProduct (by decide) false) ["2"]

end Calculator
