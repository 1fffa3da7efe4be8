import Calculator.Proofs.Depth.Watching
import Calculator.Proofs.Scan.Places

/-!
# The stages of a calculation

A text is scanned, what was found is read as an expression, and the expression is evaluated.  The
first stage that fails ends the calculation with its own fault, whatever a later stage would say.

## Main definitions

* `Staged` — what the stages of a text add up to.

## Main results

* `exists_tiled_of_tokenize` — the tokens of a text tile it, and the end of the text follows them.
* `tokenize_eq_error_iff`, `faults_ne_nil_iff` — the fault of a text is the leftmost that a scan
  finds in it.
* `staged_iff` — **the outcome of a calculation is what its stages add up to.**
-/

namespace Calculator

/-! ### Scanning -/

theorem map_pieceTokens {pieces : List Piece} (h : pieceFaults pieces = []) :
    (pieceTokens pieces).map .ok = pieces := by
  induction pieces with
  | nil => rfl
  | cons p pieces ih =>
    cases p with
    | ok t => exact congrArg (Except.ok t :: ·) (ih h)
    | error f => cases h

/-- **The tokens of a text tile it**, and behind them is the end of the text. -/
theorem exists_tiled_of_tokenize {name text : String} {tokens : List Token}
    (h : tokenize name text = .ok tokens) :
    ∃ front, tokens = front ++ [.finish (.inText name text text.length)] ∧
      (Scanner.ofText text).Tiled name (front.map .ok) ∧ ∀ t ∈ front, t.kind ≠ .finish := by
  have htiled := Scanner.tiled_pieces name (.ofText text)
  unfold tokenize scan at h
  dsimp only at h
  split at h
  · rename_i hfaults
    refine ⟨pieceTokens ((Scanner.ofText text).pieces name).1, ?_, ?_, ?_⟩
    · rw [← Scanner.location_last]
      exact (Except.ok.inj h).symm
    · rwa [map_pieceTokens hfaults]
    · intro t ht
      obtain ⟨before, after, -, -, hfits⟩ := htiled.stands (mem_of_mem_pieceTokens ht)
      exact hfits.kind_ne_finish
  · cases h

/-- The fault of a text is the first that a scan finds. -/
theorem tokenize_eq_error_iff {name text : String} {fault : LexicalFault} :
    tokenize name text = .error fault ↔ (scan name text).faults.head? = some fault := by
  unfold tokenize
  dsimp only
  cases (scan name text).faults with
  | nil => simp
  | cons f faults => simp

theorem ordered_faults (name text : String) :
    (scan name text).faults.Pairwise fun f f' => f.location.offset < f'.location.offset := by
  have htiled := Scanner.tiled_pieces name (.ofText text)
  have hstarts : ((Scanner.ofText text).pieces name).1.Pairwise
      fun p q => p.location.offset < q.location.offset := htiled.starts
  refine hstarts.filterMap _ ?_
  intro p q hlt f hf f' hf'
  cases p with
  | ok t => cases hf
  | error _ =>
    cases q with
    | ok t => cases hf'
    | error _ =>
      cases hf
      cases hf'
      exact hlt

/-- **The fault of a text is the leftmost** of those that a scan finds in it, if there are any. -/
theorem faults_ne_nil_iff {name text : String} :
    (scan name text).faults ≠ [] ↔ ∃ fault, tokenize name text = .error fault ∧
      fault ∈ (scan name text).faults ∧ ∀ other ∈ (scan name text).faults,
        other ≠ fault → fault.location.offset < other.location.offset := by
  constructor
  · intro hne
    obtain ⟨fault, faults, hfaults⟩ := List.exists_cons_of_ne_nil hne
    have hordered := ordered_faults name text
    rw [hfaults, List.pairwise_cons] at hordered
    have hfirst : tokenize name text = .error fault :=
      tokenize_eq_error_iff.2 (by rw [hfaults, List.head?_cons])
    refine ⟨fault, hfirst, by simp [hfaults], ?_⟩
    intro other hother hother'
    rw [hfaults, List.mem_cons] at hother
    exact hordered.1 other (hother.resolve_left hother')
  · rintro ⟨fault, -, hmem, -⟩
    exact List.ne_nil_of_mem hmem

/-! ### The stages -/

/-- What the stages of a text add up to: the first stage that fails ends the calculation.  It is
given up where reading, writing or evaluating goes too deep. -/
inductive Staged (watched : Bool) (name text : String) : Option Calculation → Prop
  /-- Scanning fails, and nothing else is looked at. -/
  | lexical {fault : LexicalFault} (h : tokenize name text = .error fault) :
      Staged watched name text (some ⟨text, [], none, .error (.lexical fault)⟩)
  /-- Reading fails. -/
  | syntactic {tokens : List Token} {fault : SyntaxFault}
      (htokens : tokenize name text = .ok tokens) (h : parse tokens = .error (.fault fault)) :
      Staged watched name text (some ⟨text, tokens, none, .error (.syntactic fault)⟩)
  /-- Reading goes too deep. -/
  | unread {tokens : List Token} (htokens : tokenize name text = .ok tokens)
      (h : parse tokens = .error .tooDeep) : Staged watched name text none
  /-- Writing what was read goes too deep. -/
  | unwritten {tokens : List Token} {tree : Expr Binary64} (hreads : Reads name text tokens tree)
      (hwatched : watched = true) (h : allowance < tree.height) : Staged watched name text none
  /-- Evaluating goes too deep. -/
  | unevaluated {tokens : List Token} {tree : Expr Binary64} (hreads : Reads name text tokens tree)
      (h : tree.value = .error .tooDeep) : Staged watched name text none
  /-- Evaluating fails. -/
  | arithmetic {tokens : List Token} {tree : Expr Binary64} {fault : ArithmeticFault}
      (hreads : Reads name text tokens tree) (hwritten : watched = true → tree.height ≤ allowance)
      (h : tree.value = .error (.fault fault)) :
      Staged watched name text (some ⟨text, tokens, some tree, .error (.arithmetic fault)⟩)
  /-- No stage fails. -/
  | value {tokens : List Token} {tree : Expr Binary64} {x : Binary64}
      (hreads : Reads name text tokens tree) (h : tree.value = .ok x) :
      Staged watched name text (some ⟨text, tokens, some tree, .ok x⟩)

theorem staged_of_reads {name text : String} {tokens : List Token} {tree : Expr Binary64}
    (hreads : Reads name text tokens tree) (watched : Bool) :
    Staged watched name text (calculate watched name text).outcome := by
  rw [calculate_of_reads hreads, outcome_calculateTree]
  split
  · rename_i hdeep
    exact .unwritten hreads hdeep.1 hdeep.2
  · rename_i hwritten
    have hheight : watched = true → tree.height ≤ allowance := by
      intro hwatched
      exact Nat.le_of_not_lt fun hlt => hwritten ⟨hwatched, hlt⟩
    unfold evaluation
    split
    · rename_i hvalue
      exact .value hreads hvalue
    · rename_i hfault
      exact .arithmetic hreads hheight hfault
    · rename_i hdeep
      exact .unevaluated hreads hdeep

theorem staged_calculate (watched : Bool) (name text : String) :
    Staged watched name text (calculate watched name text).outcome := by
  cases htokens : tokenize name text with
  | error fault =>
    rw [calculate, htokens]
    exact .lexical htokens
  | ok tokens =>
    cases hparse : parse tokens with
    | ok tree => exact staged_of_reads ⟨htokens, hparse⟩ watched
    | error halt =>
      cases halt with
      | tooDeep =>
        simp only [calculate, htokens, hparse]
        exact .unread htokens hparse
      | fault fault =>
        simp only [calculate, htokens, hparse]
        exact .syntactic htokens hparse

/-- **The outcome of a calculation is what its stages add up to**, and nothing else is. -/
theorem staged_iff {watched : Bool} {name text : String} {outcome : Option Calculation} :
    Staged watched name text outcome ↔ (calculate watched name text).outcome = outcome := by
  constructor
  · intro h
    -- every way in which the stages end fixes the outcome
    cases h with
    | lexical h => simp only [calculate, h, Trace.fail]
    | syntactic htokens h => simp only [calculate, htokens, h, Trace.fail]
    | unread htokens h => simp only [calculate, htokens, h, Trace.abandon]
    | unwritten hreads hwatched h =>
      rw [calculate_of_reads hreads, outcome_calculateTree, if_pos ⟨hwatched, h⟩]
    | unevaluated hreads h =>
      rw [calculate_of_reads hreads, outcome_calculateTree, evaluation, h]
      split <;> rfl
    | arithmetic hreads hwritten h =>
      rw [calculate_of_reads hreads, outcome_calculateTree, evaluation, h, if_neg]
      rintro ⟨hwatched, hlt⟩
      exact Nat.not_lt.2 (hwritten hwatched) hlt
    | value hreads h =>
      rw [calculate_of_reads hreads, outcome_calculateTree, evaluation, h, if_neg]
      rintro ⟨-, hlt⟩
      exact Nat.not_lt.2 (Expr.height_le_of_value h) hlt
  · rintro rfl
    exact staged_calculate watched name text

end Calculator
