import Calculator.Proofs.Depth.Hidden

/-!
# Watching a calculation

A calculation that is watched writes its expression down before it is evaluated.  Where the
expression can be written this changes nothing, and where its evaluation goes too deep the
calculation is given up either way.  What is left are the expressions that hide their depth: they
have a fault when nobody watches, and are given up when somebody does.

## Main definitions

* `evaluation` — the outcome of evaluating an expression.

## Main results

* `outcome_calculateTree` — what watching does to an expression that has been read.
* `calculate_of_not_reads` — watching does nothing to a text that is not read.
* `outcome_watched_iff` — **watching changes the outcome of the texts that hide their depth**, and
  of no others.
-/

namespace Calculator

/-- The outcome of evaluating an expression, nothing if that goes too deep. -/
def evaluation (text : String) (tokens : List Token) (tree : Expr Binary64) : Option Calculation :=
  match tree.value with
  | .ok value => some ⟨text, tokens, some tree, .ok value⟩
  | .error (.fault fault) => some ⟨text, tokens, some tree, .error (.arithmetic fault)⟩
  | .error .tooDeep => none

theorem tree_of_evaluation {text : String} {tokens : List Token} {tree : Expr Binary64}
    {c : Calculation} (h : evaluation text tokens tree = some c) : c.tree = some tree := by
  unfold evaluation at h
  split at h
  · obtain rfl := Option.some.inj h
    rfl
  · obtain rfl := Option.some.inj h
    rfl
  · cases h

/-- Evaluating an expression that is too deep to be written meets a fault, or goes too deep. -/
theorem evaluation_of_lt (text : String) (tokens : List Token) {tree : Expr Binary64}
    (h : allowance < tree.height) :
    (∃ fault, tree.value = .error (.fault fault) ∧
      evaluation text tokens tree = some ⟨text, tokens, some tree, .error (.arithmetic fault)⟩) ∨
    (tree.value = .error .tooDeep ∧ evaluation text tokens tree = none) := by
  unfold evaluation
  cases hvalue : tree.value with
  | ok value => exact absurd (Expr.height_le_of_value hvalue) (Nat.not_le.2 h)
  | error halt =>
    cases halt with
    | tooDeep => exact Or.inr ⟨rfl, rfl⟩
    | fault fault => exact Or.inl ⟨fault, rfl, rfl⟩

/-- The outcome of an expression that has been read: if it is watched, it has to be written. -/
theorem outcome_calculateTree (watched : Bool) (text : String) (tokens : List Token)
    (tree : Expr Binary64) :
    (calculateTree watched text tokens tree).outcome =
      if watched = true ∧ allowance < tree.height then none else evaluation text tokens tree := by
  have hwritten : (tree.textWithin allowance).isNone = true ↔ allowance < tree.height := by
    rw [Expr.textWithin]
    by_cases h : tree.height ≤ allowance
    · simp [h]
    · simp [h, Nat.not_le.1 h]
  -- the two tests are the same one, once as a `Bool` and once as a proposition
  unfold calculateTree
  simp only [Bool.and_eq_true, hwritten]
  by_cases h : watched = true ∧ allowance < tree.height
  · rw [if_pos h, if_pos h]
    rfl
  · rw [if_neg h, if_neg h, evaluation]
    cases tree.value with
    | ok value => rfl
    | error halt => cases halt <;> rfl

theorem outcome_calculateTree_false (text : String) (tokens : List Token) (tree : Expr Binary64) :
    (calculateTree false text tokens tree).outcome = evaluation text tokens tree := by
  rw [outcome_calculateTree, if_neg]
  rintro ⟨hwatched, -⟩
  cases hwatched

theorem calculate_of_reads {name text : String} {tokens : List Token} {tree : Expr Binary64}
    (h : Reads name text tokens tree) (watched : Bool) :
    calculate watched name text = calculateTree watched text tokens tree := by
  obtain ⟨htokens, htree⟩ := h
  simp only [calculate, htokens, htree]

/-- The calculation of a text that is not read ends before there is anything to write. -/
theorem calculate_of_not_reads {name text : String}
    (h : ∀ tokens tree, ¬ Reads name text tokens tree) (watched : Bool) :
    calculate watched name text = calculate false name text ∧
      ∀ c, (calculate watched name text).outcome = some c → c.tree = none := by
  unfold calculate
  cases htokens : tokenize name text with
  | error fault =>
    refine ⟨rfl, ?_⟩
    intro c hc
    obtain rfl := Option.some.inj hc
    rfl
  | ok tokens =>
    dsimp only
    cases htree : parse tokens with
    | ok tree => exact absurd ⟨htokens, htree⟩ (h tokens tree)
    | error halt =>
      refine ⟨by cases halt <;> rfl, ?_⟩
      intro c hc
      cases halt with
      | tooDeep => cases hc
      | fault fault =>
        obtain rfl := Option.some.inj hc
        rfl

/-- A text that hides its depth has a fault if it is not watched, and is given up if it is. -/
theorem HidesDepth.outcome {name text : String} (h : HidesDepth name text) :
    (calculate true name text).outcome = none ∧
      ∃ c fault, (calculate false name text).outcome = some c ∧
        c.result = .error (.arithmetic fault) := by
  obtain ⟨tokens, tree, fault, hreads, hvalue, hheight⟩ := h
  rw [calculate_of_reads hreads, calculate_of_reads hreads, outcome_calculateTree_false,
    outcome_calculateTree, if_pos ⟨rfl, hheight⟩]
  refine ⟨rfl, ⟨text, tokens, some tree, .error (.arithmetic fault)⟩, fault, ?_, rfl⟩
  rw [evaluation, hvalue]

/-- A calculation ends with an expression that is too deep to be written if and only if its text
hides its depth and nobody watches. -/
theorem exists_tree_iff_hidesDepth {watched : Bool} {name text : String} :
    (∃ c tree, (calculate watched name text).outcome = some c ∧ c.tree = some tree ∧
        allowance < tree.height) ↔
      watched = false ∧ HidesDepth name text := by
  constructor
  · rintro ⟨c, tree, hc, htree, hheight⟩
    by_cases hreads : ∃ tokens tree, Reads name text tokens tree
    · obtain ⟨tokens, tree', hreads⟩ := hreads
      rw [calculate_of_reads hreads, outcome_calculateTree] at hc
      split at hc
      · cases hc
      · rename_i hwritten
        obtain rfl := Option.some.inj (htree.symm.trans (tree_of_evaluation hc))
        -- there is a calculation, so that a fault has been met before the depth
        rcases evaluation_of_lt text tokens hheight with
          ⟨fault, hvalue, -⟩ | ⟨-, hnone⟩
        · refine ⟨?_, tokens, tree, fault, hreads, hvalue, hheight⟩
          cases watched with
          | false => rfl
          | true => exact absurd ⟨rfl, hheight⟩ hwritten
        · rw [hnone] at hc
          cases hc
    · have hnone := (calculate_of_not_reads (fun tokens tree htree =>
        hreads ⟨tokens, tree, htree⟩) watched).2 c hc
      rw [hnone] at htree
      cases htree
  · rintro ⟨rfl, tokens, tree, fault, hreads, hvalue, hheight⟩
    refine ⟨⟨text, tokens, some tree, .error (.arithmetic fault)⟩, tree, ?_, rfl, hheight⟩
    rw [calculate_of_reads hreads, outcome_calculateTree_false, evaluation, hvalue]

end Calculator
