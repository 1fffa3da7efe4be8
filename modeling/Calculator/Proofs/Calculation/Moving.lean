import Calculator.Proofs.Calculation.Stages
import Calculator.Proofs.Expr.Blame
import Calculator.Proofs.Grammar.Moving

/-!
# Calculations in other places

Two texts that have the same pieces in other places are calculated in the same way.  Locations are
only told: no stage decides anything by them, so that moving the pieces of a text moves what is told
about it, and nothing else.

## Main definitions

* `Failure.moved`, `Calculation.moved` — a failure and an outcome in other places.

## Main results

* `tokenize_of_tiled_moved` — texts with the same pieces in other places.
* `Failure.diagnostic_moved` — what is told of a failure does not depend on its place.
* `outcome_moved` — **a text with the same tokens in other places has the same outcome** in other
  places.
-/

namespace Calculator

/-! ### Failures and outcomes -/

/-- The lexical fault in another place. -/
def LexicalFault.moved (g : Location → Location) (f : LexicalFault) : LexicalFault :=
  { f with location := g f.location }

/-- The failure in another place. -/
def Failure.moved (g : Location → Location) : Failure → Failure
  | lexical fault => lexical (fault.moved g)
  | syntactic fault => syntactic (fault.moved g)
  | arithmetic fault => arithmetic (fault.moved g)

/-- The outcome in other places, as that of another text. -/
def Calculation.moved (g : Location → Location) (text : String) (c : Calculation) : Calculation :=
  ⟨text, c.tokens.map (Token.moved g), c.tree.map (Expr.moved g),
    c.result.mapError (Failure.moved g)⟩

variable {g : Location → Location}

@[simp] theorem SyntaxFault.found_moved (f : SyntaxFault) :
    (f.moved g).found = f.found.moved g := by
  cases f <;> rfl

@[simp] theorem SyntaxFault.location_moved (f : SyntaxFault) :
    (f.moved g).location = g f.location := by
  cases f <;> rfl

@[simp] theorem Failure.location_moved (f : Failure) :
    (f.moved g).diagnostic.location = g f.diagnostic.location := by
  cases f with
  | lexical fault => rfl
  | syntactic fault => exact fault.location_moved
  | arithmetic fault => exact fault.location_moved g

/-- **What is told of a failure does not depend on its place**: its severity, its code and its
message stay the same. -/
theorem Failure.diagnostic_moved (f : Failure) :
    (f.moved g).diagnostic.severity = f.diagnostic.severity ∧
      (f.moved g).diagnostic.code = f.diagnostic.code ∧
      (f.moved g).diagnostic.message = f.diagnostic.message := by
  cases f with
  | lexical fault => exact ⟨rfl, rfl, rfl⟩
  | syntactic fault => cases fault <;> exact ⟨rfl, rfl, rfl⟩
  | arithmetic fault =>
    exact ⟨rfl, congrArg (some ∘ FaultCode.id) (fault.code_moved g), fault.message_moved g⟩

/-! ### Scanning -/

/-- The tokens or the fault of a text, from its pieces. -/
theorem tokenize_eq_of_tiled {name text : String} {pieces : List Piece}
    (h : (Scanner.ofText text).Tiled name pieces) :
    tokenize name text =
      match pieceFaults pieces with
      | [] => .ok (pieceTokens pieces ++ [.finish (.inText name text text.length)])
      | fault :: _ => .error fault := by
  have hlast := Scanner.location_last name text
  cases hfaults : pieceFaults pieces with
  | nil => simp only [tokenize, scan, h.pieces_eq, hlast, hfaults]
  | cons fault faults => simp only [tokenize, scan, h.pieces_eq, hfaults]

theorem pieceTokens_moved (pieces : List Piece) :
    pieceTokens (pieces.map (Piece.moved g)) = (pieceTokens pieces).map (Token.moved g) := by
  induction pieces with
  | nil => rfl
  | cons p pieces ih =>
    cases p with
    | ok t => exact congrArg (t.moved g :: ·) ih
    | error f => exact ih

theorem pieceFaults_moved (pieces : List Piece) :
    pieceFaults (pieces.map (Piece.moved g)) = (pieceFaults pieces).map (LexicalFault.moved g) := by
  induction pieces with
  | nil => rfl
  | cons p pieces ih =>
    cases p with
    | ok t => exact ih
    | error f => exact congrArg (f.moved g :: ·) ih

/-- **Texts with the same pieces in other places** have the same tokens, or the same fault, in other
places, if their ends agree too. -/
theorem tokenize_of_tiled_moved {name name' text text' : String} {pieces : List Piece}
    (h : (Scanner.ofText text).Tiled name pieces)
    (h' : (Scanner.ofText text').Tiled name' (pieces.map (Piece.moved g)))
    (hend : g (.inText name text text.length) = .inText name' text' text'.length) :
    tokenize name' text' =
      ((tokenize name text).map (List.map (Token.moved g))).mapError (LexicalFault.moved g) := by
  rw [tokenize_eq_of_tiled h, tokenize_eq_of_tiled h', pieceFaults_moved, pieceTokens_moved, ← hend]
  cases pieceFaults pieces with
  | nil =>
    show Except.ok _ = Except.ok (List.map (Token.moved g) _)
    rw [List.map_append]
    rfl
  | cons fault faults => rfl

/-! ### The stages -/

/-- The tokens of a text are read, or refused, in the same way in other places. -/
theorem parse_moved_of_tokenize {name text : String} {tokens : List Token}
    (h : tokenize name text = .ok tokens) :
    parse (tokens.map (Token.moved g)) =
      ((parse tokens).map (Expr.moved g)).mapError (Halt.map (SyntaxFault.moved g)) := by
  obtain ⟨front, rfl, -, hfront⟩ := exists_tiled_of_tokenize h
  exact parse_moved hfront rfl

theorem Reads.moved {name name' text text' : String} {tokens : List Token} {tree : Expr Binary64}
    (h : Reads name text tokens tree)
    (htokens : tokenize name' text' = .ok (tokens.map (Token.moved g))) :
    Reads name' text' (tokens.map (Token.moved g)) (tree.moved g) := by
  refine ⟨htokens, ?_⟩
  rw [parse_moved_of_tokenize h.1, h.2]
  rfl

/-- **A text with the same tokens in other places has the same outcome** in other places, whoever
watches. -/
theorem outcome_moved {watched : Bool} {name name' text text' : String}
    (h : tokenize name' text' =
      ((tokenize name text).map (List.map (Token.moved g))).mapError (LexicalFault.moved g)) :
    (calculate watched name' text').outcome =
      (calculate watched name text).outcome.map (Calculation.moved g text') := by
  have hvalue (tree : Expr Binary64) : (tree.moved g).value =
      tree.value.mapError (Halt.map (ArithmeticFault.moved g)) :=
    tree.valueWithin_moved g allowance
  have hstaged := staged_calculate watched name text
  refine staged_iff.1 ?_
  -- one case for each way in which the stages end
  generalize (calculate watched name text).outcome = outcome at hstaged ⊢
  cases hstaged with
  | lexical hfault =>
    rw [hfault] at h
    exact .lexical h
  | syntactic htokens hfault =>
    rw [htokens] at h
    refine .syntactic h ?_
    rw [parse_moved_of_tokenize htokens, hfault]
    rfl
  | unread htokens hdeep =>
    rw [htokens] at h
    refine .unread h ?_
    rw [parse_moved_of_tokenize htokens, hdeep]
    rfl
  | unwritten hreads hwatched hdeep =>
    rw [hreads.1] at h
    refine .unwritten (hreads.moved h) hwatched ?_
    rwa [Expr.height_moved]
  | unevaluated hreads hdeep =>
    rw [hreads.1] at h
    refine .unevaluated (hreads.moved h) ?_
    rw [hvalue, hdeep]
    rfl
  | arithmetic hreads hwritten hfault =>
    rw [hreads.1] at h
    refine .arithmetic (hreads.moved h) ?_ ?_
    · rwa [Expr.height_moved]
    · rw [hvalue, hfault]
      rfl
  | value hreads hresult =>
    rw [hreads.1] at h
    refine .value (hreads.moved h) ?_
    rw [hvalue, hresult]
    rfl

end Calculator
