import Calculator.Proofs.Expr.Places
import Calculator.Proofs.Grammar.Reading
import Calculator.Proofs.Scan.Places

/-!
# Reading tokens in other places

The rules look at the kinds of tokens only.  On tokens in other places they do the same steps: what
they read is the same expression in other places, and what they refuse is the same token in another
place.  This is shown rule by rule, so that it holds of tokens that are refused, or nested too
deeply, just as of those that are read.

## Main definitions

* `Refusal.moved`, `Reading.moved` — what a rule gives, in other places.
* `Rule.Movable` — a rule that takes no notice of places.
* `SyntaxFault.moved` — a fault of tokens in other places.

## Main results

* `movable_level`, `movable_group`, `movable_primaryOver` — the ways of building rules.
* `movable_unary`, `movable_wholeExpression` — the rules take no notice of places.
* `parse_moved` — **tokens in other places are read, or refused, in the same way.**
-/

namespace Calculator

/-! ### Readings in other places -/

/-- The reason for a refusal of tokens in other places. -/
def Refusal.Cause.moved (g : Location → Location) : Refusal.Cause → Refusal.Cause
  | operandExpected => operandExpected
  | unclosed opener => unclosed (opener.moved g)
  | trailing => trailing

/-- The refusal of tokens in other places. -/
def Refusal.moved (g : Location → Location) (r : Refusal) : Refusal :=
  ⟨r.cause.moved g, r.rest.map (Token.moved g)⟩

/-- What a rule gives, in other places. -/
def Reading.moved (g : Location → Location) : Reading → Reading
  | .ok (e, rest) => .ok (e.moved g, rest.map (Token.moved g))
  | .error halt => .error (halt.map (Refusal.moved g))

/-- The rule takes no notice of places: for tokens in other places it gives the same in other
places. -/
def Rule.Movable (g : Location → Location) (rule : Rule) : Prop :=
  ∀ ts, rule (ts.map (Token.moved g)) = Reading.moved g (rule ts)

variable {g : Location → Location}

theorem moved_bind {x : Reading} {f f' : Draft × List Token → Reading}
    (hf : ∀ e rest, f' (e.moved g, rest.map (Token.moved g)) = Reading.moved g (f (e, rest))) :
    (Reading.moved g x >>= f') = Reading.moved g (x >>= f) := by
  cases x with
  | error halt => rfl
  | ok reading =>
    obtain ⟨e, rest⟩ := reading
    exact hf e rest

/-! ### Levels -/

theorem operator?_moved (precedence : Precedence) (ts : List Token) :
    operator? precedence (ts.map (Token.moved g)) =
      (operator? precedence ts).map (Prod.map id (List.map (Token.moved g))) := by
  cases ts with
  | nil => rfl
  | cons t ts =>
    rw [List.map_cons, operator?, operator?, Token.kind_moved]
    cases precedence t.kind <;> rfl

/-- A chain takes no notice of places if its operands do not: it takes the same steps. -/
theorem chain_moved {precedence : Precedence} {operand : Rule} (hop : operand.Movable g)
    (bound : List Token) (left : Draft) (ts : List Token) :
    chain precedence operand (bound.map (Token.moved g)) (left.moved g) (ts.map (Token.moved g)) =
      Reading.moved g (chain precedence operand bound left ts) := by
  -- the bound is moved with the tokens, so that both chains may take as many steps
  induction bound generalizing left ts with
  | nil => rfl
  | cons t bound ih =>
    rw [List.map_cons, chain, chain, operator?_moved]
    cases operator? precedence ts with
    | none => rfl
    | some found =>
      obtain ⟨op, afterOp⟩ := found
      show (operand (afterOp.map (Token.moved g)) >>= _) = _
      rw [hop afterOp]
      refine moved_bind ?_
      intro right rest
      have hjoin := ih (.join op left right) rest
      rwa [Expr.moved_join] at hjoin

theorem movable_level {precedence : Precedence} {operand : Rule} (hop : operand.Movable g) :
    (level precedence operand).Movable g := by
  intro ts
  rw [level, level, hop ts]
  refine moved_bind ?_
  intro left rest
  exact chain_moved hop rest left rest

theorem movable_expressionOver {rule : Rule} (h : rule.Movable g) :
    (expressionOver rule).Movable g :=
  movable_level (movable_level (movable_level h))

/-! ### Groups and primaries -/

theorem movable_group {expression : Rule} (hexp : expression.Movable g) (opener : Token)
    (ts : List Token) :
    group expression (opener.moved g) (ts.map (Token.moved g)) =
      Reading.moved g (group expression opener ts) := by
  rw [group, group, hexp ts]
  refine moved_bind ?_
  intro e rest
  cases rest with
  | nil => rfl
  | cons closer after =>
    simp only [List.map_cons, Token.kind_moved]
    by_cases hcloser : closer.kind = .rightParen
    · rw [if_pos hcloser, if_pos hcloser, Reading.moved, Expr.moved_withSpan]
      rfl
    · rw [if_neg hcloser, if_neg hcloser]
      rfl

theorem movable_primaryOver {group : Token → Rule}
    (hgroup : ∀ opener ts, group (opener.moved g) (ts.map (Token.moved g)) =
      Reading.moved g (group opener ts)) :
    (primaryOver group).Movable g := by
  intro ts
  cases ts with
  | nil => rfl
  | cons t ts =>
    rw [List.map_cons, primaryOver, primaryOver, Token.kind_moved]
    split
    · rfl
    · exact hgroup t ts
    · rfl

/-! ### The rules -/

theorem movable_unary (room : Nat) : (unary room).Movable g := by
  -- a group goes down by six and a minus sign by one
  induction room using Nat.strongRecOn with
  | ind room ih =>
    intro ts
    cases ts with
    | nil => simp [unary, refuse, Reading.moved, Halt.map, Refusal.moved, Refusal.Cause.moved]
    | cons t ts =>
      by_cases ht : t.kind = .minus
      · have ht' : (t.moved g).kind = .minus := ht
        cases room with
        | zero => simp [unary, ht, Reading.moved, Halt.map]
        | succ room =>
          rw [List.map_cons, unary_minus ht', unary_minus ht, ih room (Nat.lt_succ_self room) ts]
          cases unary room ts with
          | error halt => rfl
          | ok reading =>
            obtain ⟨operand, rest⟩ := reading
            show Except.ok (negated (t.moved g) (operand.moved g, rest.map (Token.moved g))) = _
            rw [negated, Expr.span_moved]
            rfl
      · have ht' : (t.moved g).kind ≠ .minus := ht
        -- every other token begins a primary, and only a group leads to an expression again
        rw [List.map_cons, unary_of_ne ht', unary_of_ne ht, ← List.map_cons]
        refine movable_primaryOver ?_ (t :: ts)
        intro opener after
        rcases Nat.lt_or_ge room 6 with hlt | hge
        · rw [groupWithin_of_lt hlt, groupWithin_of_lt hlt]
          rfl
        · obtain ⟨room, rfl⟩ := Nat.exists_eq_add_of_le' hge
          exact movable_group (movable_expressionOver (ih room (by omega))) opener after

theorem movable_expression (room : Nat) : (expression room).Movable g :=
  movable_expressionOver (movable_unary room)

theorem movable_wholeExpression (room : Nat) : (wholeExpression room).Movable g := by
  intro ts
  rw [wholeExpression, wholeExpression, movable_expression room ts]
  refine moved_bind ?_
  intro e rest
  cases rest with
  | nil => rfl
  | cons t rest => rfl

/-! ### Whole texts -/

/-- The fault of tokens in other places. -/
def SyntaxFault.moved (g : Location → Location) : SyntaxFault → SyntaxFault
  | unexpectedToken expected found => unexpectedToken expected (found.moved g)
  | unclosedParen opener found => unclosedParen (opener.moved g) (found.moved g)
  | trailingInput found => trailingInput (found.moved g)

theorem SyntaxFault.ofRefusal_moved (stop : Token) (r : Refusal) :
    ofRefusal (stop.moved g) (r.moved g) = (ofRefusal stop r).moved g := by
  obtain ⟨cause, rest⟩ := r
  -- what is refused is a token that is left, or the end behind the last one
  have hfound : (rest.map (Token.moved g)).headD (stop.moved g) = (rest.headD stop).moved g := by
    cases rest <;> rfl
  cases cause with
  | operandExpected => simp only [Refusal.moved, Refusal.Cause.moved, ofRefusal, hfound, moved]
  | unclosed opener => simp only [Refusal.moved, Refusal.Cause.moved, ofRefusal, hfound, moved]
  | trailing => simp only [Refusal.moved, Refusal.Cause.moved, ofRefusal, hfound, moved]

theorem Cursor.parse_moved (front : List Token) (stop : Token) :
    (Cursor.parse ⟨0, front.map (Token.moved g), stop.moved g⟩).1 =
      ((Cursor.parse ⟨0, front, stop⟩).1.map (Expr.moved g)).mapError
        (Halt.map (SyntaxFault.moved g)) := by
  rw [parse, parse, apply, apply, movable_wholeExpression allowance front]
  cases wholeExpression allowance front with
  | ok reading => rfl
  | error halt =>
    cases halt with
    | tooDeep => rfl
    | fault r => exact congrArg (Except.error ∘ Halt.fault) (SyntaxFault.ofRefusal_moved stop r)

/-- **Tokens in other places are read, or refused, in the same way**: the expression or the fault is
the same in other places, and the nesting is too deep for both or for neither. -/
theorem parse_moved {front : List Token} {stop : Token} (hfront : ∀ t ∈ front, t.kind ≠ .finish)
    (hstop : stop.kind = .finish) :
    parse ((front ++ [stop]).map (Token.moved g)) =
      ((parse (front ++ [stop])).map (Expr.moved g)).mapError
        (Halt.map (SyntaxFault.moved g)) := by
  have hfront' : ∀ t ∈ front.map (Token.moved g), t.kind ≠ .finish := by
    intro t ht
    obtain ⟨u, hu, rfl⟩ := List.mem_map.1 ht
    exact hfront u hu
  have hstop' : (stop.moved g).kind = .finish := hstop
  rw [List.map_append, List.map_singleton, parse, parse, Cursor.ofTokens_append hfront hstop,
    Cursor.ofTokens_append hfront' hstop', Cursor.parse_moved]
  cases (Cursor.parse ⟨0, front, stop⟩).1 with
  | error halt => rfl
  | ok e => exact congrArg Except.ok (Expr.map_moved _ g e)

end Calculator
