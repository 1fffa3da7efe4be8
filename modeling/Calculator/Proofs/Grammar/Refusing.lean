import Calculator.Proofs.Grammar.Reading

/-!
# How tokens are refused

A rule that succeeds has read as far as its category goes on.  A rule that refuses a token has read
the beginning of a phrase, and there are few ways in which that comes about: an operand is missing,
a group is not closed, or one of the two has happened inside a part of the phrase.  Only a whole
expression can be refused for what is left behind it.

## Main definitions

* `Rule.Stops` — a rule that reads as far as its category goes on.
* `Refused`, `RefusedWhole` — the ways in which a phrase, or a whole expression, is refused.
* `Rule.Refuses` — a rule that refuses in these ways only.

## Main results

* `stops_level`, `stops_expressionOver` — the rules read as far as their categories go on.
* `refuses_level`, `refused_of_group`, `refused_of_primaryOver` — the ways of building rules.
* `refuses_unary`, `refused_of_wholeExpression` — **the rules refuse in these ways only.**
* `Cursor.exists_refused_of_parse` — the refusal behind a fault.
-/

namespace Calculator

/-! ### Where a rule ends -/

/-- A rule that succeeds has read as far as its category goes on. -/
def Rule.Stops (c : Category) (rule : Rule) : Prop :=
  ∀ {ts rest : List Token} {e : Draft}, rule ts = .ok (e, rest) → c.Ends rest

/-- A level ends where its last operand does and no operator of the level follows. -/
theorem Category.ends_level {l : Level} {rest : List Token} (hend : l.operand.Ends rest)
    (hnone : operator? l.precedence rest = none) : (level l).Ends rest := by
  cases rest with
  | nil => exact ends_nil _
  | cons t rest =>
    rw [operator?, Option.map_eq_none_iff] at hnone
    rw [ends_cons] at hend ⊢
    cases l with
    | additive => simp_all [goesOn, Level.precedence, Level.operand]
    | multiplicative => simp_all [goesOn, Level.precedence, Level.operand]
    | raising => simp_all [goesOn, Level.precedence]

/-- A chain ends where its level does: the bound on its steps is large enough. -/
theorem ends_of_chain {l : Level} {operand : Rule} (hsound : operand.Sound l.operand)
    (hstops : operand.Stops l.operand) {bound ts rest : List Token} {left e : Draft}
    (hbound : ts.length ≤ bound.length) (hts : l.operand.Ends ts)
    (h : chain l.precedence operand bound left ts = .ok (e, rest)) :
    (Category.level l).Ends rest := by
  -- on the bound, which goes down by one where the tokens go down by two at least
  induction bound generalizing ts left with
  | nil =>
    have hnil : ts = [] := List.length_eq_zero_iff.1 (Nat.le_zero.1 hbound)
    rw [chain, Except.ok.injEq, Prod.mk.injEq] at h
    rw [← h.2, hnil]
    exact Category.ends_nil _
  | cons t bound ih =>
    rw [chain] at h
    split at h
    · rename_i hnone
      rw [Except.ok.injEq, Prod.mk.injEq] at h
      rw [← h.2]
      exact Category.ends_level hts hnone
    · rename_i op afterOp hsome
      obtain ⟨sign, rfl, hsign⟩ := operator?_eq_some_iff.1 hsome
      obtain ⟨⟨right, afterRight⟩, hright, hchain⟩ := exists_of_bind_eq_ok h
      -- the operator and the operand have used up tokens
      obtain ⟨d, rfl, -⟩ := hsound hright
      have hlength : afterRight.length ≤ bound.length := by
        simp only [List.length_cons, List.length_append] at hbound
        omega
      exact ih hlength (hstops hright) hchain

theorem stops_level {l : Level} {operand : Rule} (hsound : operand.Sound l.operand)
    (hstops : operand.Stops l.operand) : (level l.precedence operand).Stops (.level l) := by
  intro ts rest e h
  obtain ⟨⟨left, afterLeft⟩, hleft, h⟩ := exists_of_bind_eq_ok h
  exact ends_of_chain hsound hstops (Nat.le_refl _) (hstops hleft) h

theorem stops_expressionOver {rule : Rule} (h : rule.Sound .unary) :
    (expressionOver rule).Stops .expression := by
  have hunary : rule.Stops .unary := fun _ => Category.ends_unary _
  have hpower : (level .raising rule).Sound .power := sound_level (l := .raising) h
  have hterm : (level .multiplicative (level .raising rule)).Sound .term :=
    sound_level (l := .multiplicative) hpower
  have hstops : (level .multiplicative (level .raising rule)).Stops .term :=
    stops_level (l := .multiplicative) hpower (stops_level (l := .raising) h hunary)
  intro ts rest e hread
  exact stops_level (l := .additive) hterm hstops hread

/-! ### The ways to refuse -/

/-- The ways in which a phrase of a category is refused: which tokens have been read in front of the
refused one, and the reason. -/
inductive Refused : Category → List Token → Refusal → Prop
  /-- The first operand of a level is refused. -/
  | first {l : Level} {read : List Token} {r : Refusal} (h : Refused l.operand read r) :
      Refused (.level l) read r
  /-- An operand behind an operator is refused. -/
  | later {l : Level} {read : List Token} {r : Refusal} (left : Derivation (.level l))
      (sign : Token) (op : Operator) (hop : l.precedence sign.kind = some op)
      (h : Refused l.operand read r) : Refused (.level l) (left.word ++ sign :: read) r
  /-- What follows a minus sign is refused. -/
  | minus {read : List Token} {r : Refusal} (sign : Token) (hsign : sign.kind = .minus)
      (h : Refused .unary read r) : Refused .unary (sign :: read) r
  /-- A primary alone is refused. -/
  | plain {read : List Token} {r : Refusal} (h : Refused .primary read r) : Refused .unary read r
  /-- No operand begins here. -/
  | missing {rest : List Token}
      (h : ∀ t ∈ rest.head?, t.kind ≠ .number ∧ t.kind ≠ .leftParen ∧ t.kind ≠ .minus) :
      Refused .primary [] ⟨.operandExpected, rest⟩
  /-- The expression inside a group is refused. -/
  | inside {read : List Token} {r : Refusal} (opener : Token) (hopener : opener.kind = .leftParen)
      (h : Refused .expression read r) : Refused .primary (opener :: read) r
  /-- A group is not closed behind its expression. -/
  | unclosed {rest : List Token} (opener : Token) (hopener : opener.kind = .leftParen)
      (inner : Derivation .expression) (hends : Category.expression.Ends rest)
      (h : ∀ t ∈ rest.head?, t.kind ≠ .rightParen) :
      Refused .primary (opener :: inner.word) ⟨.unclosed opener, rest⟩

/-- The ways in which a whole expression is refused. -/
inductive RefusedWhole : List Token → Refusal → Prop
  /-- The expression is refused. -/
  | inside {read : List Token} {r : Refusal} (h : Refused .expression read r) : RefusedWhole read r
  /-- A token is left behind the expression. -/
  | trailing (d : Derivation .expression) {t : Token} {rest : List Token}
      (hends : Category.expression.Ends (t :: rest)) :
      RefusedWhole d.word ⟨.trailing, t :: rest⟩

/-- A rule refuses in these ways only, and the refused token is the first that it has not read. -/
def Rule.Refuses (c : Category) (rule : Rule) : Prop :=
  ∀ {ts : List Token} {r : Refusal}, rule ts = .error (.fault r) →
    ∃ read, ts = read ++ r.rest ∧ Refused c read r

theorem eq_error_or_of_bind_eq_error {ε α β : Type} {x : Except ε α} {f : α → Except ε β} {e : ε}
    (h : (x >>= f) = .error e) : x = .error e ∨ ∃ a, x = .ok a ∧ f a = .error e := by
  cases x with
  | error e' =>
    left
    cases h
    rfl
  | ok a => exact Or.inr ⟨a, rfl, h⟩

/-- An operand that is refused in a chain stands behind an operator. -/
theorem refused_of_chain {l : Level} {operand : Rule} (hsound : operand.Sound l.operand)
    (hop : operand.Refuses l.operand) {bound ts : List Token} {left : Draft} {r : Refusal}
    (h : chain l.precedence operand bound left ts = .error (.fault r))
    (front : Derivation (.level l)) :
    ∃ read, front.word ++ ts = read ++ r.rest ∧ Refused (.level l) read r := by
  -- `front` is the phrase that has been read so far, and grows by an operand at each step
  induction bound generalizing ts left front with
  | nil => rw [chain] at h; cases h
  | cons t bound ih =>
    rw [chain] at h
    split at h
    · cases h
    · rename_i op afterOp hsome
      obtain ⟨sign, rfl, hsign⟩ := operator?_eq_some_iff.1 hsome
      rcases eq_error_or_of_bind_eq_error h with hright | ⟨⟨right, afterRight⟩, hright, hchain⟩
      · -- the operand behind this operator is refused
        obtain ⟨read, rfl, hread⟩ := hop hright
        exact ⟨front.word ++ sign :: read, by simp, .later front sign op hsign hread⟩
      · -- this operand is read, and one behind it is refused
        obtain ⟨d, rfl, -⟩ := hsound hright
        obtain ⟨front', hword, -⟩ := front.exists_join hsign d
        obtain ⟨read, hts, hread⟩ := ih hchain front'
        refine ⟨read, ?_, hread⟩
        rw [← hts, hword, List.append_assoc, List.cons_append]

theorem refuses_level {l : Level} {operand : Rule} (hsound : operand.Sound l.operand)
    (hop : operand.Refuses l.operand) : (level l.precedence operand).Refuses (.level l) := by
  intro ts r h
  rcases eq_error_or_of_bind_eq_error h with hfirst | ⟨⟨left, afterLeft⟩, hleft, hchain⟩
  · obtain ⟨read, hts, hread⟩ := hop hfirst
    exact ⟨read, hts, .first hread⟩
  · obtain ⟨first, rfl, -⟩ := hsound hleft
    have hword : (Derivation.level first .done).word = first.word := by
      rw [Derivation.word, Continuation.word, List.append_nil]
    rw [← hword]
    exact refused_of_chain hsound hop hchain (.level first .done)

/-- A group refuses what its expression does, or its end if it is not closed there. -/
theorem refused_of_group {expression : Rule} (hsound : expression.Sound .expression)
    (hstops : expression.Stops .expression) (hexp : expression.Refuses .expression)
    {opener : Token} (hopener : opener.kind = .leftParen) {ts : List Token} {r : Refusal}
    (h : group expression opener ts = .error (.fault r)) :
    ∃ read, opener :: ts = read ++ r.rest ∧ Refused .primary read r := by
  rcases eq_error_or_of_bind_eq_error h with hinner | ⟨⟨inner, after⟩, hinner, hclose⟩
  · obtain ⟨read, rfl, hread⟩ := hexp hinner
    exact ⟨opener :: read, rfl, .inside opener hopener hread⟩
  · -- the expression is read, and no closing parenthesis follows it
    have hends := hstops hinner
    obtain ⟨d, rfl, -⟩ := hsound hinner
    cases after with
    | nil =>
      cases hclose
      exact ⟨opener :: d.word, rfl, .unclosed opener hopener d hends (by simp)⟩
    | cons t after =>
      dsimp only at hclose
      split at hclose
      · cases hclose
      · rename_i hne
        cases hclose
        exact ⟨opener :: d.word, rfl, .unclosed opener hopener d hends (by simpa using hne)⟩

/-- A primary refuses what its groups do, or that none begins. -/
theorem refused_of_primaryOver {group : Token → Rule}
    (hgroup : ∀ {opener : Token} {ts : List Token} {r : Refusal}, opener.kind = .leftParen →
      group opener ts = .error (.fault r) →
        ∃ read, opener :: ts = read ++ r.rest ∧ Refused .primary read r)
    {ts : List Token} (hminus : ∀ t ∈ ts.head?, t.kind ≠ .minus) {r : Refusal}
    (h : primaryOver group ts = .error (.fault r)) :
    ∃ read, ts = read ++ r.rest ∧ Refused .primary read r := by
  cases ts with
  | nil =>
    cases h
    exact ⟨[], rfl, .missing (by simp)⟩
  | cons t ts =>
    rw [primaryOver] at h
    split at h
    · cases h
    · rename_i hparen
      exact hgroup hparen h
    · rename_i hnumber hparen
      cases h
      -- the token begins neither a number nor a group, and a minus sign has been excluded
      refine ⟨[], rfl, .missing ?_⟩
      intro t' ht'
      obtain rfl := Option.some.inj ht'
      exact ⟨hnumber, hparen, hminus _ rfl⟩

theorem refuses_expressionOver {rule : Rule} (hsound : rule.Sound .unary)
    (h : rule.Refuses .unary) : (expressionOver rule).Refuses .expression := by
  have hpower : (level .raising rule).Sound .power := sound_level (l := .raising) hsound
  have hterm : (level .multiplicative (level .raising rule)).Sound .term :=
    sound_level (l := .multiplicative) hpower
  have hrefuses : (level .multiplicative (level .raising rule)).Refuses .term :=
    refuses_level (l := .multiplicative) hpower (refuses_level (l := .raising) hsound h)
  intro ts r hrefuse
  exact refuses_level (l := .additive) hterm hrefuses hrefuse

theorem refuses_unary (room : Nat) : (unary room).Refuses .unary := by
  -- a group goes down by six and a minus sign by one
  induction room using Nat.strongRecOn with
  | ind room ih =>
    intro ts r h
    cases ts with
    | nil =>
      rw [unary] at h
      cases h
      exact ⟨[], rfl, .plain (.missing (by simp))⟩
    | cons t ts =>
      by_cases ht : t.kind = .minus
      · cases room with
        | zero => simp [unary, ht] at h
        | succ room =>
          rw [unary_minus ht] at h
          cases hoperand : unary room ts with
          | ok reading => rw [hoperand] at h; cases h
          | error halt =>
            obtain rfl : halt = .fault r := by
              rw [hoperand] at h
              exact Except.error.inj h
            obtain ⟨read, rfl, hread⟩ := ih room (by omega) hoperand
            exact ⟨t :: read, rfl, .minus t ht hread⟩
      · -- only an opening parenthesis leads to an expression again
        rw [unary_of_ne ht, primary] at h
        obtain ⟨read, hts, hread⟩ := refused_of_primaryOver
          (fun hopener hgroup => by
            match room with
            | 0 | 1 | 2 | 3 | 4 | 5 => cases hgroup
            | room + 6 =>
              have hsound : (unary room).Sound .unary := sound_unary room
              exact refused_of_group (sound_expressionOver hsound) (stops_expressionOver hsound)
                (refuses_expressionOver hsound (ih room (by omega))) hopener hgroup)
          (by simpa using ht) h
        exact ⟨read, hts, .plain hread⟩

/-- A whole expression is refused where the expression is, or for what is left behind it. -/
theorem refused_of_wholeExpression {room : Nat} {ts : List Token} {r : Refusal}
    (h : wholeExpression room ts = .error (.fault r)) :
    ∃ read, ts = read ++ r.rest ∧ RefusedWhole read r := by
  rcases eq_error_or_of_bind_eq_error h with hexp | ⟨⟨e, rest⟩, hexp, hwhole⟩
  · obtain ⟨read, hts, hread⟩ :=
      refuses_expressionOver (sound_unary room) (refuses_unary room) hexp
    exact ⟨read, hts, .inside hread⟩
  · -- the expression is over, and tokens are left
    have hends := stops_expressionOver (sound_unary room) hexp
    obtain ⟨d, rfl, -⟩ := sound_expression room hexp
    cases rest with
    | nil => cases hwhole
    | cons t rest =>
      cases hwhole
      exact ⟨d.word, rfl, .trailing d hends⟩

/-- Behind every fault there is a refusal, and the cursor stands at the refused token. -/
theorem Cursor.exists_refused_of_parse {front : List Token} {stop : Token} {fault : SyntaxFault}
    {after : Cursor} (h : parse ⟨0, front, stop⟩ = (.error (.fault fault), after)) :
    ∃ (r : Refusal) (read : List Token), front = read ++ r.rest ∧ RefusedWhole read r ∧
      fault = .ofRefusal stop r ∧ after = ⟨read.length, r.rest, stop⟩ := by
  rw [parse, apply] at h
  split at h
  · cases h
  · rename_i r hrefuse
    obtain ⟨read, hread, hrefused⟩ := refused_of_wholeExpression hrefuse
    obtain rfl : front = read ++ r.rest := hread
    obtain ⟨hfault, hafter⟩ := Prod.mk.inj h
    refine ⟨r, read, rfl, hrefused, ?_, ?_⟩
    · exact (Halt.fault.inj (Except.error.inj hfault)).symm
    · rw [← hafter, moveTo]
      simp
  · cases h

end Calculator
