import Calculator.Grammar.Cursor
import Calculator.Proofs.Grammar.Derivation

/-!
# What the rules read

The rules of the parser read exactly the words of derivations.  A rule that is given the word of a
derivation, and tokens behind it in front of which the category ends, reads that word and gives the
expression of the derivation, unless the derivation is nested more deeply than the rule may go; and
whatever a rule reads is the word of a derivation.

## Main definitions

* `Category.rule` — the rule that reads a category.
* `Rule.Sound` — a rule reads only what can be derived.

## Main results

* `Derivation.rule_word_append` — **completeness**: a rule reads every derivation.
* `sound_expression` — **soundness**: an expression is read only from the word of a derivation.
* `wholeExpression_word`, `exists_of_wholeExpression` — the expressions that leave nothing unread.
* `parse_iff_sentence` — **reading is sound and complete**, for tokens up to the end of the text.
-/

namespace Calculator

/-- The rule that reads a category. -/
def Category.rule (room : Nat) : Category → Rule
  | level .additive => Calculator.expression room
  | level .multiplicative => Calculator.term room
  | level .raising => Calculator.power room
  | unary => Calculator.unary room
  | primary => Calculator.primary room

theorem Category.rule_level (room : Nat) (l : Level) :
    (level l).rule room = Calculator.level l.precedence (l.operand.rule room) := by
  cases l <;> rfl

theorem groupWithin_of_lt {room : Nat} (h : room < 6) (opener : Token) (ts : List Token) :
    groupWithin room opener ts = .error .tooDeep := by
  unfold groupWithin
  split
  · omega
  · rfl

/-! ### Answers

On the word of a derivation a rule either gives the expression and what follows the word, or finds
the nesting too deep. -/

/-- The answer of a rule that goes down as far as `nesting` and then has read `e` in front of
`rest`. -/
def answer (nesting room : Nat) (e : Draft) (rest : List Token) : Reading :=
  if nesting ≤ room then .ok (e, rest) else .error .tooDeep

@[simp] theorem answer_zero (room : Nat) (e : Draft) (rest : List Token) :
    answer 0 room e rest = .ok (e, rest) := if_pos (Nat.zero_le room)

theorem answer_of_le {nesting room : Nat} (h : nesting ≤ room) (e : Draft) (rest : List Token) :
    answer nesting room e rest = .ok (e, rest) := if_pos h

theorem answer_of_lt {nesting room : Nat} (h : room < nesting) (e : Draft) (rest : List Token) :
    answer nesting room e rest = .error .tooDeep := if_neg (Nat.not_le.2 h)

@[simp] theorem answer_add (k nesting room : Nat) (e : Draft) (rest : List Token) :
    answer (nesting + k) (room + k) e rest = answer nesting room e rest := by
  simp [answer]

/-- Going on after an answer goes down as far as either of the two parts does. -/
theorem answer_bind {n m room : Nat} {e e' : Draft} {rest rest' : List Token}
    {f : Draft × List Token → Reading} (h : f (e, rest) = answer m room e' rest') :
    (answer n room e rest >>= f) = answer (max n m) room e' rest' := by
  by_cases hn : n ≤ room
  · rw [answer_of_le hn]
    refine h.trans ?_
    -- what goes on has no more room than there was before
    have hmax : max n m ≤ room ↔ m ≤ room := by omega
    simp only [answer, hmax]
  · rw [answer_of_lt (Nat.not_le.1 hn), answer_of_lt (by omega)]
    rfl

/-! ### Completeness -/

mutual

/-- **Completeness**: a rule reads the word of a derivation, unless it is nested too deeply. -/
theorem Derivation.rule_word_append {c : Category} (d : Derivation c) (room : Nat)
    {rest : List Token} (h : c.Ends rest) :
    c.rule room (d.word ++ rest) = answer d.nesting room d.draft rest := by
  match d with
  | .level first more =>
    -- the first operand ends where its continuation begins
    have hfirst := first.rule_word_append room (more.ends_word_append h)
    have hmore := more.chain_word_append room h (more.word ++ rest) first.draft (by simp)
    rw [Category.rule_level, Derivation.word, List.append_assoc, Calculator.level, hfirst,
      Derivation.nesting, Derivation.draft]
    exact answer_bind hmore
  | .minus sign hsign operand =>
    rw [Derivation.word, Derivation.nesting, Derivation.draft, List.cons_append, Category.rule]
    cases room with
    | zero => rw [answer_of_lt (by omega), unary, if_pos hsign]
    | succ room =>
      have hoperand := operand.rule_word_append room h
      rw [Category.rule] at hoperand
      rw [unary_minus hsign, hoperand, answer_add, answer, answer]
      split <;> rfl
  | .plain phrase =>
    have hphrase := phrase.rule_word_append room (Category.ends_primary rest)
    -- a primary does not begin with a minus sign, so that no unary minus is tried
    obtain ⟨t, tail, hword, ht⟩ := phrase.word_primary
    have hne : t.kind ≠ .minus := by rcases ht with ht | ht <;> simp [ht]
    rw [Derivation.word, Derivation.nesting, Derivation.draft, ← hphrase, hword, List.cons_append]
    exact unary_of_ne hne room (tail ++ rest)
  | .number t ht =>
    rw [Derivation.word, Derivation.nesting, Derivation.draft, answer_zero, Category.rule, primary,
      List.singleton_append, primaryOver, ht]
  | .group opener hopener inner closer hcloser =>
    have hends : Category.expression.Ends (closer :: rest) := by
      rw [Category.ends_cons, hcloser]
      rfl
    rw [Derivation.word, Derivation.nesting, Derivation.draft, Category.rule, primary,
      List.cons_append, List.append_assoc, List.singleton_append, primaryOver, hopener]
    match room with
    | 0 | 1 | 2 | 3 | 4 | 5 => rw [answer_of_lt (by omega)]; rfl
    | room + 6 =>
      -- the group goes down by six, and the closing parenthesis ends the expression inside
      have hinner := inner.rule_word_append room hends
      rw [Category.rule] at hinner
      rw [answer_add]
      show group (expression room) opener (inner.word ++ closer :: rest) = _
      rw [group, hinner]
      refine (answer_bind (m := 0) ?_).trans (by rw [Nat.max_zero])
      rw [answer_zero]
      exact if_pos hcloser

/-- A chain reads the word of a continuation, unless it is nested too deeply: the bound on its steps
is large enough. -/
theorem Continuation.chain_word_append {l : Level} (k : Continuation l) (room : Nat)
    {rest : List Token} (h : (Category.level l).Ends rest) (bound : List Token) (left : Draft)
    (hbound : k.word.length ≤ bound.length) :
    chain l.precedence (l.operand.rule room) bound left (k.word ++ rest) =
      answer k.nesting room
        (k.drafts.foldl (fun left (op, right) => .join op left right) left) rest := by
  match k with
  | .done =>
    rw [Continuation.word, Continuation.nesting, Continuation.drafts, List.nil_append, answer_zero]
    cases bound with
    | nil => rfl
    | cons t bound => rw [chain, h.operator?_eq_none]; rfl
  | .step sign op hop operand more =>
    rw [Continuation.word, List.length_cons, List.length_append] at hbound
    have hoperand := operand.rule_word_append room (more.ends_word_append h)
    -- every step uses up at least one token of the bound
    cases bound with
    | nil => simp at hbound
    | cons t bound =>
      have hmore := more.chain_word_append room h bound (.join op left operand.draft)
        (by rw [List.length_cons] at hbound; omega)
      rw [Continuation.word, Continuation.nesting, Continuation.drafts, List.cons_append,
        List.append_assoc, chain, operator?, hop, Option.map_some]
      dsimp only
      rw [hoperand]
      exact answer_bind hmore

end

/-! ### Soundness -/

/-- A rule reads nothing but words of derivations, as the expressions of these derivations. -/
def Rule.Sound (c : Category) (rule : Rule) : Prop :=
  ∀ {ts rest : List Token} {e : Draft}, rule ts = .ok (e, rest) →
    ∃ d : Derivation c, d.word ++ rest = ts ∧ d.draft = e

theorem exists_of_bind_eq_ok {ε α β : Type} {x : Except ε α} {f : α → Except ε β} {b : β}
    (h : (x >>= f) = .ok b) : ∃ a, x = .ok a ∧ f a = .ok b := by
  cases x with
  | error e => cases h
  | ok a => exact ⟨a, rfl, h⟩

theorem bind_of_eq_ok {ε α β : Type} {x : Except ε α} {a : α} (h : x = .ok a)
    (f : α → Except ε β) : (x >>= f) = f a := by
  rw [h]
  rfl

theorem eq_ok_getD_of_isOk {ε α : Type} {x : Except ε α} (h : x.isOk = true) (a : α) :
    x = .ok (x.toOption.getD a) := by
  cases x with
  | error e => cases h
  | ok b => rfl

theorem operator?_eq_some_iff {precedence : Precedence} {ts rest : List Token} {op : Operator} :
    operator? precedence ts = some (op, rest) ↔
      ∃ sign, ts = sign :: rest ∧ precedence sign.kind = some op := by
  cases ts with
  | nil => simp [operator?]
  | cons t ts =>
    simp only [operator?, Option.map_eq_some_iff, Prod.mk.injEq, List.cons.injEq]
    constructor
    · rintro ⟨op', hop, rfl, rfl⟩
      exact ⟨t, ⟨rfl, rfl⟩, hop⟩
    · rintro ⟨sign, ⟨rfl, rfl⟩, hop⟩
      exact ⟨op, hop, rfl, rfl⟩

/-- A chain over a sound rule for operands reads nothing but continuations. -/
theorem exists_continuation_of_chain {l : Level} {operand : Rule} (hop : operand.Sound l.operand)
    {bound ts rest : List Token} {left e : Draft}
    (h : chain l.precedence operand bound left ts = .ok (e, rest)) :
    ∃ k : Continuation l, k.word ++ rest = ts ∧
      k.drafts.foldl (fun left (op, right) => .join op left right) left = e := by
  -- on the bound, with the left operand general: each step joins one more operand to it
  induction bound generalizing ts left with
  | nil =>
    rw [chain, Except.ok.injEq, Prod.mk.injEq] at h
    obtain ⟨rfl, rfl⟩ := h
    exact ⟨.done, by rw [Continuation.word, List.nil_append], by rw [Continuation.drafts]; rfl⟩
  | cons t bound ih =>
    rw [chain] at h
    split at h
    · rw [Except.ok.injEq, Prod.mk.injEq] at h
      obtain ⟨rfl, rfl⟩ := h
      exact ⟨.done, by rw [Continuation.word, List.nil_append], by rw [Continuation.drafts]; rfl⟩
    · rename_i op afterOp hsome
      obtain ⟨sign, rfl, hsign⟩ := operator?_eq_some_iff.1 hsome
      obtain ⟨⟨right, afterRight⟩, hright, h⟩ := exists_of_bind_eq_ok h
      obtain ⟨d, rfl, rfl⟩ := hop hright
      obtain ⟨k, rfl, rfl⟩ := ih h
      exact ⟨.step sign op hsign d k, by simp [Continuation.word],
        by rw [Continuation.drafts, List.foldl_cons]⟩

theorem sound_level {l : Level} {operand : Rule} (hop : operand.Sound l.operand) :
    (level l.precedence operand).Sound (.level l) := by
  intro ts rest e h
  obtain ⟨⟨left, afterLeft⟩, hleft, h⟩ := exists_of_bind_eq_ok h
  obtain ⟨first, rfl, rfl⟩ := hop hleft
  obtain ⟨more, rfl, rfl⟩ := exists_continuation_of_chain hop h
  exact ⟨.level first more, by rw [Derivation.word, List.append_assoc], by rw [Derivation.draft]⟩

/-- A group over a sound rule for expressions reads an expression and the closing parenthesis. -/
theorem exists_of_group {expression : Rule} (hexp : expression.Sound .expression)
    {opener : Token} (hopener : opener.kind = .leftParen) {ts rest : List Token} {e : Draft}
    (h : group expression opener ts = .ok (e, rest)) :
    ∃ d : Derivation .primary, d.word ++ rest = opener :: ts ∧ d.draft = e := by
  obtain ⟨⟨inner, after⟩, hinner, h⟩ := exists_of_bind_eq_ok h
  obtain ⟨d, rfl, rfl⟩ := hexp hinner
  -- an expression alone is no group before its closing parenthesis has been read
  cases after with
  | nil => cases h
  | cons closer after =>
    by_cases hcloser : closer.kind = .rightParen
    · dsimp only at h
      rw [if_pos hcloser, Except.ok.injEq, Prod.mk.injEq] at h
      obtain ⟨rfl, rfl⟩ := h
      exact ⟨.group opener hopener d closer hcloser, by simp [Derivation.word],
        by rw [Derivation.draft]⟩
    · dsimp only at h
      rw [if_neg hcloser] at h
      cases h

/-- A primary reads a number, or whatever its groups read. -/
theorem sound_primaryOver {group : Token → Rule}
    (hgroup : ∀ {opener : Token} {ts rest : List Token} {e : Draft}, opener.kind = .leftParen →
      group opener ts = .ok (e, rest) →
        ∃ d : Derivation .primary, d.word ++ rest = opener :: ts ∧ d.draft = e) :
    (primaryOver group).Sound .primary := by
  intro ts rest e h
  cases ts with
  | nil => cases h
  | cons t ts =>
    rw [primaryOver] at h
    split at h
    · rename_i hnumber
      rw [Except.ok.injEq, Prod.mk.injEq] at h
      obtain ⟨rfl, rfl⟩ := h
      exact ⟨.number t hnumber, by rw [Derivation.word, List.singleton_append],
        by rw [Derivation.draft]⟩
    · rename_i hparen
      exact hgroup hparen h
    · cases h

theorem sound_expressionOver {rule : Rule} (h : rule.Sound .unary) :
    (expressionOver rule).Sound .expression :=
  sound_level (l := .additive) (sound_level (l := .multiplicative) (sound_level (l := .raising) h))

theorem sound_unary (room : Nat) : (unary room).Sound .unary := by
  -- a group goes down by six and a minus sign by one
  induction room using Nat.strongRecOn with
  | ind room ih =>
    intro ts rest e h
    cases ts with
    | nil => simp [unary, refuse] at h
    | cons t ts =>
      by_cases ht : t.kind = .minus
      · cases room with
        | zero => simp [unary, ht] at h
        | succ room =>
          rw [unary_minus ht] at h
          cases hoperand : unary room ts with
          | error halt => rw [hoperand] at h; cases h
          | ok reading =>
            obtain ⟨d, rfl, hd⟩ := ih room (by omega) hoperand
            rw [hoperand, Except.map, Except.ok.injEq, negated, Prod.mk.injEq] at h
            obtain ⟨rfl, rfl⟩ := h
            exact ⟨.minus t ht d, by rw [Derivation.word, List.cons_append],
              by rw [Derivation.draft, hd]⟩
      · -- only an opening parenthesis leads to an expression again
        rw [unary_of_ne ht, primary] at h
        obtain ⟨d, hword, hdraft⟩ := sound_primaryOver (fun hopener hgroup => by
          match room with
          | 0 | 1 | 2 | 3 | 4 | 5 => cases hgroup
          | room + 6 =>
            exact exists_of_group (sound_expressionOver (ih room (by omega))) hopener hgroup) h
        exact ⟨.plain d, by rw [Derivation.word, hword], by rw [Derivation.draft, hdraft]⟩

/-- **Soundness**: an expression is read only from the word of a derivation. -/
theorem sound_expression (room : Nat) : (expression room).Sound .expression :=
  sound_expressionOver (sound_unary room)

/-! ### Whole expressions -/

theorem wholeExpression_word (room : Nat) (d : Derivation .expression) :
    wholeExpression room d.word = answer d.nesting room d.draft [] := by
  have hread := d.rule_word_append room (Category.ends_nil _)
  rw [Category.rule, List.append_nil] at hread
  rw [wholeExpression, hread]
  exact (answer_bind (m := 0) (by rw [answer_zero])).trans (by rw [Nat.max_zero])

theorem exists_of_wholeExpression {room : Nat} {ts rest : List Token} {e : Draft}
    (h : wholeExpression room ts = .ok (e, rest)) :
    ∃ d : Derivation .expression, d.word = ts := by
  obtain ⟨⟨e', unread⟩, hread, h⟩ := exists_of_bind_eq_ok h
  cases unread with
  | cons t unread => cases h
  | nil =>
    obtain ⟨d, hword, -⟩ := sound_expression room hread
    exact ⟨d, by rw [← hword, List.append_nil]⟩

namespace Cursor

/-- What is behind the first end of the text takes no part in reading. -/
theorem ofTokens_append_cons {front : List Token} {stop : Token}
    (hfront : ∀ t ∈ front, t.kind ≠ .finish) (hstop : stop.kind = .finish) (rest : List Token) :
    ofTokens (front ++ stop :: rest) = ⟨0, front, stop⟩ := by
  -- no token in front is an end of the text, and the first one behind them is
  have hin : ∀ t ∈ front, inText t = true := by
    intro t ht
    simpa [inText] using hfront t ht
  have hout : ¬ inText stop = true := by simp [inText, hstop]
  rw [ofTokens, List.takeWhile_append_of_pos hin, List.dropWhile_append_of_pos hin,
    List.takeWhile_cons_of_neg hout, List.dropWhile_cons_of_neg hout, List.append_nil,
    List.headD_cons]

theorem ofTokens_append {front : List Token} {stop : Token}
    (hfront : ∀ t ∈ front, t.kind ≠ .finish) (hstop : stop.kind = .finish) :
    ofTokens (front ++ [stop]) = ⟨0, front, stop⟩ :=
  ofTokens_append_cons hfront hstop []

/-- The word of a derivation is read up to the end of the text, unless it is nested too deeply. -/
theorem parse_word (d : Derivation .expression) (stop : Token) :
    parse ⟨0, d.word, stop⟩ =
      if d.nesting ≤ allowance then (.ok d.draft, ⟨d.word.length, [], stop⟩)
      else (.error .tooDeep, ⟨0, d.word, stop⟩) := by
  rw [parse, apply, wholeExpression_word]
  by_cases h : d.nesting ≤ allowance
  · rw [answer_of_le h, if_pos h]
    simp [moveTo]
  · rw [answer_of_lt (Nat.not_le.1 h), if_neg h]

theorem exists_of_parse {front : List Token} {stop : Token} {e : Draft}
    (h : (parse ⟨0, front, stop⟩).1 = .ok e) : ∃ d : Derivation .expression, d.word = front := by
  rw [parse, apply] at h
  split at h
  · rename_i hread
    exact exists_of_wholeExpression hread
  · cases h
  · cases h

theorem exists_of_parse_ok {front : List Token} {stop : Token} {e : Draft}
    (h : (parse ⟨0, front, stop⟩).1 = .ok e) :
    ∃ d : Derivation .expression, d.word = front ∧ d.draft = e ∧ d.nesting ≤ allowance := by
  obtain ⟨d, rfl⟩ := exists_of_parse h
  rw [parse_word] at h
  by_cases hroom : d.nesting ≤ allowance
  · rw [if_pos hroom] at h
    exact ⟨d, rfl, Except.ok.inj h, hroom⟩
  · rw [if_neg hroom] at h
    cases h

end Cursor

/-- The word of a derivation in front of the end of the text is the expression of the derivation. -/
theorem parse_word_append {d : Derivation .expression} (hroom : d.nesting ≤ allowance)
    {stop : Token} (hstop : stop.kind = .finish) :
    parse (d.word ++ [stop]) = .ok (Draft.complete d.draft) := by
  rw [parse, Cursor.ofTokens_append d.kind_ne_finish hstop, Cursor.parse_word, if_pos hroom]
  rfl

theorem parse_word_of_lt {d : Derivation .expression} (hroom : allowance < d.nesting)
    {stop : Token} (hstop : stop.kind = .finish) : parse (d.word ++ [stop]) = .error .tooDeep := by
  rw [parse, Cursor.ofTokens_append d.kind_ne_finish hstop, Cursor.parse_word,
    if_neg (Nat.not_le.2 hroom)]
  rfl

/-- Tokens that are read are the word of a derivation, and the expression is read off it. -/
theorem exists_derivation_of_parse {front : List Token} {stop : Token} {tree : Expr Binary64}
    (hfront : ∀ t ∈ front, t.kind ≠ .finish) (hstop : stop.kind = .finish)
    (h : parse (front ++ [stop]) = .ok tree) :
    ∃ d : Derivation .expression, d.word = front ∧ Draft.complete d.draft = tree ∧
      d.nesting ≤ allowance := by
  rw [parse, Cursor.ofTokens_append hfront hstop] at h
  cases hread : (Cursor.parse ⟨0, front, stop⟩).1 with
  | error halt =>
    rw [hread] at h
    cases h
  | ok e =>
    rw [hread] at h
    obtain ⟨d, hword, rfl, hroom⟩ := Cursor.exists_of_parse_ok hread
    exact ⟨d, hword, Except.ok.inj h, hroom⟩

/-- A fault that tokens are read with is one that a cursor in front of them meets. -/
theorem exists_cursor_of_parse_fault {front : List Token} {stop : Token} {fault : SyntaxFault}
    (hfront : ∀ t ∈ front, t.kind ≠ .finish) (hstop : stop.kind = .finish)
    (h : parse (front ++ [stop]) = .error (.fault fault)) :
    ∃ after, Cursor.parse ⟨0, front, stop⟩ = (.error (.fault fault), after) := by
  rw [parse, Cursor.ofTokens_append hfront hstop] at h
  refine ⟨(Cursor.parse ⟨0, front, stop⟩).2, Prod.ext ?_ rfl⟩
  cases hread : (Cursor.parse ⟨0, front, stop⟩).1 with
  | ok e =>
    rw [hread] at h
    cases h
  | error halt =>
    rw [hread] at h
    exact congrArg Except.error (Except.error.inj h)

/-- **Reading is sound and complete**: tokens in front of the end of the text are read if and only
if their kinds are a sentence.  Then they have a single derivation, the expression is the one that
is read off it, and the cursor stands at the end of the text.  All other tokens are refused. -/
theorem parse_iff_sentence {front : List Token} {stop : Token}
    (hfront : ∀ t ∈ front, t.kind ≠ .finish) (hstop : stop.kind = .finish)
    (hroom : (Cursor.ofTokens (front ++ [stop])).parse.1 ≠ .error .tooDeep) :
    ((∃ e, (Cursor.ofTokens (front ++ [stop])).parse.1 = .ok e) ↔
        Sentence (front.map Token.kind)) ∧
      (Sentence (front.map Token.kind) →
        ∃ d : Derivation .expression, d.word = front ∧
          (∀ d' : Derivation .expression, d'.word = front → d' = d) ∧
          (Cursor.ofTokens (front ++ [stop])).parse = (.ok d.draft, ⟨front.length, [], stop⟩)) ∧
      (¬ Sentence (front.map Token.kind) →
        ∃ fault, (Cursor.ofTokens (front ++ [stop])).parse.1 = .error (.fault fault)) := by
  rw [Cursor.ofTokens_append hfront hstop] at hroom ⊢
  -- a derivation of the tokens fits the allowance, and is therefore read
  have hread : ∀ d : Derivation .expression, d.word = front →
      Cursor.parse ⟨0, front, stop⟩ = (.ok d.draft, ⟨front.length, [], stop⟩) := by
    rintro d rfl
    rw [Cursor.parse_word] at hroom ⊢
    by_cases h : d.nesting ≤ allowance
    · rw [if_pos h]
    · rw [if_neg h] at hroom
      exact absurd rfl hroom
  have hsound : ∀ e, (Cursor.parse ⟨0, front, stop⟩).1 = .ok e →
      Sentence (front.map Token.kind) := by
    intro e he
    exact (sentence_iff front).2 (Cursor.exists_of_parse he)
  refine ⟨⟨fun ⟨e, he⟩ => hsound e he, fun h => ?_⟩, fun h => ?_, fun h => ?_⟩
  · obtain ⟨d, hd⟩ := (sentence_iff front).1 h
    exact ⟨d.draft, by rw [hread d hd]⟩
  · obtain ⟨d, hd⟩ := (sentence_iff front).1 h
    exact ⟨d, hd, fun d' hd' => Derivation.word_injective (hd'.trans hd.symm), hread d hd⟩
  · cases hresult : (Cursor.parse ⟨0, front, stop⟩).1 with
    | ok e => exact absurd (hsound e hresult) h
    | error halt =>
      cases halt with
      | tooDeep => exact absurd hresult hroom
      | fault fault => exact ⟨fault, rfl⟩

/-- A negated group is a sentence, since it is read. -/
theorem parse_iff_sentence_negated_group :
    let place (n : Nat) : Location := ⟨"<input>", 1, n + 1, n⟩
    let front : List Token := [⟨.minus, "-", none, place 0⟩, ⟨.leftParen, "(", none, place 1⟩,
      ⟨.number, "1", some .one, place 2⟩, ⟨.rightParen, ")", none, place 3⟩]
    (Cursor.ofTokens (front ++ [.finish (place 4)])).parse.1 ≠ .error .tooDeep ∧
      Sentence [.minus, .leftParen, .number, .rightParen] := by
  intro place front
  have hroom : (Cursor.ofTokens (front ++ [.finish (place 4)])).parse.1 ≠ .error .tooDeep := by
    intro h
    cases h
  have h := parse_iff_sentence (by decide) rfl hroom
  exact ⟨hroom, h.1.1 ⟨_, rfl⟩⟩

end Calculator
