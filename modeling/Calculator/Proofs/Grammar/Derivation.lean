import Calculator.Grammar.Parse

/-!
# Derivations

The grammar of expressions on its own, apart from how the rules of `Calculator.Grammar.Parse` go
through a list of tokens:

* *expression*: a term and any number of terms, each behind `+` or `-`,
* *term*: a power and any number of powers, each behind `*` or `/`,
* *power*: a unary and any number of unaries, each behind `^`,
* *unary*: `-` and a unary, or a primary,
* *primary*: a number, or an expression in parentheses.

A derivation is a tree of applications of these rules with tokens at its leaves.  It has a *word*,
the tokens at its leaves, and it can be read as an expression, where the operators of one level
associate to the left and parentheses only group.

## Main definitions

* `Category` — what the grammar has rules for; `Level` — its three levels of binary operators.
* `Derivation`, `Continuation` — derivations, and what follows the first operand of a level.
* `Derivation.word` — the tokens that are derived.
* `Derivation.draft` — the expression that is read off.
* `Derivation.nesting` — what a derivation spends of an allowance.
* `Continuation.append` — a continuation that goes on with another one.
* `Sentence` — the kinds of tokens that an expression can be made of.

## Main results

* `Derivation.word_append_inj` — **the grammar is unambiguous**: what follows does not matter as
  long as it does not go on with the category.
* `sentence_iff` — whether tokens can be derived is decided by their kinds.
-/

namespace Calculator

/-! ### Categories and levels -/

/-- A level of binary operators, from the loosest to the tightest. -/
inductive Level
  | additive
  | multiplicative
  | raising
  deriving DecidableEq, Repr

/-- What the grammar has rules for. -/
inductive Category
  /-- Operands with operators of one level between them: an expression, a term or a power. -/
  | level (l : Level)
  | unary
  | primary
  deriving DecidableEq, Repr

namespace Level

/-- The operators of a level. -/
def precedence : Level → Precedence
  | additive => .additive
  | multiplicative => .multiplicative
  | raising => .raising

/-- What stands between the operators of a level. -/
def operand : Level → Category
  | additive => .level .multiplicative
  | multiplicative => .level .raising
  | raising => .unary

end Level

namespace Category

/-- The category of expressions. -/
abbrev expression : Category := level .additive

/-- The category of terms. -/
abbrev term : Category := level .multiplicative

/-- The category of powers. -/
abbrev power : Category := level .raising

/-- Whether a token of the given kind after a phrase of the category would go on with it. -/
def goesOn : Category → Token.Kind → Bool
  | level .additive, kind =>
    (Precedence.additive kind).isSome || (Precedence.multiplicative kind).isSome ||
      (Precedence.raising kind).isSome
  | level .multiplicative, kind =>
    (Precedence.multiplicative kind).isSome || (Precedence.raising kind).isSome
  | level .raising, kind => (Precedence.raising kind).isSome
  | unary, _ => false
  | primary, _ => false

/-- A phrase of the category ends in front of these tokens. -/
def Ends (c : Category) (rest : List Token) : Prop := ∀ t ∈ rest.head?, c.goesOn t.kind = false

@[simp] theorem ends_nil (c : Category) : c.Ends [] := by simp [Ends]

@[simp] theorem ends_cons (c : Category) (t : Token) (rest : List Token) :
    c.Ends (t :: rest) ↔ c.goesOn t.kind = false := by
  simp [Ends]

@[simp] theorem ends_unary (rest : List Token) : unary.Ends rest := fun _ _ => rfl

@[simp] theorem ends_primary (rest : List Token) : primary.Ends rest := fun _ _ => rfl

theorem Ends.operand {l : Level} {rest : List Token} (h : (level l).Ends rest) :
    l.operand.Ends rest := by
  intro t ht
  -- what goes on with an operand of the level goes on with the level
  have hgo := h t ht
  cases l with
  | additive =>
    simp only [goesOn, Bool.or_eq_false_iff] at hgo
    simp [Level.operand, goesOn, hgo]
  | multiplicative =>
    simp only [goesOn, Bool.or_eq_false_iff] at hgo
    simp [Level.operand, goesOn, hgo]
  | raising => rfl

theorem ends_operand_of_precedence {l : Level} {sign : Token} {op : Operator}
    (h : l.precedence sign.kind = some op) (rest : List Token) :
    l.operand.Ends (sign :: rest) := by
  rw [ends_cons]
  cases l <;> cases hkind : sign.kind <;> rw [hkind] at h <;> first | rfl | cases h

theorem Ends.operator?_eq_none {l : Level} {rest : List Token} (h : (level l).Ends rest) :
    operator? l.precedence rest = none := by
  cases rest with
  | nil => rfl
  | cons t rest =>
    rw [ends_cons] at h
    have hnone : l.precedence t.kind = none := by
      cases l <;> simp_all [goesOn, Level.precedence]
    rw [operator?, hnone, Option.map_none]

end Category

/-! ### Derivations -/

mutual

/-- A derivation of a category. -/
inductive Derivation : Category → Type
  /-- An operand, and what follows it on its level. -/
  | level {l : Level} (first : Derivation l.operand) (more : Continuation l) :
      Derivation (.level l)
  /-- A minus sign and a unary. -/
  | minus (sign : Token) (hsign : sign.kind = .minus) (operand : Derivation .unary) :
      Derivation .unary
  /-- A primary alone. -/
  | plain (phrase : Derivation .primary) : Derivation .unary
  /-- A number. -/
  | number (t : Token) (ht : t.kind = .number) : Derivation .primary
  /-- An expression in parentheses. -/
  | group (opener : Token) (hopener : opener.kind = .leftParen) (inner : Derivation .expression)
      (closer : Token) (hcloser : closer.kind = .rightParen) : Derivation .primary

/-- What follows the first operand of a level: any number of operands, each behind an operator. -/
inductive Continuation : Level → Type
  /-- Nothing more. -/
  | done {l : Level} : Continuation l
  /-- An operator, an operand, and what follows them. -/
  | step {l : Level} (sign : Token) (op : Operator) (hop : l.precedence sign.kind = some op)
      (operand : Derivation l.operand) (more : Continuation l) : Continuation l

end

mutual

/-- The tokens that are derived. -/
def Derivation.word : {c : Category} → Derivation c → List Token
  | _, .level first more => first.word ++ more.word
  | _, .minus sign _ operand => sign :: operand.word
  | _, .plain phrase => phrase.word
  | _, .number t _ => [t]
  | _, .group opener _ inner closer _ => opener :: (inner.word ++ [closer])

/-- The tokens that are derived. -/
def Continuation.word : {l : Level} → Continuation l → List Token
  | _, .done => []
  | _, .step sign _ _ operand more => sign :: (operand.word ++ more.word)

end

/-- The kinds of tokens that an expression can be made of. -/
def Sentence (kinds : List Token.Kind) : Prop :=
  ∃ d : Derivation .expression, d.word.map Token.kind = kinds

mutual

/-- The expression that a derivation is read as: every level is folded from the left, a number has
the value of its token, and parentheses leave nothing but their span behind. -/
def Derivation.draft : {c : Category} → Derivation c → Draft
  | _, .level first more =>
    more.drafts.foldl (fun left (op, right) => .join op left right) first.draft
  | _, .minus sign _ operand => .negate operand.draft ⟨sign.location, operand.draft.span.last⟩
  | _, .plain phrase => phrase.draft
  | _, .number t _ => .literal t.value ⟨t.location, t.location⟩
  | _, .group opener _ inner closer _ => inner.draft.withSpan ⟨opener.location, closer.location⟩

/-- The operators and operands that a continuation is read as. -/
def Continuation.drafts : {l : Level} → Continuation l → List (Operator × Draft)
  | _, .done => []
  | _, .step _ op _ operand more => (op, operand.draft) :: more.drafts

end

mutual

/-- What it costs to go down to the deepest token: one for a minus sign, six for a parenthesis. -/
def Derivation.nesting : {c : Category} → Derivation c → Nat
  | _, .level first more => max first.nesting more.nesting
  | _, .minus _ _ operand => operand.nesting + 1
  | _, .plain phrase => phrase.nesting
  | _, .number _ _ => 0
  | _, .group _ _ inner _ _ => inner.nesting + 6

/-- What it costs to go down to the deepest token. -/
def Continuation.nesting : {l : Level} → Continuation l → Nat
  | _, .done => 0
  | _, .step _ _ _ operand more => max operand.nesting more.nesting

end

/-- A number alone is a phrase of every category. -/
def Derivation.ofNumber (t : Token) (ht : t.kind = .number) : (c : Category) → Derivation c
  | .primary => .number t ht
  | .unary => .plain (.number t ht)
  | .level .raising => .level (.plain (.number t ht)) .done
  | .level .multiplicative => .level (.level (.plain (.number t ht)) .done) .done
  | .level .additive => .level (.level (.level (.plain (.number t ht)) .done) .done) .done

/-- The steps of a continuation and then those of another one. -/
def Continuation.append : {l : Level} → Continuation l → Continuation l → Continuation l
  | _, .done, more => more
  | _, .step sign op hop operand k, more => .step sign op hop operand (k.append more)

/-! ### Words -/

@[simp] theorem Continuation.word_append {l : Level} (k more : Continuation l) :
    (k.append more).word = k.word ++ more.word := by
  match k with
  | .done => rw [append, word, List.nil_append]
  | .step sign op hop operand k =>
    rw [append, word, word, word_append k more, List.cons_append, List.append_assoc]

@[simp] theorem Continuation.drafts_append {l : Level} (k more : Continuation l) :
    (k.append more).drafts = k.drafts ++ more.drafts := by
  match k with
  | .done => rw [append, drafts, List.nil_append]
  | .step sign op hop operand k =>
    rw [append, drafts, drafts, drafts_append k more, List.cons_append]

@[simp] theorem Continuation.nesting_append {l : Level} (k more : Continuation l) :
    (k.append more).nesting = max k.nesting more.nesting := by
  match k with
  | .done => rw [append, nesting, Nat.zero_max]
  | .step sign op hop operand k =>
    rw [append, nesting, nesting, nesting_append k more, Nat.max_assoc]

/-- A phrase of a level, another operator of it and another operand are a phrase of it again. -/
theorem Derivation.exists_join {l : Level} (left : Derivation (.level l)) {sign : Token}
    {op : Operator} (hop : l.precedence sign.kind = some op) (right : Derivation l.operand) :
    ∃ d : Derivation (.level l), d.word = left.word ++ sign :: right.word ∧
      d.draft = .join op left.draft right.draft ∧ d.nesting = max left.nesting right.nesting := by
  cases left with
  | level first more =>
    -- the new operator is one more step behind those of the phrase
    refine ⟨.level first (more.append (.step sign op hop right .done)), ?_, ?_, ?_⟩
    · simp [word, Continuation.word]
    · simp [draft, Continuation.drafts, List.foldl_append]
    · simp [nesting, Continuation.nesting, Nat.max_assoc]

@[simp] theorem Derivation.word_ofNumber (t : Token) (ht : t.kind = .number) (c : Category) :
    (ofNumber t ht c).word = [t] := by
  rcases c with (_ | _ | _) | _ | _ <;> rfl

@[simp] theorem Derivation.draft_ofNumber (t : Token) (ht : t.kind = .number) (c : Category) :
    (ofNumber t ht c).draft = .literal t.value ⟨t.location, t.location⟩ := by
  rcases c with (_ | _ | _) | _ | _ <;> rfl

@[simp] theorem Derivation.nesting_ofNumber (t : Token) (ht : t.kind = .number) (c : Category) :
    (ofNumber t ht c).nesting = 0 := by
  rcases c with (_ | _ | _) | _ | _ <;> rfl

mutual

theorem Derivation.kind_ne_finish {c : Category} (d : Derivation c) :
    ∀ t ∈ d.word, t.kind ≠ .finish := by
  match d with
  | .level first more =>
    intro t ht
    rw [Derivation.word, List.mem_append] at ht
    exact ht.elim (first.kind_ne_finish t) (more.kind_ne_finish t)
  | .minus sign hsign operand =>
    intro t ht
    rw [Derivation.word, List.mem_cons] at ht
    rcases ht with rfl | ht
    · simp [hsign]
    · exact operand.kind_ne_finish t ht
  | .plain phrase => exact phrase.kind_ne_finish
  | .number t ht =>
    intro t' ht'
    rw [Derivation.word, List.mem_singleton] at ht'
    simp [ht', ht]
  | .group opener hopener inner closer hcloser =>
    intro t ht
    rw [Derivation.word, List.mem_cons, List.mem_append, List.mem_singleton] at ht
    rcases ht with rfl | ht | rfl
    · simp [hopener]
    · exact inner.kind_ne_finish t ht
    · simp [hcloser]

theorem Continuation.kind_ne_finish {l : Level} (k : Continuation l) :
    ∀ t ∈ k.word, t.kind ≠ .finish := by
  match k with
  | .done => simp [Continuation.word]
  | .step sign op hop operand more =>
    intro t ht
    rw [Continuation.word, List.mem_cons, List.mem_append] at ht
    rcases ht with rfl | ht | ht
    · -- the end of the text is no operator
      intro hfinish
      rw [hfinish] at hop
      cases l <;> cases hop
    · exact operand.kind_ne_finish t ht
    · exact more.kind_ne_finish t ht

end

theorem Derivation.word_primary (d : Derivation .primary) :
    ∃ t rest, d.word = t :: rest ∧ (t.kind = .number ∨ t.kind = .leftParen) := by
  cases d with
  | number t ht => exact ⟨t, [], by rw [Derivation.word], Or.inl ht⟩
  | group opener hopener inner closer hcloser =>
    exact ⟨opener, inner.word ++ [closer], by rw [Derivation.word], Or.inr hopener⟩

theorem Derivation.word_primary_ne {d : Derivation .primary} {sign : Token} {rest more : List Token}
    (hsign : sign.kind = .minus) : sign :: rest ≠ d.word ++ more := by
  obtain ⟨t, tail, hword, ht⟩ := d.word_primary
  intro h
  rw [hword, List.cons_append, List.cons.injEq] at h
  rw [← h.1, hsign] at ht
  rcases ht with ht | ht <;> cases ht

/-- Behind the first operand of a level the operand ends, wherever the level does. -/
theorem Continuation.ends_word_append {l : Level} (k : Continuation l) {rest : List Token}
    (h : (Category.level l).Ends rest) : l.operand.Ends (k.word ++ rest) := by
  cases k with
  | done => rw [Continuation.word]; exact h.operand
  | step sign op hop operand more =>
    rw [Continuation.word]
    exact Category.ends_operand_of_precedence hop _

/-! ### Unambiguity -/

mutual

/-- **The grammar is unambiguous**: two derivations whose words begin the same tokens are the same,
if both end in front of what is left of the tokens. -/
theorem Derivation.word_append_inj {c : Category} (d d' : Derivation c) {rest rest' : List Token}
    (hrest : c.Ends rest) (hrest' : c.Ends rest') (h : d.word ++ rest = d'.word ++ rest') :
    d = d' ∧ rest = rest' := by
  match d, d' with
  | .level first more, .level first' more' =>
    -- the first operands end where their continuations begin, and are therefore the same
    simp only [Derivation.word, List.append_assoc] at h
    obtain ⟨rfl, hmore⟩ := first.word_append_inj first' (more.ends_word_append hrest)
      (more'.ends_word_append hrest') h
    obtain ⟨rfl, rfl⟩ := more.word_append_inj more' hrest hrest' hmore
    exact ⟨rfl, rfl⟩
  | .minus sign hsign operand, .minus sign' hsign' operand' =>
    simp only [Derivation.word, List.cons_append, List.cons.injEq] at h
    obtain ⟨rfl, h⟩ := h
    obtain ⟨rfl, rfl⟩ := operand.word_append_inj operand' hrest hrest' h
    exact ⟨rfl, rfl⟩
  | .minus sign hsign operand, .plain phrase =>
    -- no primary begins with a minus sign
    exact absurd h (Derivation.word_primary_ne hsign)
  | .plain phrase, .minus sign hsign operand =>
    exact absurd h.symm (Derivation.word_primary_ne hsign)
  | .plain phrase, .plain phrase' =>
    obtain ⟨rfl, rfl⟩ := phrase.word_append_inj phrase' (Category.ends_primary _)
      (Category.ends_primary _) h
    exact ⟨rfl, rfl⟩
  | .number t ht, .number t' ht' =>
    simp only [Derivation.word, List.cons_append, List.nil_append, List.cons.injEq] at h
    obtain ⟨rfl, rfl⟩ := h
    exact ⟨rfl, rfl⟩
  | .number t ht, .group opener hopener inner closer hcloser =>
    -- the first tokens are of different kinds
    simp only [Derivation.word, List.cons_append, List.cons.injEq] at h
    rw [h.1, hopener] at ht
    cases ht
  | .group opener hopener inner closer hcloser, .number t ht =>
    simp only [Derivation.word, List.cons_append, List.cons.injEq] at h
    rw [← h.1, hopener] at ht
    cases ht
  | .group opener hopener inner closer hcloser, .group opener' hopener' inner' closer' hcloser' =>
    simp only [Derivation.word, List.cons_append, List.append_assoc, List.nil_append,
      List.cons.injEq] at h
    obtain ⟨rfl, h⟩ := h
    -- the closing parenthesis ends the expression
    have hends : ∀ {t : Token} {ts : List Token}, t.kind = .rightParen →
        Category.expression.Ends (t :: ts) := by
      intro t ts ht
      rw [Category.ends_cons, ht]
      rfl
    obtain ⟨rfl, htail⟩ := inner.word_append_inj inner' (hends hcloser) (hends hcloser') h
    obtain ⟨rfl, rfl⟩ := List.cons.inj htail
    exact ⟨rfl, rfl⟩

theorem Continuation.word_append_inj {l : Level} (k k' : Continuation l) {rest rest' : List Token}
    (hrest : (Category.level l).Ends rest) (hrest' : (Category.level l).Ends rest')
    (h : k.word ++ rest = k'.word ++ rest') : k = k' ∧ rest = rest' := by
  match k, k' with
  | .done, .done =>
    simp only [Continuation.word, List.nil_append] at h
    exact ⟨rfl, h⟩
  | .done, .step sign op hop operand more =>
    -- the level would go on with the operator
    have hnone := hrest.operator?_eq_none
    simp only [Continuation.word, List.nil_append] at h
    simp [h, operator?, hop] at hnone
  | .step sign op hop operand more, .done =>
    have hnone := hrest'.operator?_eq_none
    simp only [Continuation.word, List.nil_append] at h
    simp [← h, operator?, hop] at hnone
  | .step sign op hop operand more, .step sign' op' hop' operand' more' =>
    simp only [Continuation.word, List.cons_append, List.append_assoc, List.cons.injEq] at h
    obtain ⟨rfl, h⟩ := h
    obtain rfl : op = op' := Option.some.inj (hop.symm.trans hop')
    obtain ⟨rfl, hmore⟩ := operand.word_append_inj operand' (more.ends_word_append hrest)
      (more'.ends_word_append hrest') h
    obtain ⟨rfl, rfl⟩ := more.word_append_inj more' hrest hrest' hmore
    exact ⟨rfl, rfl⟩

end

theorem Derivation.word_injective {c : Category} {d d' : Derivation c} (h : d.word = d'.word) :
    d = d' :=
  (d.word_append_inj d' (Category.ends_nil c) (Category.ends_nil c) (by rw [h])).1

/-! ### Kinds of tokens -/

mutual

/-- Whether tokens can be derived is decided by their kinds. -/
theorem Derivation.exists_word_eq {c : Category} (d : Derivation c) {ts : List Token}
    (h : ts.map Token.kind = d.word.map Token.kind) : ∃ d' : Derivation c, d'.word = ts := by
  match d with
  | .level first more =>
    rw [Derivation.word, List.map_append, List.map_eq_append_iff] at h
    obtain ⟨a, b, rfl, ha, hb⟩ := h
    obtain ⟨first', rfl⟩ := first.exists_word_eq ha
    obtain ⟨more', rfl⟩ := more.exists_word_eq hb
    exact ⟨.level first' more', by rw [Derivation.word]⟩
  | .minus sign hsign operand =>
    rw [Derivation.word, List.map_cons, List.map_eq_cons_iff] at h
    obtain ⟨t, ts, rfl, ht, h⟩ := h
    obtain ⟨operand', rfl⟩ := operand.exists_word_eq h
    exact ⟨.minus t (ht.trans hsign) operand', by rw [Derivation.word]⟩
  | .plain phrase =>
    rw [Derivation.word] at h
    obtain ⟨phrase', rfl⟩ := phrase.exists_word_eq h
    exact ⟨.plain phrase', by rw [Derivation.word]⟩
  | .number t ht =>
    rw [Derivation.word, List.map_cons, List.map_eq_cons_iff] at h
    obtain ⟨t', ts, rfl, ht', h⟩ := h
    obtain rfl := List.map_eq_nil_iff.1 h
    exact ⟨.number t' (ht'.trans ht), by rw [Derivation.word]⟩
  | .group opener hopener inner closer hcloser =>
    simp only [Derivation.word, List.map_cons, List.map_append, List.map_eq_cons_iff,
      List.map_eq_append_iff, List.map_nil, List.map_eq_nil_iff] at h
    obtain ⟨opener', _, rfl, hopener', a, _, rfl, ha, closer', _, rfl, hcloser', rfl⟩ := h
    obtain ⟨inner', rfl⟩ := inner.exists_word_eq ha
    exact ⟨.group opener' (hopener'.trans hopener) inner' closer' (hcloser'.trans hcloser),
      by rw [Derivation.word]⟩

/-- Whether tokens can continue a level is decided by their kinds. -/
theorem Continuation.exists_word_eq {l : Level} (k : Continuation l) {ts : List Token}
    (h : ts.map Token.kind = k.word.map Token.kind) : ∃ k' : Continuation l, k'.word = ts := by
  match k with
  | .done =>
    rw [Continuation.word, List.map_nil, List.map_eq_nil_iff] at h
    exact ⟨.done, by rw [Continuation.word, h]⟩
  | .step sign op hop operand more =>
    simp only [Continuation.word, List.map_cons, List.map_append, List.map_eq_cons_iff,
      List.map_eq_append_iff] at h
    obtain ⟨sign', _, rfl, hsign, a, b, rfl, ha, hb⟩ := h
    obtain ⟨operand', rfl⟩ := operand.exists_word_eq ha
    obtain ⟨more', rfl⟩ := more.exists_word_eq hb
    exact ⟨.step sign' op (hsign ▸ hop) operand' more', by rw [Continuation.word]⟩

end

/-- The kinds of some tokens are a sentence if and only if the tokens can be derived. -/
theorem sentence_iff (ts : List Token) :
    Sentence (ts.map Token.kind) ↔ ∃ d : Derivation .expression, d.word = ts := by
  constructor
  · rintro ⟨d, hd⟩
    exact d.exists_word_eq hd.symm
  · rintro ⟨d, rfl⟩
    exact ⟨d, rfl⟩

end Calculator
