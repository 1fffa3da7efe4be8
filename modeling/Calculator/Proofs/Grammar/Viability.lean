import Calculator.Proofs.Grammar.Refusing

/-!
# The first token that cannot follow

Tokens are *viable* if some more tokens make a whole text of them.  Which tokens may follow viable
ones does not depend on all of them, only on how many parentheses are open and on whether an operand
has just ended: this is their *outlook*.  A rule that refuses a token has read viable tokens, and
the outlook behind them says that the refused token cannot follow, whatever comes after it.  So a
fault is always noticed at the first token that makes it one.

## Main definitions

* `Outlook`, `Outlook.next?`, `Outlook.after?` — what may follow some tokens, kind by kind.
* `WholeText`, `Viable` — the kinds of tokens of a whole text, and of the beginning of one.
* `Refusal.Justified` — what is known about the tokens in front of a refused one.

## Main results

* `Derivation.after?_word` — what a derivation does to the outlook.
* `Refused.justified`, `RefusedWhole.justified` — every refusal has a good reason.
* `Cursor.exists_justified_of_parse` — the refusal behind a fault.
* `parse_fault_viable` — **a fault is noticed at the first token that cannot follow.**
-/

namespace Calculator

/-! ### Outlooks -/

/-- What may follow some tokens. -/
inductive Outlook
  /-- An operand has to follow, inside that many open parentheses. -/
  | operand (depth : Nat)
  /-- An operand has just ended, inside that many open parentheses. -/
  | operator (depth : Nat)
  /-- The text has ended. -/
  | ended
  deriving DecidableEq, Repr

namespace Outlook

/-- The outlook behind one more token, if a token of that kind may follow. -/
def next? : Outlook → Token.Kind → Option Outlook
  | operand depth, .number => some (operator depth)
  | operand depth, .minus => some (operand depth)
  | operand depth, .leftParen => some (operand (depth + 1))
  | operator depth, .plus => some (operand depth)
  | operator depth, .minus => some (operand depth)
  | operator depth, .star => some (operand depth)
  | operator depth, .slash => some (operand depth)
  | operator depth, .caret => some (operand depth)
  | operator depth, .rightParen => if depth = 0 then none else some (operator (depth - 1))
  | operator depth, .finish => if depth = 0 then some ended else none
  | _, _ => none

/-- The outlook behind more tokens, if tokens of these kinds may follow. -/
def after? : Outlook → List Token.Kind → Option Outlook
  | o, [] => some o
  | o, kind :: kinds => (o.next? kind).bind fun o' => o'.after? kinds

@[simp] theorem after?_nil (o : Outlook) : o.after? [] = some o := rfl

theorem after?_cons {o o' : Outlook} {kind : Token.Kind} (h : o.next? kind = some o')
    (kinds : List Token.Kind) : o.after? (kind :: kinds) = o'.after? kinds := by
  rw [after?, h, Option.bind_some]

theorem after?_append (o : Outlook) (kinds more : List Token.Kind) :
    o.after? (kinds ++ more) = (o.after? kinds).bind fun o' => o'.after? more := by
  induction kinds generalizing o with
  | nil => rfl
  | cons kind kinds ih =>
    rw [List.cons_append, after?, after?]
    cases o.next? kind with
    | none => rfl
    | some o' => exact ih o'

theorem after?_append_of_some {o o' : Outlook} {kinds : List Token.Kind}
    (h : o.after? kinds = some o') (more : List Token.Kind) :
    o.after? (kinds ++ more) = o'.after? more := by
  rw [after?_append, h, Option.bind_some]

theorem next?_operator {l : Level} {kind : Token.Kind} {op : Operator}
    (h : l.precedence kind = some op) (depth : Nat) :
    (operator depth).next? kind = some (operand depth) := by
  cases l <;> cases kind <;> first | rfl | cases h

end Outlook

mutual

/-- Whatever is derived, it takes the place of an operand. -/
theorem Derivation.after?_word {c : Category} (d : Derivation c) (depth : Nat) :
    (Outlook.operand depth).after? (d.word.map Token.kind) = some (.operator depth) := by
  match d with
  | .level first more =>
    have hfirst := first.after?_word depth
    have hmore := more.after?_word depth
    rw [Derivation.word, List.map_append, Outlook.after?_append_of_some hfirst, hmore]
  | .minus sign hsign operand =>
    have hnext : (Outlook.operand depth).next? sign.kind = some (.operand depth) := by
      rw [hsign]; rfl
    rw [Derivation.word, List.map_cons, Outlook.after?_cons hnext]
    exact operand.after?_word depth
  | .plain phrase =>
    rw [Derivation.word]
    exact phrase.after?_word depth
  | .number t ht => rw [Derivation.word, List.map_singleton, ht]; rfl
  | .group opener hopener inner closer hcloser =>
    -- the parenthesis is open up to the closing one
    have hinner := inner.after?_word (depth + 1)
    have hnext : (Outlook.operand depth).next? opener.kind = some (.operand (depth + 1)) := by
      rw [hopener]; rfl
    rw [Derivation.word, List.map_cons, List.map_append, Outlook.after?_cons hnext,
      Outlook.after?_append_of_some hinner, List.map_singleton, hcloser]
    rfl

theorem Continuation.after?_word {l : Level} (k : Continuation l) (depth : Nat) :
    (Outlook.operator depth).after? (k.word.map Token.kind) = some (.operator depth) := by
  match k with
  | .done => rw [Continuation.word]; rfl
  | .step sign op hop operand more =>
    have hoperand := operand.after?_word depth
    have hmore := more.after?_word depth
    rw [Continuation.word, List.map_cons, List.map_append,
      Outlook.after?_cons (Outlook.next?_operator hop depth),
      Outlook.after?_append_of_some hoperand, hmore]

end

/-! ### Whole texts and their beginnings -/

/-- The kinds of tokens of a whole text: a sentence and the end. -/
def WholeText (kinds : List Token.Kind) : Prop :=
  ∃ sentence, Sentence sentence ∧ kinds = sentence ++ [.finish]

/-- Tokens of these kinds can be continued to a whole text. -/
def Viable (kinds : List Token.Kind) : Prop := ∃ more, WholeText (kinds ++ more)

theorem Viable.exists_after? {kinds : List Token.Kind} (h : Viable kinds) :
    ∃ o, (Outlook.operand 0).after? kinds = some o := by
  obtain ⟨more, sentence, ⟨d, rfl⟩, hwhole⟩ := h
  -- the whole text has an outlook, so that no part of it is without one
  have hend : (Outlook.operand 0).after? (kinds ++ more) = some .ended := by
    rw [hwhole, Outlook.after?_append_of_some (d.after?_word 0)]
    rfl
  rw [Outlook.after?_append] at hend
  obtain ⟨o, ho, -⟩ := Option.bind_eq_some_iff.1 hend
  exact ⟨o, ho⟩

theorem viable_of_word_eq {read more : List Token} {d : Derivation .expression}
    (h : d.word = read ++ more) : Viable (read.map Token.kind) := by
  refine ⟨more.map Token.kind ++ [.finish], d.word.map Token.kind, ⟨d, rfl⟩, ?_⟩
  rw [h, List.map_append, List.append_assoc]

/-! ### Reasons to refuse -/

/-- The kind of the token that is refused. -/
def Refusal.kind (r : Refusal) : Token.Kind := (r.rest.head?.map Token.kind).getD .finish

/-- What is known about the tokens that a phrase of the category, inside that many open parentheses,
has in front of a refused one. -/
structure Refusal.Justified (c : Category) (depth : Nat) (read : List Token) (r : Refusal) :
    Prop where
  /-- They begin a phrase. -/
  begins : ∃ (more : List Token) (d : Derivation c), d.word = read ++ more
  /-- Behind them the refused token may not follow. -/
  stuck : ∃ o, (Outlook.operand depth).after? (read.map Token.kind) = some o ∧
    o.next? r.kind = none
  /-- A parenthesis that is not closed is one of them, and an expression follows it. -/
  unclosed : ∀ opener, r.cause = .unclosed opener → opener.kind = .leftParen ∧
    ∃ before, ∃ inner : Derivation .expression, read = before ++ opener :: inner.word

/-- Tokens in front of a phrase do not matter to a refusal inside it, if the phrase and they begin a
larger phrase, in which an operand has to follow them. -/
theorem Refusal.Justified.behind {c c' : Category} {depth depth' : Nat} {before read : List Token}
    {r : Refusal} (h : r.Justified c depth' read)
    (hout : (Outlook.operand depth).after? (before.map Token.kind) = some (.operand depth'))
    (hphrase : ∀ d : Derivation c, ∃ (more : List Token) (d' : Derivation c'),
      d'.word = before ++ (d.word ++ more)) :
    r.Justified c' depth (before ++ read) := by
  obtain ⟨⟨more, d, hd⟩, ⟨o, ho, hnext⟩, hunclosed⟩ := h
  refine ⟨?_, ⟨o, ?_, hnext⟩, ?_⟩
  · obtain ⟨more', d', hd'⟩ := hphrase d
    refine ⟨more ++ more', d', ?_⟩
    rw [hd', hd, List.append_assoc, List.append_assoc]
  · rw [List.map_append, Outlook.after?_append_of_some hout, ho]
  · intro opener hcause
    obtain ⟨hopener, front, inner, hread⟩ := hunclosed opener hcause
    refine ⟨hopener, before ++ front, inner, ?_⟩
    rw [hread, List.append_assoc]

/-- A refusal inside a phrase that is the beginning of a larger one. -/
theorem Refusal.Justified.first {c c' : Category} {depth : Nat} {read : List Token} {r : Refusal}
    (h : r.Justified c depth read)
    (hphrase : ∀ d : Derivation c, ∃ d' : Derivation c', d'.word = d.word) :
    r.Justified c' depth read := by
  have hbehind : r.Justified c' depth ([] ++ read) := by
    refine h.behind rfl ?_
    intro d
    obtain ⟨d', hd'⟩ := hphrase d
    exact ⟨[], d', by rw [hd', List.append_nil, List.nil_append]⟩
  exact hbehind

/-- Behind an operand that does not go on, only a closing parenthesis or the end may follow. -/
theorem next?_operator_eq_none {r : Refusal} (hends : Category.expression.Ends r.rest)
    {depth : Nat} (hparen : depth = 0 ∨ r.kind ≠ .rightParen)
    (hfinish : depth ≠ 0 ∨ r.kind ≠ .finish) : (Outlook.operator depth).next? r.kind = none := by
  have hgo : Category.expression.goesOn r.kind = false := by
    obtain ⟨cause, rest⟩ := r
    cases rest with
    | nil => rfl
    | cons t rest => exact (Category.ends_cons ..).1 hends
  -- the expression does not go on, which leaves two kinds that could follow
  generalize r.kind = kind at hparen hfinish hgo
  cases kind with
  | finish => simpa [Outlook.next?] using hfinish
  | rightParen => simpa [Outlook.next?] using hparen
  | number => rfl
  | leftParen => rfl
  | plus => cases hgo
  | minus => cases hgo
  | star => cases hgo
  | slash => cases hgo
  | caret => cases hgo

theorem justified_operandExpected {ts : List Token} (depth : Nat)
    (h : ∀ t ∈ ts.head?, t.kind ≠ .number ∧ t.kind ≠ .leftParen ∧ t.kind ≠ .minus) :
    (Refusal.mk .operandExpected ts).Justified .primary depth [] := by
  refine ⟨?_, ⟨.operand depth, rfl, ?_⟩, ?_⟩
  · -- a number would be a primary
    let t : Token := ⟨.number, "0", none, .ofPosition defaultName .start⟩
    exact ⟨[t], .number t rfl, by rw [Derivation.word, List.nil_append]⟩
  · cases ts with
    | nil => rfl
    | cons t ts =>
      obtain ⟨hnumber, hparen, hminus⟩ := h t rfl
      show (Outlook.operand depth).next? t.kind = none
      generalize t.kind = kind at hnumber hparen hminus
      cases kind <;> first | rfl | contradiction
  · intro opener hcause
    cases hcause

/-- An expression that is not closed in front of a refused token. -/
theorem justified_unclosed {opener : Token} (hopener : opener.kind = .leftParen)
    (inner : Derivation .expression) {rest : List Token} (hends : Category.expression.Ends rest)
    (h : ∀ t ∈ rest.head?, t.kind ≠ .rightParen) (depth : Nat) :
    (Refusal.mk (.unclosed opener) rest).Justified .primary depth (opener :: inner.word) := by
  -- the parenthesis that is missing would end the group
  let closer : Token := ⟨.rightParen, ")", none, opener.location⟩
  have hkind : (Refusal.mk (.unclosed opener) rest).kind ≠ .rightParen := by
    cases rest with
    | nil => intro hkind; cases hkind
    | cons t rest => exact h t rfl
  have hnext : (Outlook.operand depth).next? opener.kind = some (.operand (depth + 1)) := by
    rw [hopener]
    rfl
  refine ⟨?_, ⟨.operator (depth + 1), ?_, ?_⟩, ?_⟩
  · exact ⟨[closer], .group opener hopener inner closer rfl, by rw [Derivation.word]; rfl⟩
  · rw [List.map_cons, Outlook.after?_cons hnext]
    exact inner.after?_word (depth + 1)
  · exact next?_operator_eq_none hends (Or.inr hkind) (Or.inl (Nat.succ_ne_zero depth))
  · intro opener' hcause
    cases hcause
    exact ⟨hopener, [], inner, rfl⟩

/-- **A phrase is refused with good reason**, in whichever way it is. -/
theorem Refused.justified {c : Category} {read : List Token} {r : Refusal} (h : Refused c read r)
    (depth : Nat) : r.Justified c depth read := by
  -- the depth is general, since it is one more inside a group
  induction h generalizing depth with
  | first h ih =>
    refine (ih depth).first ?_
    intro d
    refine ⟨.level d .done, ?_⟩
    rw [Derivation.word, Continuation.word, List.append_nil]
  | @later l read r left sign op hop h ih =>
    -- behind the operands so far and the operator an operand has to follow
    have hout : (Outlook.operand depth).after? ((left.word ++ [sign]).map Token.kind) =
        some (.operand depth) := by
      rw [List.map_append, Outlook.after?_append_of_some (left.after?_word depth),
        List.map_singleton, Outlook.after?_cons (Outlook.next?_operator hop depth),
        Outlook.after?_nil]
    rw [← List.singleton_append, ← List.append_assoc]
    refine (ih depth).behind hout ?_
    intro d
    obtain ⟨d', hword, -⟩ := left.exists_join hop d
    exact ⟨[], d', by simp [hword]⟩
  | minus sign hsign h ih =>
    have hout : (Outlook.operand depth).after? ([sign].map Token.kind) = some (.operand depth) := by
      rw [List.map_singleton, hsign]
      rfl
    refine (ih depth).behind hout ?_
    intro d
    exact ⟨[], .minus sign hsign d, by rw [Derivation.word, List.append_nil]; rfl⟩
  | plain h ih =>
    refine (ih depth).first ?_
    intro d
    exact ⟨.plain d, by rw [Derivation.word]⟩
  | missing h => exact justified_operandExpected depth h
  | inside opener hopener h ih =>
    have hout : (Outlook.operand depth).after? ([opener].map Token.kind) =
        some (.operand (depth + 1)) := by
      rw [List.map_singleton, hopener]
      rfl
    refine (ih (depth + 1)).behind hout ?_
    intro d
    exact ⟨[⟨.rightParen, ")", none, opener.location⟩], .group opener hopener d _ rfl,
      by rw [Derivation.word]; rfl⟩
  | unclosed opener hopener inner hends h =>
    exact justified_unclosed hopener inner hends h depth

/-- A whole expression is refused with good reason: no parenthesis is open around it. -/
theorem RefusedWhole.justified {read : List Token} {r : Refusal} (h : RefusedWhole read r)
    (hrest : ∀ t ∈ r.rest, t.kind ≠ .finish) : r.Justified .expression 0 read := by
  cases h with
  | inside h => exact h.justified 0
  | @trailing d t rest hends =>
    have ht : t.kind ≠ .finish := hrest t (by simp)
    refine ⟨?_, ⟨.operator 0, d.after?_word 0, ?_⟩, ?_⟩
    · exact ⟨[], d, (List.append_nil _).symm⟩
    · exact next?_operator_eq_none hends (Or.inl rfl) (Or.inr ht)
    · intro opener hcause
      cases hcause

/-! ### Faults -/

namespace Cursor

/-- Behind every fault there is a refusal with good reason, and the cursor stands at the refused
token. -/
theorem exists_justified_of_parse {front : List Token} {stop : Token}
    (hfront : ∀ t ∈ front, t.kind ≠ .finish) {fault : SyntaxFault} {after : Cursor}
    (h : parse ⟨0, front, stop⟩ = (.error (.fault fault), after)) :
    ∃ (r : Refusal) (read : List Token), front = read ++ r.rest ∧
      r.Justified .expression 0 read ∧ fault = .ofRefusal stop r ∧
        after = ⟨read.length, r.rest, stop⟩ := by
  obtain ⟨r, read, rfl, hrefused, hfault, hafter⟩ := exists_refused_of_parse h
  refine ⟨r, read, rfl, hrefused.justified ?_, hfault, hafter⟩
  intro t ht
  exact hfront t (List.mem_append_right _ ht)

end Cursor

theorem SyntaxFault.found_ofRefusal (stop : Token) (r : Refusal) :
    (ofRefusal stop r).found = r.rest.headD stop := by
  obtain ⟨cause, rest⟩ := r
  cases cause <;> rfl

theorem getElem?_read (read rest : List Token) (stop : Token) :
    (read ++ rest ++ [stop])[read.length]? = some (rest.headD stop) := by
  rw [List.append_assoc, List.getElem?_append_right (Nat.le_refl _), Nat.sub_self]
  cases rest <;> rfl

theorem take_succ_read (read rest : List Token) (stop : Token) :
    (read ++ rest ++ [stop]).take (read.length + 1) = read ++ [rest.headD stop] := by
  rw [List.append_assoc, List.take_append, List.take_of_length_le (Nat.le_succ _),
    Nat.add_sub_cancel_left]
  cases rest <;> rfl

/-- **A fault is noticed at the first token that cannot follow**: the cursor stands at the token
that the fault names, the tokens in front of it can be continued to a whole text, and with that
token they cannot. -/
theorem parse_fault_viable {front : List Token} {stop : Token}
    (hfront : ∀ t ∈ front, t.kind ≠ .finish) (hstop : stop.kind = .finish) {fault : SyntaxFault}
    {after : Cursor}
    (h : (Cursor.ofTokens (front ++ [stop])).parse = (.error (.fault fault), after)) :
    (front ++ [stop])[after.passed]? = some fault.found ∧
      Viable (((front ++ [stop]).take after.passed).map Token.kind) ∧
      ¬ Viable (((front ++ [stop]).take (after.passed + 1)).map Token.kind) := by
  rw [Cursor.ofTokens_append hfront hstop] at h
  obtain ⟨r, read, rfl, hjustified, rfl, rfl⟩ := Cursor.exists_justified_of_parse hfront h
  obtain ⟨⟨more, d, hword⟩, ⟨o, ho, hnext⟩, -⟩ := hjustified
  have hkind : (r.rest.headD stop).kind = r.kind := by
    obtain ⟨cause, rest⟩ := r
    cases rest with
    | nil => exact hstop
    | cons t rest => rfl
  refine ⟨?_, ?_, ?_⟩
  · rw [SyntaxFault.found_ofRefusal, getElem?_read]
  · rw [List.append_assoc, List.take_left]
    exact viable_of_word_eq hword
  · -- viable tokens have an outlook, and the refused token leaves none
    intro hviable
    obtain ⟨o', ho'⟩ := hviable.exists_after?
    rw [take_succ_read, List.map_append, Outlook.after?_append_of_some ho, List.map_singleton,
      hkind, Outlook.after?, hnext] at ho'
    cases ho'

/-- In `-(1+)` the closing parenthesis is the first token that cannot follow. -/
theorem parse_fault_viable_missing_operand :
    let place (n : Nat) : Location := ⟨"<input>", 1, n + 1, n⟩
    let front : List Token := [⟨.minus, "-", none, place 0⟩, ⟨.leftParen, "(", none, place 1⟩,
      ⟨.number, "1", some .one, place 2⟩, ⟨.plus, "+", none, place 3⟩,
      ⟨.rightParen, ")", none, place 4⟩]
    ∃ fault after,
      (Cursor.ofTokens (front ++ [.finish (place 5)])).parse = (.error (.fault fault), after) ∧
      after.passed = 4 ∧ Viable [.minus, .leftParen, .number, .plus] ∧
      ¬ Viable [.minus, .leftParen, .number, .plus, .rightParen] := by
  intro place front
  have hparse : (Cursor.ofTokens (front ++ [.finish (place 5)])).parse =
      (.error (.fault (.unexpectedToken [.number, .leftParen] ⟨.rightParen, ")", none, place 4⟩)),
        ⟨4, [⟨.rightParen, ")", none, place 4⟩], .finish (place 5)⟩) := rfl
  obtain ⟨-, hviable, hnot⟩ := parse_fault_viable (by decide) rfl hparse
  exact ⟨_, _, hparse, rfl, hviable, hnot⟩

end Calculator
