import Calculator.Proofs.Grammar.Viability

/-!
# What the tokens in front of a fault tell

Which fault it is that a token makes is decided by the tokens in front of it.  If an operand has to
follow them, then one is missing.  If an operand has just ended, then the expression goes no further
with the token, and either a parenthesis is left open, of which the innermost is to blame, or the
expression is over and the token is one too many.

The parentheses that are left open are found without any rule, on a stack: an opening parenthesis is
put on it and a closing one takes the last off.  Whatever is derived leaves this stack as it is, and
so its height is the depth of the outlook.

## Main definitions

* `awaitsOperand` — an operand has to follow some tokens.
* `openParens` — the parentheses that some tokens leave open.
* `SyntaxFault.behind` — the fault that a token makes behind some others.

## Main results

* `awaitsOperand_eq_true_iff`, `length_openParens`, `count_leftParen_eq` — the outlook behind some
  tokens, by the last of them and by their parentheses.
* `RefusedWhole.ofRefusal_eq` — a refusal is the fault that its prefix tells.
* `parse_fault_by_prefix` — **the tokens in front of a fault decide which fault it is.**
-/

namespace Calculator

/-! ### Prefixes -/

/-- Whether an operand has to follow a token: it is an operator or an opening parenthesis. -/
def Token.Kind.asksOperand : Kind → Bool
  | plus | minus | star | slash | caret | leftParen => true
  | finish | number | rightParen => false

/-- Whether an operand has to follow some tokens: there are none, or the last asks for it. -/
def awaitsOperand (read : List Token) : Bool := read.getLast?.all fun t => t.kind.asksOperand

/-- The open parentheses behind one more token. -/
def openBehind (opened : List Token) (t : Token) : List Token :=
  match t.kind with
  | .leftParen => t :: opened
  | .rightParen => opened.tail
  | _ => opened

/-- The opening parentheses that have no matching closing one among some tokens, the innermost
first. -/
def openParens (read : List Token) : List Token := read.foldl openBehind []

/-- The fault that a token makes behind some others. -/
def SyntaxFault.behind (read : List Token) (found : Token) : SyntaxFault :=
  if awaitsOperand read then .unexpectedToken [.number, .leftParen] found
  else
    match openParens read with
    | opener :: _ => .unclosedParen opener found
    | [] => .trailingInput found

/-! ### Outlooks -/

namespace Outlook

/-- How many parentheses are open. -/
def depth : Outlook → Nat
  | operand depth => depth
  | operator depth => depth
  | ended => 0

theorem depth_next? {o o' : Outlook} {kind : Token.Kind} (h : o.next? kind = some o') :
    o.depth + [kind].count .leftParen = o'.depth + [kind].count .rightParen := by
  cases o with
  | operand n => cases kind <;> cases h <;> rfl
  | operator n =>
    cases kind with
    | finish | rightParen =>
      -- at the depth zero nothing is closed, and elsewhere the text does not end
      simp only [next?, Option.ite_none_left_eq_some, Option.ite_none_right_eq_some,
        Option.some.injEq] at h
      obtain ⟨hn, rfl⟩ := h
      simp only [depth, List.count_singleton]
      simp only [beq_iff_eq, reduceCtorEq, if_true, if_false]
      omega
    | number | leftParen => cases h
    | plus | minus | star | slash | caret => cases h; rfl
  | ended => cases h

/-- The depth is what the opening parentheses have over the closing ones. -/
theorem depth_after? {o o' : Outlook} {kinds : List Token.Kind} (h : o.after? kinds = some o') :
    o.depth + kinds.count .leftParen = o'.depth + kinds.count .rightParen := by
  -- token by token, with another outlook behind each of them
  induction kinds generalizing o with
  | nil =>
    cases h
    rfl
  | cons kind kinds ih =>
    rw [after?, Option.bind_eq_some_iff] at h
    obtain ⟨next, hnext, h⟩ := h
    have hstep := depth_next? hnext
    have hrest := ih h
    rw [← List.singleton_append, List.count_append, List.count_append]
    omega

theorem asksOperand_iff {o o' : Outlook} {kind : Token.Kind} (h : o.next? kind = some o') :
    kind.asksOperand = true ↔ ∃ depth, o' = operand depth := by
  cases o with
  | operand n => cases kind <;> cases h <;> simp [Token.Kind.asksOperand]
  | operator n =>
    cases kind with
    | finish | rightParen =>
      simp only [next?, Option.ite_none_left_eq_some, Option.ite_none_right_eq_some,
        Option.some.injEq] at h
      obtain ⟨-, rfl⟩ := h
      simp [Token.Kind.asksOperand]
    | number | leftParen => cases h
    | plus | minus | star | slash | caret => cases h; simp [Token.Kind.asksOperand]
  | ended => cases h

end Outlook

/-- What the last token says about the outlook. -/
theorem awaitsOperand_eq_true_iff {read : List Token} {depth : Nat} {o : Outlook}
    (h : (Outlook.operand depth).after? (read.map Token.kind) = some o) :
    awaitsOperand read = true ↔ ∃ inner, o = .operand inner := by
  rcases List.eq_nil_or_concat read with rfl | ⟨front, t, rfl⟩
  · cases h
    simp [awaitsOperand]
  · rw [List.concat_eq_append, List.map_append, Outlook.after?_append,
      Option.bind_eq_some_iff] at h
    obtain ⟨o', -, hlast⟩ := h
    rw [List.map_singleton, Outlook.after?, Option.bind_eq_some_iff] at hlast
    obtain ⟨o'', hnext, hlast⟩ := hlast
    cases hlast
    rw [← Outlook.asksOperand_iff hnext]
    simp [awaitsOperand]

theorem length_foldl_openBehind {o o' : Outlook} {read opened : List Token}
    (hopened : opened.length = o.depth) (h : o.after? (read.map Token.kind) = some o') :
    (read.foldl openBehind opened).length = o'.depth := by
  induction read generalizing o opened with
  | nil =>
    cases h
    exact hopened
  | cons t read ih =>
    rw [List.map_cons, Outlook.after?, Option.bind_eq_some_iff] at h
    obtain ⟨next, hnext, h⟩ := h
    refine ih ?_ h
    -- a token changes the stack as it changes the depth
    have hstep := Outlook.depth_next? hnext
    cases hkind : t.kind <;> simp [openBehind, hkind] at hstep ⊢ <;> omega

theorem length_openParens {read : List Token} {o : Outlook}
    (h : (Outlook.operand 0).after? (read.map Token.kind) = some o) :
    (openParens read).length = o.depth :=
  length_foldl_openBehind rfl h

/-- What the opening parentheses among viable tokens have over the closing ones is open. -/
theorem count_leftParen_eq {read : List Token} {o : Outlook}
    (h : (Outlook.operand 0).after? (read.map Token.kind) = some o) :
    (read.map Token.kind).count .leftParen =
      (openParens read).length + (read.map Token.kind).count .rightParen := by
  have hdepth := Outlook.depth_after? h
  rw [length_openParens h]
  simpa [Outlook.depth] using hdepth

/-! ### The stack of open parentheses -/

mutual

/-- Whatever is derived leaves the open parentheses as they are. -/
theorem Derivation.foldl_openBehind {c : Category} (d : Derivation c) (opened : List Token) :
    d.word.foldl openBehind opened = opened := by
  match d with
  | .level first more =>
    rw [Derivation.word, List.foldl_append, first.foldl_openBehind, more.foldl_openBehind]
  | .minus sign hsign operand =>
    rw [Derivation.word, List.foldl_cons, openBehind, hsign, operand.foldl_openBehind]
  | .plain phrase => rw [Derivation.word, phrase.foldl_openBehind]
  | .number t ht => rw [Derivation.word, List.foldl_cons, List.foldl_nil, openBehind, ht]
  | .group opener hopener inner closer hcloser =>
    -- the closing parenthesis takes off what the opening one has put on
    rw [Derivation.word, List.foldl_cons, List.foldl_append, openBehind, hopener,
      inner.foldl_openBehind, List.foldl_cons, List.foldl_nil, openBehind, hcloser, List.tail_cons]

theorem Continuation.foldl_openBehind {l : Level} (k : Continuation l) (opened : List Token) :
    k.word.foldl openBehind opened = opened := by
  match k with
  | .done => rw [Continuation.word, List.foldl_nil]
  | .step sign op hop operand more =>
    have hsign : openBehind opened sign = opened := by
      unfold openBehind
      cases l <;> cases hkind : sign.kind <;> rw [hkind] at hop <;> first | rfl | cases hop
    rw [Continuation.word, List.foldl_cons, List.foldl_append, hsign, operand.foldl_openBehind,
      more.foldl_openBehind]

end

theorem openParens_opener {opener : Token} (hopener : opener.kind = .leftParen)
    (before : List Token) (inner : Derivation .expression) :
    openParens (before ++ opener :: inner.word) = opener :: openParens before := by
  rw [openParens, List.foldl_append, List.foldl_cons, inner.foldl_openBehind, openBehind, hopener]
  rfl

/-! ### Refusals -/

theorem Refused.exists_operand {c : Category} {read : List Token} {r : Refusal}
    (h : Refused c read r) (hcause : r.cause = .operandExpected) (depth : Nat) :
    ∃ inner, (Outlook.operand depth).after? (read.map Token.kind) = some (.operand inner) := by
  induction h generalizing depth with
  | first h ih => exact ih hcause depth
  | @later l read r left sign op hop h ih =>
    obtain ⟨inner, hinner⟩ := ih hcause depth
    refine ⟨inner, ?_⟩
    rw [List.map_append, Outlook.after?_append_of_some (left.after?_word depth), List.map_cons,
      Outlook.after?_cons (Outlook.next?_operator hop depth), hinner]
  | minus sign hsign h ih =>
    obtain ⟨inner, hinner⟩ := ih hcause depth
    refine ⟨inner, ?_⟩
    rw [List.map_cons, hsign]
    exact hinner
  | plain h ih => exact ih hcause depth
  | missing h => exact ⟨depth, rfl⟩
  | inside opener hopener h ih =>
    obtain ⟨inner, hinner⟩ := ih hcause (depth + 1)
    refine ⟨inner, ?_⟩
    rw [List.map_cons, hopener]
    exact hinner
  | unclosed opener hopener inner hends h => cases hcause

theorem Refused.cause_ne_trailing {c : Category} {read : List Token} {r : Refusal}
    (h : Refused c read r) : r.cause ≠ .trailing := by
  induction h with
  | first h ih => exact ih
  | later left sign op hop h ih => exact ih
  | minus sign hsign h ih => exact ih
  | plain h ih => exact ih
  | missing h => intro hcause; cases hcause
  | inside opener hopener h ih => exact ih
  | unclosed opener hopener inner hends h => intro hcause; cases hcause

/-- **A refusal is the fault that the tokens in front of it tell.** -/
theorem RefusedWhole.ofRefusal_eq {read : List Token} {r : Refusal} (h : RefusedWhole read r)
    (stop : Token) : SyntaxFault.ofRefusal stop r = .behind read (r.rest.headD stop) := by
  cases h with
  | trailing d hends =>
    -- behind a whole expression an operand has ended and no parenthesis is open
    have hawaits : ¬ awaitsOperand d.word = true := by
      rw [awaitsOperand_eq_true_iff (d.after?_word 0)]
      rintro ⟨inner, hinner⟩
      cases hinner
    have hopen : openParens d.word = [] := d.foldl_openBehind []
    rw [SyntaxFault.behind, if_neg hawaits, hopen]
    rfl
  | inside h =>
    -- what is known about each cause, before the refusal is taken apart
    have hoperand := h.exists_operand
    have htrailing := h.cause_ne_trailing
    have hunclosed := (h.justified 0).unclosed
    obtain ⟨o, hout, -⟩ := (h.justified 0).stuck
    obtain ⟨cause, rest⟩ := r
    cases cause with
    | trailing => exact absurd rfl htrailing
    | operandExpected =>
      obtain ⟨inner, hinner⟩ := hoperand rfl 0
      have hawaits := (awaitsOperand_eq_true_iff hinner).2 ⟨inner, rfl⟩
      rw [SyntaxFault.behind, if_pos hawaits]
      rfl
    | unclosed opener =>
      obtain ⟨hopener, before, inner, rfl⟩ := hunclosed opener rfl
      -- behind the expression inside the group an operand has just ended
      have hawaits : ¬ awaitsOperand (before ++ opener :: inner.word) = true := by
        rw [awaitsOperand_eq_true_iff hout]
        rintro ⟨depth, rfl⟩
        rw [List.map_append, Outlook.after?_append, Option.bind_eq_some_iff] at hout
        obtain ⟨o', -, hout⟩ := hout
        rw [List.map_cons, hopener, Outlook.after?, Option.bind_eq_some_iff] at hout
        obtain ⟨o'', hnext, hout⟩ := hout
        cases o' with
        | operand n =>
          cases hnext
          rw [inner.after?_word] at hout
          cases hout
        | operator n => cases hnext
        | ended => cases hnext
      rw [SyntaxFault.behind, if_neg hawaits, openParens_opener hopener]
      rfl

/-! ### Faults -/

/-- **The tokens in front of a fault decide which fault it is.**  An operand is missing if and only
if they are none or end with a token that asks for one; otherwise, if and only if they have more
opening parentheses than closing ones, the innermost open one is not closed, and the fault is
located there; otherwise the token is left behind a whole expression.  In the first and in the last
case the fault is located at the token itself. -/
theorem parse_fault_by_prefix {front : List Token} {stop : Token}
    (hfront : ∀ t ∈ front, t.kind ≠ .finish) (hstop : stop.kind = .finish) {fault : SyntaxFault}
    {after : Cursor}
    (h : (Cursor.ofTokens (front ++ [stop])).parse = (.error (.fault fault), after)) :
    let read := (front ++ [stop]).take after.passed
    let opened := (read.map Token.kind).count .leftParen
    let closed := (read.map Token.kind).count .rightParen
    ∃ found, (front ++ [stop])[after.passed]? = some found ∧
      (fault = .unexpectedToken [.number, .leftParen] found ↔ awaitsOperand read = true) ∧
      ((∃ opener, fault = .unclosedParen opener found) ↔
        awaitsOperand read = false ∧ closed < opened) ∧
      (fault = .trailingInput found ↔ awaitsOperand read = false ∧ ¬ closed < opened) ∧
      (∀ opener, fault = .unclosedParen opener found →
        (openParens read).head? = some opener ∧ fault.location = opener.location) ∧
      ((∀ opener, fault ≠ .unclosedParen opener found) → fault.location = found.location) := by
  rw [Cursor.ofTokens_append hfront hstop] at h
  obtain ⟨r, read, rfl, hrefused, hfault, rfl⟩ := Cursor.exists_refused_of_parse h
  have hrest : ∀ t ∈ r.rest, t.kind ≠ .finish := fun t ht => hfront t (by simp [ht])
  obtain ⟨o, hout, -⟩ := (hrefused.justified hrest).stuck
  have hcount := count_leftParen_eq hout
  have htake : (read ++ r.rest ++ [stop]).take read.length = read := by
    rw [List.append_assoc, List.take_left]
  rw [hrefused.ofRefusal_eq stop] at hfault
  dsimp only
  rw [htake]
  refine ⟨r.rest.headD stop, getElem?_read .., ?_⟩
  -- more are opened than closed exactly if the stack is not empty
  have hopen : (read.map Token.kind).count .rightParen < (read.map Token.kind).count .leftParen ↔
      openParens read ≠ [] := by
    rw [← List.length_pos_iff]
    omega
  rw [hopen, hfault, SyntaxFault.behind]
  cases hawaits : awaitsOperand read with
  | true => simp [SyntaxFault.location]
  | false =>
    cases hstack : openParens read with
    | nil => simp [SyntaxFault.location]
    | cons opener outer => simp [SyntaxFault.location]

/-- In `(1*(2)3` the number at the end stands behind an operand, and the first parenthesis is the
only one that is open there. -/
theorem parse_fault_by_prefix_unclosed :
    let place (n : Nat) : Location := ⟨"<input>", 1, n + 1, n⟩
    let opener : Token := ⟨.leftParen, "(", none, place 0⟩
    let read : List Token := [opener, ⟨.number, "1", some .one, place 1⟩,
      ⟨.star, "*", none, place 2⟩, ⟨.leftParen, "(", none, place 3⟩,
      ⟨.number, "2", some .one, place 4⟩, ⟨.rightParen, ")", none, place 5⟩]
    let found : Token := ⟨.number, "3", some .one, place 6⟩
    ∃ fault after, (Cursor.ofTokens (read ++ [found] ++ [.finish (place 7)])).parse =
        (.error (.fault fault), after) ∧
      after.passed = 6 ∧ awaitsOperand read = false ∧ (openParens read).head? = some opener ∧
        fault.location = opener.location := by
  intro place opener read found
  have hparse : (Cursor.ofTokens (read ++ [found] ++ [.finish (place 7)])).parse =
      (.error (.fault (.unclosedParen opener found)),
        ⟨6, [found], .finish (place 7)⟩) := rfl
  obtain ⟨found', hfound, -, hunclosed, -, hinnermost, -⟩ :=
    parse_fault_by_prefix (by decide) rfl hparse
  obtain rfl : found = found' := Option.some.inj hfound
  have hawaits := (hunclosed.1 ⟨opener, rfl⟩).1
  obtain ⟨hhead, hlocation⟩ := hinnermost opener rfl
  exact ⟨_, _, hparse, rfl, hawaits, hhead, hlocation⟩

end Calculator
