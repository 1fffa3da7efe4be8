import Calculator.Proofs.Grammar.Refusing

/-!
# Walking along all tokens

The rules of `Calculator.Grammar.Parse` are given the tokens in front of the end of the text and
nothing else.  Here an expression is read once more, now by walking along the list of all tokens:
what is kept is only how many of them have been passed, a step looks up the token there, and the
place is kept also where the walk breaks off.  Beyond the list there is the end of the text.

A walk looks at no token behind the first end of the text.  Two lists that agree up to there are
therefore walked along in the same way, step by step.  That a walk reads what the rules read is
shown in `Calculator.Proofs.Grammar.Ends`.

## Main definitions

* `Walk` — steps along the tokens, each with a result and the place where it ends.
* `Walk.peek`, `Walk.advance`, `Walk.check` — looking at a token and passing it.
* `Walk.chain`, `Walk.level`, `Walk.group`, `Walk.primaryOver`, `Walk.unary` — the rules, walking.
* `walk` — reading one expression that is everything.
* `Walk.Coincide`, `Walk.Alike` — tokens that do not differ up to an end, and walks that do the same
  up to there.

## Main results

* `Walk.Alike.bind` — walks that do the same one after the other.
* `Walk.alike_chain` — a chain does the same with any number of turns that is enough.
* `Walk.alike_unary`, `Walk.alike_parse` — **reading does the same if the tokens do not differ up to
  an end**, and never goes past it.
-/

namespace Calculator

/-- Steps along a list of tokens: from a number of passed tokens on they have a result, or break
off, and end at a place. -/
def Walk (α : Type) := Nat → Except (Halt SyntaxFault) α × Nat

namespace Walk

variable {α β : Type}

instance : Monad Walk where
  pure a := fun place => (.ok a, place)
  bind w f := fun place =>
    match w place with
    | (.ok a, after) => f a after
    | (.error halt, after) => (.error halt, after)

/-- Breaks off where it stands. -/
def halt (reason : Halt SyntaxFault) : Walk α := fun place => (.error reason, place)

/-! ### The steps

`look` gives the token at a place. -/

section

variable (look : Nat → Token)

/-- Looks at the token here. -/
def peek : Walk Token := fun place => (.ok (look place), place)

/-- Passes the token here, unless the text ends with it. -/
def advance : Walk Token := fun place =>
  (.ok (look place), if (look place).kind = .finish then place else place + 1)

/-- Whether the token here has the given kind. -/
def check (kind : Token.Kind) : Walk Bool := do
  let t ← peek look
  return t.kind == kind

/-- Goes on after a left operand as long as an operator and another operand follow, at most for so
many turns. -/
def chain (precedence : Precedence) (operand : Walk Draft) : (turns : Nat) → Draft → Walk Draft
  | 0, left => return left
  | turns + 1, left => do
    let t ← peek look
    match precedence t.kind with
    | none => return left
    | some op =>
      let _ ← advance look
      let right ← operand
      chain precedence operand turns (.join op left right)

/-- Operands with operators of one precedence between them. -/
def level (turns : Nat) (precedence : Precedence) (operand : Walk Draft) : Walk Draft := do
  let left ← operand
  chain look precedence operand turns left

/-- An expression whose unaries are read by the given walk. -/
def expressionOver (turns : Nat) (unary : Walk Draft) : Walk Draft :=
  level look turns .additive (level look turns .multiplicative (level look turns .raising unary))

/-- A group from its opener on. -/
def group (expression : Walk Draft) : Walk Draft := do
  let opener ← advance look
  let e ← expression
  if ← check look .rightParen then
    let closer ← advance look
    return e.withSpan ⟨opener.location, closer.location⟩
  else
    let found ← peek look
    halt (.fault (.unclosedParen opener found))

/-- A number, or a group that is read by the given walk. -/
def primaryOver (group : Walk Draft) : Walk Draft := do
  let t ← peek look
  match t.kind with
  | .number =>
    let _ ← advance look
    return .literal t.value ⟨t.location, t.location⟩
  | .leftParen => group
  | _ => halt (.fault (.unexpectedToken [.number, .leftParen] t))

/-- A minus sign and its operand, which is read by the given walk. -/
def negation (operand : Walk Draft) : Walk Draft := do
  let sign ← advance look
  let e ← operand
  return .negate e ⟨sign.location, e.span.last⟩

/-- A minus sign and its operand, or a primary with the given walk for its groups. -/
def unaryOver (operand group : Walk Draft) : Walk Draft := do
  if ← check look .minus then negation look operand else primaryOver look group

/-- A unary, as far as `room` allows: a minus sign takes one of it and a group six. -/
def unary (turns : Nat) : (room : Nat) → Walk Draft
  | room + 6 =>
    unaryOver look (unary turns (room + 5))
      (group look (expressionOver look turns (unary turns room)))
  | room + 1 => unaryOver look (unary turns room) (halt .tooDeep)
  | 0 => unaryOver look (halt .tooDeep) (halt .tooDeep)

/-- One expression up to the end of the text. -/
def parse (turns : Nat) : Walk Draft := do
  let e ← expressionOver look turns (unary look turns allowance)
  if ← check look .finish then return e
  else
    let found ← peek look
    halt (.fault (.trailingInput found))

end

end Walk

/-- The token at a place of a list, or the end of the text beyond it. -/
def tokenAt (ts : List Token) (place : Nat) : Token := ts[place]?.getD (impliedEnd ts)

/-- The expression that some tokens are, and the place where reading them has ended. -/
def walk (ts : List Token) : Except (Halt SyntaxFault) Draft × Nat :=
  Walk.parse (tokenAt ts) ts.length 0

namespace Walk

variable {α β : Type}

theorem bind_of_ok {w : Walk α} {place after : Nat} {a : α} (h : w place = (.ok a, after))
    (f : α → Walk β) : (w >>= f) place = f a after := by
  show (match w place with
    | (.ok a, after) => f a after
    | (.error halt, after) => (.error halt, after)) = _
  rw [h]

theorem bind_of_error {w : Walk α} {place after : Nat} {reason : Halt SyntaxFault}
    (h : w place = (.error reason, after)) (f : α → Walk β) :
    (w >>= f) place = (.error reason, after) := by
  show (match w place with
    | (.ok a, after) => f a after
    | (.error halt, after) => (.error halt, after)) = _
  rw [h]

section

variable (look : Nat → Token) (turns : Nat)

theorem unary_zero : unary look turns 0 = unaryOver look (halt .tooDeep) (halt .tooDeep) := rfl

theorem unary_of_lt {room : Nat} (h : room < 5) :
    unary look turns (room + 1) = unaryOver look (unary look turns room) (halt .tooDeep) := by
  match room with
  | 0 | 1 | 2 | 3 | 4 => rfl
  | room + 5 => omega

theorem unary_add_six (room : Nat) :
    unary look turns (room + 6) =
      unaryOver look (unary look turns (room + 5))
        (group look (expressionOver look turns (unary look turns room))) := rfl

end

/-! ### Walks that do the same -/

/-- From every place up to the last one on, the walks do the same, and they end there or before. -/
def Alike (last : Nat) (w w' : Walk α) : Prop :=
  ∀ place, place ≤ last → w place = w' place ∧ place ≤ (w place).2 ∧ (w place).2 ≤ last

theorem Alike.bind {last : Nat} {w w' : Walk α} {f f' : α → Walk β} (h : Alike last w w')
    (hf : ∀ a, Alike last (f a) (f' a)) : Alike last (w >>= f) (w' >>= f') := by
  intro place hplace
  obtain ⟨heq, hle, hlast⟩ := h place hplace
  cases hw : w place with
  | mk result after =>
    rw [hw] at heq hle hlast
    cases result with
    | ok a =>
      obtain ⟨hnext, hle', hlast'⟩ := hf a after hlast
      rw [bind_of_ok hw, bind_of_ok heq.symm]
      exact ⟨hnext, Nat.le_trans hle hle', hlast'⟩
    | error reason =>
      rw [bind_of_error hw, bind_of_error heq.symm]
      exact ⟨rfl, hle, hlast⟩

theorem alike_pure (last : Nat) (a : α) : Alike last (pure a) (pure a) := by
  intro place hplace
  exact ⟨rfl, Nat.le_refl _, hplace⟩

theorem alike_halt (last : Nat) (reason : Halt SyntaxFault) :
    Alike last (halt reason : Walk α) (halt reason) := by
  intro place hplace
  exact ⟨rfl, Nat.le_refl _, hplace⟩

section

variable {look look' : Nat → Token} {last : Nat}

/-- Tokens that do not differ up to the last place, where the text ends. -/
structure Coincide (last : Nat) (look look' : Nat → Token) : Prop where
  look_eq : ∀ place, place ≤ last → look place = look' place
  kind_last : (look last).kind = .finish

theorem alike_peek (h : Coincide last look look') :
    Alike last (peek look) (peek look') := by
  intro place hplace
  exact ⟨by rw [peek, peek, h.look_eq place hplace], Nat.le_refl _, hplace⟩

theorem alike_advance (h : Coincide last look look') :
    Alike last (advance look) (advance look') := by
  intro place hplace
  refine ⟨by rw [advance, advance, h.look_eq place hplace], ?_⟩
  unfold advance
  split
  · exact ⟨Nat.le_refl _, hplace⟩
  · rename_i hkind
    -- the last place ends the text, so that this one comes before it
    have hne : place ≠ last := by
      rintro rfl
      exact hkind h.kind_last
    exact ⟨Nat.le_succ _, by omega⟩

theorem alike_check (h : Coincide last look look')
    (kind : Token.Kind) : Alike last (check look kind) (check look' kind) :=
  (alike_peek h).bind fun _ => alike_pure _ _

theorem alike_negation (h : Coincide last look look') {operand operand' : Walk Draft}
    (hop : Alike last operand operand') :
    Alike last (negation look operand) (negation look' operand') :=
  (alike_advance h).bind fun _ => hop.bind fun _ => alike_pure _ _

theorem alike_group (h : Coincide last look look') {expression expression' : Walk Draft}
    (hexp : Alike last expression expression') :
    Alike last (group look expression) (group look' expression') := by
  refine (alike_advance h).bind fun opener => hexp.bind fun e =>
    (alike_check h .rightParen).bind fun closed => ?_
  cases closed with
  | true => exact (alike_advance h).bind fun closer => alike_pure _ _
  | false => exact (alike_peek h).bind fun found => alike_halt _ _

theorem alike_primaryOver (h : Coincide last look look') {group group' : Walk Draft}
    (hgroup : Alike last group group') :
    Alike last (primaryOver look group) (primaryOver look' group') := by
  refine (alike_peek h).bind fun t => ?_
  obtain ⟨kind, lexeme, value, location⟩ := t
  cases kind with
  | number => exact (alike_advance h).bind fun _ => alike_pure _ _
  | leftParen => exact hgroup
  | finish | plus | minus | star | slash | caret | rightParen => exact alike_halt _ _

theorem alike_unaryOver (h : Coincide last look look') {operand operand' group group' : Walk Draft}
    (hop : Alike last operand operand') (hgroup : Alike last group group') :
    Alike last (unaryOver look operand group) (unaryOver look' operand' group') := by
  refine (alike_check h .minus).bind fun isMinus => ?_
  cases isMinus with
  | true => exact alike_negation h hop
  | false => exact alike_primaryOver h hgroup

end

/-! ### Chains -/

theorem precedence_finish (l : Level) : l.precedence .finish = none := by
  cases l <;> rfl

section

variable {look : Nat → Token} {operand : Walk Draft} {place : Nat}

theorem chain_of_none {precedence : Precedence} (h : precedence (look place).kind = none)
    (turns : Nat) (left : Draft) :
    chain look precedence operand turns left place = (.ok left, place) := by
  cases turns with
  | zero => rfl
  | succ turns =>
    have hpeek : peek look place = (.ok (look place), place) := rfl
    rw [chain, bind_of_ok hpeek, h]
    rfl

theorem chain_of_some {l : Level} {op : Operator}
    (h : l.precedence (look place).kind = some op) (turns : Nat) (left : Draft) :
    chain look l.precedence operand (turns + 1) left place =
      (operand >>= fun right => chain look l.precedence operand turns (.join op left right))
        (place + 1) := by
  -- an operator is no end, and is passed
  have hne : (look place).kind ≠ .finish := by
    intro hkind
    rw [hkind, precedence_finish] at h
    cases h
  have hpeek : peek look place = (.ok (look place), place) := rfl
  have hadvance : advance look place = (.ok (look place), place + 1) := by
    rw [advance, if_neg hne]
  rw [chain, bind_of_ok hpeek, h]
  exact bind_of_ok hadvance _

end

section

variable {look look' : Nat → Token} {last : Nat}

/-- A chain does the same as long as it has enough turns: each uses up the token of an operator. -/
theorem alike_chain (h : Coincide last look look') {l : Level} {operand operand' : Walk Draft}
    (hop : Alike last operand operand') {turns turns' place : Nat} (left : Draft)
    (hplace : place ≤ last) (hturns : last - place ≤ turns) (hturns' : last - place ≤ turns') :
    let found := chain look l.precedence operand turns left place
    found = chain look' l.precedence operand' turns' left place ∧ place ≤ found.2 ∧
      found.2 ≤ last := by
  -- on the turns of the first walk, with those of the second and the place general
  induction turns generalizing turns' left place with
  | zero =>
    -- turns run out only at the last place, where no operator stands
    have hend : place = last := by omega
    have hnone : l.precedence (look place).kind = none := by
      rw [hend, h.kind_last, precedence_finish]
    have hnone' : l.precedence (look' place).kind = none := by
      rw [← h.look_eq place hplace, hnone]
    rw [chain_of_none hnone, chain_of_none hnone']
    exact ⟨rfl, Nat.le_refl _, hplace⟩
  | succ turns ih =>
    cases hkind : l.precedence (look place).kind with
    | none =>
      have hnone' : l.precedence (look' place).kind = none := by
        rw [← h.look_eq place hplace, hkind]
      rw [chain_of_none hkind, chain_of_none hnone']
      exact ⟨rfl, Nat.le_refl _, hplace⟩
    | some op =>
      have hsome' : l.precedence (look' place).kind = some op := by
        rw [← h.look_eq place hplace, hkind]
      have hne : place ≠ last := by
        rintro rfl
        rw [h.kind_last, precedence_finish] at hkind
        cases hkind
      obtain ⟨turns', rfl⟩ : ∃ n, turns' = n + 1 := ⟨turns' - 1, by omega⟩
      rw [chain_of_some hkind, chain_of_some hsome']
      -- the operand behind the operator, and then the rest of the chain
      obtain ⟨heq, hle, hle'⟩ := hop (place + 1) (by omega)
      cases hread : operand (place + 1) with
      | mk result after =>
        rw [hread] at heq hle hle'
        dsimp only at hle hle'
        cases result with
        | error reason =>
          rw [bind_of_error hread, bind_of_error heq.symm]
          exact ⟨rfl, by dsimp only; omega, hle'⟩
        | ok right =>
          have hturns : last - after ≤ turns := by omega
          have hturns' : last - after ≤ turns' := by omega
          obtain ⟨hrest, hfrom, hto⟩ := ih (.join op left right) hle' hturns hturns'
          rw [bind_of_ok hread, bind_of_ok heq.symm]
          exact ⟨hrest, by omega, hto⟩

theorem alike_level (h : Coincide last look look') {l : Level} {operand operand' : Walk Draft}
    (hop : Alike last operand operand') {turns turns' : Nat} (hturns : last ≤ turns)
    (hturns' : last ≤ turns') :
    Alike last (level look turns l.precedence operand)
      (level look' turns' l.precedence operand') := by
  refine hop.bind fun left place hplace => ?_
  exact alike_chain h hop left hplace (by omega) (by omega)

theorem alike_expressionOver (h : Coincide last look look') {turns turns' : Nat}
    (hturns : last ≤ turns) (hturns' : last ≤ turns') {unary unary' : Walk Draft}
    (hunary : Alike last unary unary') :
    Alike last (expressionOver look turns unary) (expressionOver look' turns' unary') := by
  have hpower := alike_level (l := .raising) h hunary hturns hturns'
  have hterm := alike_level (l := .multiplicative) h hpower hturns hturns'
  exact alike_level (l := .additive) h hterm hturns hturns'

theorem alike_unary (h : Coincide last look look') {turns turns' : Nat} (hturns : last ≤ turns)
    (hturns' : last ≤ turns') (room : Nat) :
    Alike last (unary look turns room) (unary look' turns' room) := by
  -- a group goes down by six and a minus sign by one
  induction room using Nat.strongRecOn with
  | ind room ih =>
    rcases room with _ | room
    · rw [unary_zero, unary_zero]
      exact alike_unaryOver h (alike_halt _ _) (alike_halt _ _)
    · have hoperand := ih room (Nat.lt_succ_self room)
      rcases Nat.lt_or_ge room 5 with hlt | hge
      · rw [unary_of_lt look turns hlt, unary_of_lt look' turns' hlt]
        exact alike_unaryOver h hoperand (alike_halt _ _)
      · obtain ⟨room, rfl⟩ := Nat.exists_eq_add_of_le' hge
        rw [unary_add_six, unary_add_six]
        refine alike_unaryOver h hoperand (alike_group h ?_)
        exact alike_expressionOver h hturns hturns' (ih room (by omega))

/-- **Reading does the same if the tokens do not differ up to an end.** -/
theorem alike_parse (h : Coincide last look look') {turns turns' : Nat} (hturns : last ≤ turns)
    (hturns' : last ≤ turns') : Alike last (parse look turns) (parse look' turns') := by
  have hunary := alike_unary h hturns hturns' allowance
  refine (alike_expressionOver h hturns hturns' hunary).bind fun e =>
    (alike_check h .finish).bind fun ended => ?_
  cases ended with
  | true => exact alike_pure _ _
  | false => exact (alike_peek h).bind fun found => alike_halt _ _

end

end Walk

end Calculator
