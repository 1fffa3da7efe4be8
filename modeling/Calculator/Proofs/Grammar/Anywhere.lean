import Calculator.Proofs.Grammar.Ends
import Calculator.Proofs.Grammar.Progress
import Calculator.Proofs.Grammar.Viability

/-!
# Reading anywhere

Any phrase can be read by a walk along all tokens, from any place on.  It is read there as its rule
reads it, and so it takes its tokens or stands at the one that is refused.  At another place, or
along another list, a walk does the same if the same tokens are shown from there on: all that it
knows of its place is the token there.

## Main definitions

* `Walk.phrase` — reading any phrase.
* `Walk.Shifted` — a walk that does the same so many places further on.

## Main results

* `Walk.alike_phrase` — what is behind the end does not matter, nor does the number of turns.
* `Walk.follows_phrase`, `Walk.Gives.takes` — **a phrase is read as its rule reads it.**
* `Walk.shifted_phrase` — **a phrase is read alike wherever the same tokens follow.**
-/

namespace Calculator

/-! ### Phrases -/

namespace Walk

section

variable (look : Nat → Token) (turns : Nat)

/-- A group from its opener on, whatever that is: it takes six of the allowance. -/
def grouping : Walk Draft :=
  group look (expressionOver look turns (unary look turns (allowance - 6)))

/-- Reads a phrase. -/
def phrase : Phrase → Walk Draft
  | .whole => parse look turns
  | .expression => expressionOver look turns (unary look turns allowance)
  | .term =>
    level look turns .multiplicative (level look turns .raising (unary look turns allowance))
  | .power => level look turns .raising (unary look turns allowance)
  | .unary => unary look turns allowance
  | .primary => primaryOver look (grouping look turns)
  | .grouping => grouping look turns

end

theorem alike_phrase {look look' : Nat → Token} {last : Nat} (h : Coincide last look look')
    {turns turns' : Nat} (hturns : last ≤ turns) (hturns' : last ≤ turns') (p : Phrase) :
    Alike last (phrase look turns p) (phrase look' turns' p) := by
  have hunary := alike_unary h hturns hturns' allowance
  have hpower := alike_level (l := .raising) h hunary hturns hturns'
  have hgroup : Alike last (grouping look turns) (grouping look' turns') :=
    alike_group h (alike_expressionOver h hturns hturns' (alike_unary h hturns hturns' _))
  cases p with
  | whole => exact alike_parse h hturns hturns'
  | expression => exact alike_expressionOver h hturns hturns' hunary
  | term => exact alike_level (l := .multiplicative) h hpower hturns hturns'
  | power => exact hpower
  | unary => exact hunary
  | primary => exact alike_primaryOver h hgroup
  | grouping => exact hgroup

section

variable {look : Nat → Token} {front : List Token} {stop : Token}

theorem gives_grouping (hshow : Shows look front stop) {turns : Nat}
    (hturns : front.length ≤ turns) {opener : Token} {ts : List Token}
    (hts : opener :: ts <:+ front) :
    Gives front.length stop (opener :: ts) (groupWithin allowance opener ts)
      (grouping look turns (front.length - (opener :: ts).length)) :=
  gives_group hshow (follows_expressionOver hshow hturns (follows_unary hshow hturns _)) hts

/-- A group is read from any token on, and from the end of the text. -/
theorem follows_grouping (hshow : Shows look front stop) {turns : Nat}
    (hturns : front.length ≤ turns) :
    Follows front stop (grouping look turns) (Calculator.grouping allowance) := by
  intro ts hts
  cases ts with
  | cons opener ts => exact gives_grouping hshow hturns hts
  | nil =>
    -- the end of the text is not passed, and no expression begins there
    have hadvance : advance look (front.length - ([] : List Token).length) =
        (.ok stop, front.length - ([] : List Token).length) := by
      rw [advance, hshow.look_eq [] hts, List.headD_nil, if_pos hshow.kind_stop]
    have hexp := follows_expressionOver hshow hturns (follows_unary hshow hturns (allowance - 6))
      [] hts
    rw [← expression, expression_nil] at hexp
    rw [Calculator.grouping, expression_nil, grouping, group, bind_of_ok hadvance]
    exact bind_of_error hexp _

/-- **A phrase is read as its rule reads it.** -/
theorem follows_phrase (hshow : Shows look front stop) {turns : Nat}
    (hturns : front.length ≤ turns) (p : Phrase) :
    Follows front stop (phrase look turns p) p.rule := by
  have hunary := follows_unary hshow hturns allowance
  have hpower := follows_level (l := .raising) hshow hunary hturns
  cases p with
  | whole => exact follows_parse hshow hturns
  | expression => exact follows_expressionOver hshow hturns hunary
  | term => exact follows_level (l := .multiplicative) hshow hpower hturns
  | power => exact hpower
  | unary => exact hunary
  | primary => exact follows_primaryOver hshow fun _ _ => gives_grouping hshow hturns
  | grouping => exact follows_grouping hshow hturns

/-- A walk that reads what a rule does has passed what the rule takes, or stands at the token that
its fault tells of. -/
theorem Gives.takes (hshow : Shows look front stop) {ts : List Token} (hts : ts <:+ front)
    {result : Reading} {found : Except (Halt SyntaxFault) Draft × Nat}
    (h : Gives front.length stop ts result found) {least : Nat}
    (htakes : Rule.Takes least ts result) :
    (∀ e, found.1 = .ok e → front.length - ts.length + least ≤ found.2) ∧
      (∀ fault, found.1 = .error (.fault fault) → look found.2 = fault.found) := by
  cases htakes with
  | @read read rest e hread hleast =>
    rw [h.2]
    refine ⟨fun _ _ => ?_, by simp⟩
    -- a place is told by what is left there, and that is shorter by what was read
    have hle := hts.length_le
    rw [hread, List.length_append] at hle ⊢
    dsimp only
    omega
  | @refused read r hread =>
    have hfound : found = (.error (.fault (.ofRefusal stop r)), front.length - r.rest.length) := h
    rw [hfound]
    refine ⟨by simp, fun fault hfault => ?_⟩
    -- the refused token is the first of those that are left
    obtain rfl := Halt.fault.inj (Except.error.inj hfault)
    rw [SyntaxFault.found_ofRefusal]
    exact hshow.look_eq r.rest (List.IsSuffix.trans ⟨read, hread.symm⟩ hts)
  | tooDeep =>
    have hfound : found.1 = .error .tooDeep := h
    rw [hfound]
    exact ⟨by simp, by simp⟩

end

end Walk

/-! ### Walks at other places -/

namespace Walk

variable {α β : Type} {k : Nat}

/-- The second walk does, so many places further on, what the first one does. -/
def Shifted (k : Nat) (w w' : Walk α) : Prop :=
  ∀ place, w' (place + k) = ((w place).1, (w place).2 + k)

theorem Shifted.bind {w w' : Walk α} {f f' : α → Walk β} (h : Shifted k w w')
    (hf : ∀ a, Shifted k (f a) (f' a)) : Shifted k (w >>= f) (w' >>= f') := by
  intro place
  have heq := h place
  cases hw : w place with
  | mk result after =>
    rw [hw] at heq
    cases result with
    | ok a =>
      rw [bind_of_ok hw, bind_of_ok heq]
      exact hf a after
    | error reason => rw [bind_of_error hw, bind_of_error heq]

theorem shifted_pure (k : Nat) (a : α) : Shifted k (pure a) (pure a) := fun _ => rfl

theorem shifted_halt (k : Nat) (reason : Halt SyntaxFault) :
    Shifted k (halt reason : Walk α) (halt reason) := fun _ => rfl

section

variable {look look' : Nat → Token} (hlook : ∀ place, look' (place + k) = look place)

include hlook

theorem shifted_peek : Shifted k (peek look) (peek look') := by
  intro place
  rw [peek, peek, hlook]

theorem shifted_advance : Shifted k (advance look) (advance look') := by
  intro place
  rw [advance, advance, hlook]
  by_cases hend : (look place).kind = .finish
  · rw [if_pos hend, if_pos hend]
  · rw [if_neg hend, if_neg hend, Nat.add_right_comm]

theorem shifted_check (kind : Token.Kind) : Shifted k (check look kind) (check look' kind) :=
  (shifted_peek hlook).bind fun _ => shifted_pure k _

theorem shifted_chain (precedence : Precedence) {operand operand' : Walk Draft}
    (hop : Shifted k operand operand') (turns : Nat) (left : Draft) :
    Shifted k (chain look precedence operand turns left)
      (chain look' precedence operand' turns left) := by
  induction turns generalizing left with
  | zero => exact shifted_pure k left
  | succ turns ih =>
    refine (shifted_peek hlook).bind fun t => ?_
    cases precedence t.kind with
    | none => exact shifted_pure k left
    | some op => exact (shifted_advance hlook).bind fun _ => hop.bind fun right => ih _

theorem shifted_level (turns : Nat) (precedence : Precedence) {operand operand' : Walk Draft}
    (hop : Shifted k operand operand') :
    Shifted k (level look turns precedence operand) (level look' turns precedence operand') :=
  hop.bind fun left => shifted_chain hlook precedence hop turns left

theorem shifted_expressionOver (turns : Nat) {unary unary' : Walk Draft}
    (hunary : Shifted k unary unary') :
    Shifted k (expressionOver look turns unary) (expressionOver look' turns unary') :=
  shifted_level hlook turns _ (shifted_level hlook turns _ (shifted_level hlook turns _ hunary))

theorem shifted_group {expression expression' : Walk Draft}
    (hexp : Shifted k expression expression') :
    Shifted k (group look expression) (group look' expression') := by
  refine (shifted_advance hlook).bind fun opener => hexp.bind fun e =>
    (shifted_check hlook .rightParen).bind fun closed => ?_
  cases closed with
  | true => exact (shifted_advance hlook).bind fun closer => shifted_pure k _
  | false => exact (shifted_peek hlook).bind fun found => shifted_halt k _

theorem shifted_primaryOver {group group' : Walk Draft} (hgroup : Shifted k group group') :
    Shifted k (primaryOver look group) (primaryOver look' group') := by
  refine (shifted_peek hlook).bind fun t => ?_
  obtain ⟨kind, lexeme, value, location⟩ := t
  cases kind with
  | number => exact (shifted_advance hlook).bind fun _ => shifted_pure k _
  | leftParen => exact hgroup
  | finish | plus | minus | star | slash | caret | rightParen => exact shifted_halt k _

theorem shifted_unaryOver {operand operand' group group' : Walk Draft}
    (hop : Shifted k operand operand') (hgroup : Shifted k group group') :
    Shifted k (unaryOver look operand group) (unaryOver look' operand' group') := by
  refine (shifted_check hlook .minus).bind fun isMinus => ?_
  cases isMinus with
  | true => exact (shifted_advance hlook).bind fun sign => hop.bind fun e => shifted_pure k _
  | false => exact shifted_primaryOver hlook hgroup

theorem shifted_unary (turns room : Nat) :
    Shifted k (unary look turns room) (unary look' turns room) := by
  -- a group goes down by six and a minus sign by one
  induction room using Nat.strongRecOn with
  | ind room ih =>
    rcases room with _ | room
    · rw [unary_zero, unary_zero]
      exact shifted_unaryOver hlook (shifted_halt k _) (shifted_halt k _)
    · have hoperand := ih room (Nat.lt_succ_self room)
      rcases Nat.lt_or_ge room 5 with hlt | hge
      · rw [unary_of_lt look turns hlt, unary_of_lt look' turns hlt]
        exact shifted_unaryOver hlook hoperand (shifted_halt k _)
      · obtain ⟨room, rfl⟩ := Nat.exists_eq_add_of_le' hge
        rw [unary_add_six, unary_add_six]
        exact shifted_unaryOver hlook hoperand
          (shifted_group hlook (shifted_expressionOver hlook turns (ih room (by omega))))

/-- **A phrase is read alike wherever the same tokens follow.** -/
theorem shifted_phrase (turns : Nat) (p : Phrase) :
    Shifted k (phrase look turns p) (phrase look' turns p) := by
  have hunary := shifted_unary hlook turns allowance
  have hpower := shifted_level hlook turns .raising hunary
  have hexp := shifted_expressionOver hlook turns hunary
  have hgroup : Shifted k (grouping look turns) (grouping look' turns) :=
    shifted_group hlook (shifted_expressionOver hlook turns (shifted_unary hlook turns _))
  cases p with
  | whole =>
    refine hexp.bind fun e => (shifted_check hlook .finish).bind fun ended => ?_
    cases ended with
    | true => exact shifted_pure k e
    | false => exact (shifted_peek hlook).bind fun found => shifted_halt k _
  | expression => exact hexp
  | term => exact shifted_level hlook turns .multiplicative hpower
  | power => exact hpower
  | unary => exact hunary
  | primary => exact shifted_primaryOver hlook hgroup
  | grouping => exact hgroup

end

end Walk

end Calculator
