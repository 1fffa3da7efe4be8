import Calculator.Proofs.Grammar.Refusing

/-!
# How deep reading goes

Behind some tokens, those minus signs are open whose operands are not complete, and those
parentheses that are not closed.  Reading pays one of the allowance for each of the signs and six
for each of the parentheses, for as long as they are open, and nothing for anything else: however
many operands stand side by side, reading them goes no deeper than reading one.  So reading goes too
deep exactly if at some token more is open than the allowance pays for.

## Main definitions

* `Opener`, `price` — what can be open, and what reading pays for it.
* `openerCount` — the number of tokens that can open something.
* `Pending`, `Pending.next?`, `Pending.after?` — what is open behind some tokens, one by one.
* `Pending.peak` — the most that reading pays at any of some tokens.
* `Rule.Measured` — what the result of a rule says about the peak.

## Main results

* `Pending.peak_append`, `Pending.peak_le_iff` — the peak as a maximum.
* `Pending.length_opened_le` — what is open has been opened by a sign or a parenthesis.
* `measured_level`, `measured_group`, `measured_unary` — the result of every rule tells the peak.
* `parse_eq_tooDeep_iff` — **reading goes too deep exactly if the peak is above the allowance.**
-/

namespace Calculator

/-! ### What is open -/

/-- What can be open in a text. -/
inductive Opener
  /-- A minus sign whose operand is not complete. -/
  | sign
  /-- A parenthesis that is not closed. -/
  | paren
  deriving DecidableEq, Repr

/-- Whether a token of the kind can open something. -/
def Token.Kind.opens : Kind → Bool
  | .minus | .leftParen => true
  | _ => false

/-- The number of tokens among some that can open something. -/
def openerCount (tokens : List Token) : Nat := tokens.countP fun t => t.kind.opens

/-- What reading pays for what is open. -/
def price : List Opener → Nat
  | [] => 0
  | .sign :: opened => price opened + 1
  | .paren :: opened => price opened + 6

/-- What is still open when an operand ends: the signs right in front of it have got theirs. -/
def settle : List Opener → List Opener
  | .sign :: opened => settle opened
  | opened => opened

theorem price_settle_le (opened : List Opener) : price (settle opened) ≤ price opened := by
  induction opened with
  | nil => exact Nat.le_refl _
  | cons o opened ih =>
    cases o with
    | sign => exact Nat.le_succ_of_le ih
    | paren => exact Nat.le_refl _

theorem length_settle_le (opened : List Opener) : (settle opened).length ≤ opened.length := by
  induction opened with
  | nil => exact Nat.le_refl _
  | cons o opened ih =>
    cases o with
    | sign => exact Nat.le_succ_of_le ih
    | paren => exact Nat.le_refl _

theorem price_le (opened : List Opener) : price opened ≤ 6 * opened.length := by
  induction opened with
  | nil => exact Nat.le_refl _
  | cons o opened ih =>
    rw [List.length_cons]
    cases o with
    | sign => rw [price]; omega
    | paren => rw [price]; omega

/-- What may follow some tokens, and what is open behind them, from the innermost on. -/
inductive Pending
  /-- An operand has to follow. -/
  | operand (opened : List Opener)
  /-- An operand has just ended. -/
  | operator (opened : List Opener)
  deriving DecidableEq, Repr

namespace Pending

/-- Nothing has been read. -/
def start : Pending := operand []

/-- What is open. -/
def opened : Pending → List Opener
  | operand opened => opened
  | operator opened => opened

/-- What is open behind an operand and a closing parenthesis, if there is one to be closed. -/
def close? : List Opener → Option Pending
  | .paren :: opened => some (operator (settle opened))
  | _ => none

/-- What is open behind one more token, if a token of that kind may follow. -/
def next? : Pending → Token.Kind → Option Pending
  | operand opened, .number => some (operator (settle opened))
  | operand opened, .minus => some (operand (.sign :: opened))
  | operand opened, .leftParen => some (operand (.paren :: opened))
  | operator opened, .rightParen => close? opened
  | operator opened, .plus => some (operand opened)
  | operator opened, .minus => some (operand opened)
  | operator opened, .star => some (operand opened)
  | operator opened, .slash => some (operand opened)
  | operator opened, .caret => some (operand opened)
  | _, _ => none

/-- What is open behind more tokens, if they may follow. -/
def after? : Pending → List Token → Option Pending
  | p, [] => some p
  | p, t :: ts => (p.next? t.kind).bind fun p' => p'.after? ts

/-- The most that reading pays at any of some tokens, up to the first that may not follow. -/
def peak : Pending → List Token → Nat
  | p, [] => price p.opened
  | p, t :: ts => max (price p.opened) (((p.next? t.kind).map fun p' => p'.peak ts).getD 0)

variable {p p' : Pending} {t : Token} {ts : List Token}

@[simp] theorem after?_nil (p : Pending) : p.after? [] = some p := rfl

theorem after?_cons (h : p.next? t.kind = some p') (ts : List Token) :
    p.after? (t :: ts) = p'.after? ts := by
  rw [after?, h, Option.bind_some]

theorem after?_append (h : p.after? ts = some p') (more : List Token) :
    p.after? (ts ++ more) = p'.after? more := by
  induction ts generalizing p with
  | nil =>
    obtain rfl := Option.some.inj h
    rfl
  | cons t ts ih =>
    obtain ⟨q, hq, hrest⟩ := Option.bind_eq_some_iff.1 h
    rw [List.cons_append, after?_cons hq, ih hrest]

@[simp] theorem peak_nil (p : Pending) : p.peak [] = price p.opened := rfl

theorem peak_cons (h : p.next? t.kind = some p') (ts : List Token) :
    p.peak (t :: ts) = max (price p.opened) (p'.peak ts) := by
  rw [peak, h, Option.map_some, Option.getD_some]

theorem peak_of_next?_eq_none (h : p.next? t.kind = none) (ts : List Token) :
    p.peak (t :: ts) = price p.opened := by
  rw [peak, h, Option.map_none, Option.getD_none, Nat.max_zero]

theorem price_le_peak (p : Pending) (ts : List Token) : price p.opened ≤ p.peak ts := by
  cases ts with
  | nil => exact Nat.le_refl _
  | cons t ts => exact Nat.le_max_left ..

theorem peak_append (h : p.after? ts = some p') (more : List Token) :
    p.peak (ts ++ more) = max (p.peak ts) (p'.peak more) := by
  induction ts generalizing p with
  | nil =>
    obtain rfl := Option.some.inj h
    exact (Nat.max_eq_right (price_le_peak p more)).symm
  | cons t ts ih =>
    obtain ⟨q, hq, hrest⟩ := Option.bind_eq_some_iff.1 h
    rw [List.cons_append, peak_cons hq, peak_cons hq, ih hrest, Nat.max_assoc]

/-- The peak is below a bound if and only if at every token the price of what is open is. -/
theorem peak_le_iff {bound : Nat} :
    p.peak ts ≤ bound ↔
      ∀ n p', p.after? (ts.take n) = some p' → price p'.opened ≤ bound := by
  induction ts generalizing p with
  | nil =>
    rw [peak_nil]
    constructor
    · intro h n p' hp'
      rw [List.take_nil] at hp'
      obtain rfl := Option.some.inj hp'
      exact h
    · intro h
      exact h 0 p rfl
  | cons t ts ih =>
    cases hnext : p.next? t.kind with
    | none =>
      -- behind a token that may not follow there is nothing to look at
      rw [peak_of_next?_eq_none hnext]
      constructor
      · intro h n p' hp'
        cases n with
        | zero =>
          obtain rfl := Option.some.inj hp'
          exact h
        | succ n =>
          rw [List.take_succ_cons, after?, hnext] at hp'
          cases hp'
      · intro h
        exact h 0 p rfl
    | some q =>
      rw [peak_cons hnext, Nat.max_le, ih]
      constructor
      · rintro ⟨hhere, hlater⟩ n p' hp'
        cases n with
        | zero =>
          obtain rfl := Option.some.inj hp'
          exact hhere
        | succ n =>
          rw [List.take_succ_cons, after?_cons hnext] at hp'
          exact hlater n p' hp'
      · intro h
        refine ⟨h 0 p rfl, ?_⟩
        intro n p' hp'
        refine h (n + 1) p' ?_
        rw [List.take_succ_cons, after?_cons hnext, hp']

theorem length_opened_of_next? {kind : Token.Kind} (h : p.next? kind = some p') :
    p'.opened.length ≤ p.opened.length + if kind.opens then 1 else 0 := by
  cases p with
  | operand opened =>
    -- a number settles the signs in front of it, the other two open something
    have hsettle := length_settle_le opened
    cases kind <;> cases h <;> simp [Pending.opened, Token.Kind.opens, hsettle]
  | operator opened =>
    cases kind with
    | rightParen =>
      rcases opened with _ | ⟨_ | _, opened⟩ <;> cases h
      have hsettle := length_settle_le opened
      simp only [Pending.opened, List.length_cons]
      omega
    | plus | minus | star | slash | caret => cases h; exact Nat.le_add_right ..
    | finish | number | leftParen => cases h

/-- No more is open than has been opened. -/
theorem length_opened_le (h : p.after? ts = some p') :
    p'.opened.length ≤ p.opened.length + openerCount ts := by
  induction ts generalizing p with
  | nil =>
    obtain rfl := Option.some.inj h
    exact Nat.le_refl _
  | cons t ts ih =>
    obtain ⟨q, hq, hrest⟩ := Option.bind_eq_some_iff.1 h
    have hstep := length_opened_of_next? hq
    have hlater := ih hrest
    rw [openerCount, List.countP_cons]
    exact Nat.le_trans hlater (by rw [openerCount]; omega)

theorem next?_operator {l : Level} {kind : Token.Kind} {op : Operator}
    (h : l.precedence kind = some op) (opened : List Opener) :
    (operator opened).next? kind = some (operand opened) := by
  cases l <;> cases kind <;> first | rfl | cases h

/-- Where an expression ends, only a closing parenthesis may follow, if one is open. -/
theorem next?_operator_eq_none {kind : Token.Kind} (hends : Category.expression.goesOn kind = false)
    {opened : List Opener} (h : kind = .rightParen → opened = []) :
    (operator opened).next? kind = none := by
  cases kind with
  | rightParen =>
    rw [h rfl]
    rfl
  | finish | number | leftParen => rfl
  | plus | minus | star | slash | caret => cases hends

end Pending

/-! ### The rules -/

/-- What the result of a rule says about the peak of the tokens that it was given, if so much is
open in front of them.  If it succeeds, an operand ends behind what it has read. -/
inductive Rule.Measured (opened : List Opener) (room : Nat) (ts : List Token) : Reading → Prop
  /-- There was room for what was read. -/
  | read {read rest : List Token} {e : Draft} (hts : ts = read ++ rest)
      (hafter : (Pending.operand opened).after? read = some (.operator (settle opened)))
      (hpeak : (Pending.operand opened).peak read ≤ price opened + room) :
      Measured opened room ts (.ok (e, rest))
  /-- There was room for everything up to the token that was refused. -/
  | refused {r : Refusal} (hpeak : (Pending.operand opened).peak ts ≤ price opened + room) :
      Measured opened room ts (.error (.fault r))
  /-- There was too little room. -/
  | tooDeep (hpeak : price opened + room < (Pending.operand opened).peak ts) :
      Measured opened room ts (.error .tooDeep)

open Pending Rule

section Levels

variable {opened : List Opener} {room : Nat} {l : Level} {operand : Rule}

/-- Where no sign is open, a rule may end behind an operand. -/
theorem Rule.Measured.stop (hsettled : settle opened = opened) {read rest : List Token} {e : Draft}
    (hafter : (Pending.operand opened).after? read = some (.operator opened))
    (hpeak : (Pending.operand opened).peak read ≤ price opened + room) :
    Measured opened room (read ++ rest) (.ok (e, rest)) :=
  .read rfl (by rw [hsettled, hafter]) hpeak

/-- Going on behind the operands that have been read so far. -/
theorem measured_chain (hsettled : settle opened = opened)
    (hoperand : ∀ ts, Measured opened room ts (operand ts)) {bound front ts : List Token}
    {left : Draft} (hafter : (Pending.operand opened).after? front = some (.operator opened))
    (hpeak : (Pending.operand opened).peak front ≤ price opened + room) :
    Measured opened room (front ++ ts) (chain l.precedence operand bound left ts) := by
  induction bound generalizing front ts left with
  | nil => exact .stop hsettled hafter hpeak
  | cons _ bound ih =>
    rw [chain]
    split
    · exact .stop hsettled hafter hpeak
    · rename_i op afterOp hop
      obtain ⟨sign, rfl, hsign⟩ := operator?_eq_some_iff.1 hop
      have hnext := next?_operator hsign opened
      have hgo : (Pending.operand opened).peak (front ++ sign :: afterOp) =
          max ((Pending.operand opened).peak front)
            (max (price opened) ((Pending.operand opened).peak afterOp)) := by
        rw [peak_append hafter, peak_cons hnext]
        rfl
      have hresult := hoperand afterOp
      generalize operand afterOp = result at hresult
      cases hresult with
      | refused hright => exact .refused (by omega)
      | tooDeep hright => exact .tooDeep (by omega)
      | @read read rest right hts hreadAfter hreadPeak =>
        -- the operator and its operand are read as well, and nothing new is open behind them
        have hafter' : (Pending.operand opened).after? (front ++ sign :: read) =
            some (.operator opened) := by
          rw [after?_append hafter, after?_cons hnext, hreadAfter, hsettled]
        have hpeak' : (Pending.operand opened).peak (front ++ sign :: read) ≤
            price opened + room := by
          rw [peak_append hafter, peak_cons hnext]
          exact Nat.max_le.2 ⟨hpeak, Nat.max_le.2 ⟨Nat.le_add_right .., hreadPeak⟩⟩
        rw [hts, show front ++ sign :: (read ++ rest) = (front ++ sign :: read) ++ rest by simp]
        exact ih hafter' hpeak'

/-- Operands side by side go no deeper than each of them. -/
theorem measured_level (hsettled : settle opened = opened)
    (hoperand : ∀ ts, Measured opened room ts (operand ts)) (ts : List Token) :
    Measured opened room ts (level l.precedence operand ts) := by
  have hresult := hoperand ts
  rw [level]
  generalize operand ts = result at hresult
  cases hresult with
  | refused hpeak => exact .refused hpeak
  | tooDeep hpeak => exact .tooDeep hpeak
  | read hts hafter hpeak =>
    -- the first operand is the front of the chain
    rw [hts]
    exact measured_chain hsettled hoperand (by rw [hafter, hsettled]) hpeak

theorem measured_expressionOver {unary : Rule} (hsettled : settle opened = opened)
    (hunary : ∀ ts, Measured opened room ts (unary ts)) (ts : List Token) :
    Measured opened room ts (expressionOver unary ts) :=
  measured_level (l := .additive) hsettled
    (measured_level (l := .multiplicative) hsettled
      (measured_level (l := .raising) hsettled hunary)) ts

end Levels

section Groups

variable {opened : List Opener} {room : Nat} {opener : Token}

theorem peak_opener (hopener : opener.kind = .leftParen) (ts : List Token) :
    (Pending.operand opened).peak (opener :: ts) =
      max (price opened) ((Pending.operand (.paren :: opened)).peak ts) :=
  peak_cons (by rw [hopener]; rfl) ts

theorem next?_closer {closer : Token} (hcloser : closer.kind = .rightParen) :
    (Pending.operator (.paren :: opened)).next? closer.kind = some (.operator (settle opened)) := by
  rw [hcloser]
  rfl

/-- An expression in parentheses is an operand. -/
theorem after?_group (hopener : opener.kind = .leftParen) {closer : Token}
    (hcloser : closer.kind = .rightParen) {read : List Token}
    (hafter : (Pending.operand (.paren :: opened)).after? read =
      some (.operator (.paren :: opened))) :
    (Pending.operand opened).after? (opener :: (read ++ [closer])) =
      some (.operator (settle opened)) := by
  have hopen : (Pending.operand opened).next? opener.kind = some (.operand (.paren :: opened)) := by
    rw [hopener]
    rfl
  rw [after?_cons hopen, after?_append hafter, after?_cons (next?_closer hcloser), after?_nil]

theorem peak_closer {closer : Token} (hcloser : closer.kind = .rightParen) :
    (Pending.operator (.paren :: opened)).peak [closer] = price (.paren :: opened) := by
  have hle := price_settle_le opened
  rw [peak_cons (next?_closer hcloser), peak_nil]
  show max (price (.paren :: opened)) (price (settle opened)) = _
  rw [price]
  omega

/-- A group pays for its parenthesis until it is closed. -/
theorem measured_group {expression : Rule} (hstops : expression.Stops .expression)
    (hexp : ∀ ts, Measured (.paren :: opened) room ts (expression ts))
    (hopener : opener.kind = .leftParen) (ts : List Token) :
    Measured opened (room + 6) (opener :: ts) (group expression opener ts) := by
  have hopened : price (.paren :: opened) = price opened + 6 := rfl
  have hresult := hexp ts
  rw [group]
  cases hread : expression ts with
  | error halt =>
    rw [hread] at hresult
    cases hresult with
    | refused hpeak => exact .refused (by rw [peak_opener hopener]; omega)
    | tooDeep hpeak => exact .tooDeep (by rw [peak_opener hopener]; omega)
  | ok reading =>
    obtain ⟨e, rest⟩ := reading
    have hends := hstops hread
    rw [hread] at hresult
    cases hresult with
    | @read read _ _ hts hafter hpeak =>
      subst hts
      have hrefused (h : (Pending.operator (.paren :: opened)).peak rest =
          price (.paren :: opened)) {r : Refusal} :
          Measured opened (room + 6) (opener :: (read ++ rest)) (.error (.fault r)) := by
        refine .refused ?_
        rw [peak_opener hopener, peak_append hafter]
        show max _ (max _ ((Pending.operator (.paren :: opened)).peak rest)) ≤ _
        omega
      cases rest with
      | nil => exact hrefused (peak_nil _)
      | cons closer rest =>
        show Measured opened (room + 6) _ (if closer.kind = .rightParen then _ else _)
        by_cases hcloser : closer.kind = .rightParen
        · rw [if_pos hcloser]
          refine .read (by simp) (after?_group hopener hcloser hafter) ?_
          rw [peak_opener hopener, peak_append hafter]
          show max _ (max _ ((Pending.operator (.paren :: opened)).peak [closer])) ≤ _
          rw [peak_closer hcloser]
          omega
        · -- behind an expression in a group only the closing parenthesis may follow
          have hnone : (Pending.operator (.paren :: opened)).next? closer.kind = none :=
            next?_operator_eq_none ((Category.ends_cons ..).1 hends) fun h => absurd h hcloser
          rw [if_neg hcloser]
          exact hrefused (peak_of_next?_eq_none hnone rest)

/-- A primary is a number, or what its groups make of it. -/
theorem measured_primaryOver {group : Token → Rule} {ts : List Token}
    (hminus : ∀ t ∈ ts.head?, t.kind ≠ .minus)
    (hgroup : ∀ t rest, ts = t :: rest → t.kind = .leftParen →
      Measured opened room ts (group t rest)) :
    Measured opened room ts (primaryOver group ts) := by
  cases ts with
  | nil => exact .refused (Nat.le_add_right ..)
  | cons t ts =>
    rw [primaryOver]
    split
    · rename_i hnumber
      have hnext : (Pending.operand opened).next? t.kind = some (.operator (settle opened)) := by
        rw [hnumber]
        rfl
      have hsettle := price_settle_le opened
      refine .read (List.singleton_append.symm) (after?_cons hnext []) ?_
      rw [peak_cons hnext, peak_nil]
      show max (price opened) (price (settle opened)) ≤ _
      omega
    · rename_i hparen
      exact hgroup t ts rfl hparen
    · rename_i hnumber hparen
      have hnone : (Pending.operand opened).next? t.kind = none := by
        have hne := hminus t rfl
        generalize t.kind = kind at hnumber hparen hne
        cases kind <;> first | rfl | contradiction
      refine .refused ?_
      rw [peak_of_next?_eq_none hnone]
      exact Nat.le_add_right ..

end Groups

section Signs

variable {opened : List Opener} {room : Nat} {sign : Token}

theorem peak_sign (hsign : sign.kind = .minus) (ts : List Token) :
    (Pending.operand opened).peak (sign :: ts) =
      max (price opened) ((Pending.operand (.sign :: opened)).peak ts) :=
  peak_cons (by rw [hsign]; rfl) ts

theorem measured_negation (hsign : sign.kind = .minus) {ts : List Token} {result : Reading}
    (h : Measured (.sign :: opened) room ts result) :
    Measured opened (room + 1) (sign :: ts) (result.map (negated sign)) := by
  have hprice : price (.sign :: opened) = price opened + 1 := rfl
  cases h with
  | refused hpeak => exact .refused (by rw [peak_sign hsign]; omega)
  | tooDeep hpeak => exact .tooDeep (by rw [peak_sign hsign]; omega)
  | @read read rest e hts hafter hpeak =>
    have hnext : (Pending.operand opened).next? sign.kind = some (.operand (.sign :: opened)) := by
      rw [hsign]
      rfl
    refine .read (show sign :: ts = (sign :: read) ++ rest by rw [hts, List.cons_append]) ?_ ?_
    · rw [after?_cons hnext, hafter]
      rfl
    · rw [peak_sign hsign]
      omega

end Signs

/-- **The result of reading a unary tells the peak**, whatever is open in front of it. -/
theorem measured_unary (room : Nat) (opened : List Opener) (ts : List Token) :
    Measured opened room ts (unary room ts) := by
  -- a group goes down by six and a minus sign by one
  induction room using Nat.strongRecOn generalizing opened ts with
  | ind room ih =>
    cases ts with
    | nil =>
      rw [unary]
      exact .refused (Nat.le_add_right ..)
    | cons t ts =>
      by_cases ht : t.kind = .minus
      · cases room with
        | zero =>
          -- the sign alone is more than there is room for
          have hle := price_le_peak (.operand (.sign :: opened)) ts
          rw [Pending.opened, price] at hle
          rw [unary, if_pos ht]
          exact .tooDeep (by rw [peak_sign ht]; omega)
        | succ room =>
          rw [unary_minus ht]
          exact measured_negation ht (ih room (Nat.lt_succ_self room) (.sign :: opened) ts)
      · rw [unary_of_ne ht, primary]
        refine measured_primaryOver (by simpa using ht) ?_
        intro opener rest hts hopener
        obtain ⟨rfl, rfl⟩ := List.cons.inj hts
        rcases Nat.lt_or_ge room 6 with hlt | hge
        · have hle := price_le_peak (.operand (.paren :: opened)) ts
          rw [Pending.opened, price] at hle
          rw [groupWithin_of_lt hlt]
          exact .tooDeep (by rw [peak_opener hopener]; omega)
        · obtain ⟨room, rfl⟩ := Nat.exists_eq_add_of_le' hge
          exact measured_group (stops_expressionOver (sound_unary room))
            (measured_expressionOver rfl (ih room (by omega) (.paren :: opened))) hopener ts

/-! ### Whole texts -/

/-- A whole expression goes too deep exactly if the peak of its tokens is above the room. -/
theorem wholeExpression_eq_tooDeep_iff {room : Nat} {ts : List Token} :
    wholeExpression room ts = .error .tooDeep ↔ room < start.peak ts := by
  have hresult : Measured [] room ts (expression room ts) :=
    measured_expressionOver rfl (measured_unary room []) ts
  have hzero : price [] = 0 := rfl
  rw [wholeExpression]
  cases hread : expression room ts with
  | error halt =>
    rw [hread] at hresult
    cases hresult with
    | refused hpeak =>
      have hle : start.peak ts ≤ room := by rwa [hzero, Nat.zero_add] at hpeak
      -- what is refused is not too deep
      refine iff_of_false ?_ (Nat.not_lt.2 hle)
      intro h
      cases h
    | tooDeep hpeak => exact iff_of_true rfl (by rwa [hzero, Nat.zero_add] at hpeak)
  | ok reading =>
    obtain ⟨e, rest⟩ := reading
    have hends : Category.expression.Ends rest := stops_expressionOver (sound_unary room) hread
    rw [hread] at hresult
    cases hresult with
    | @read read _ _ hts hafter hpeak =>
      -- nothing may follow the expression
      have hrest : (Pending.operator []).peak rest = 0 := by
        cases rest with
        | nil => rfl
        | cons t rest =>
          exact peak_of_next?_eq_none
            (next?_operator_eq_none ((Category.ends_cons ..).1 hends) fun _ => rfl) rest
      have hwhole : start.peak ts ≤ room := by
        rw [hts, start, peak_append hafter]
        show max _ ((Pending.operator []).peak rest) ≤ _
        omega
      refine iff_of_false ?_ (Nat.not_lt.2 hwhole)
      intro h
      cases rest with
      | nil => cases h
      | cons t rest => cases h

/-- The end of the text opens nothing, and neither does anything behind it. -/
theorem peak_takeWhile (p : Pending) (ts : List Token) :
    p.peak (ts.takeWhile Cursor.inText) = p.peak ts := by
  induction ts generalizing p with
  | nil => rfl
  | cons t ts ih =>
    by_cases ht : t.kind = .finish
    · have hnone : p.next? t.kind = none := by
        rw [ht]
        cases p <;> rfl
      -- a text ends here, and the end is not what may follow
      rw [List.takeWhile_cons_of_neg (by simp [Cursor.inText, ht]), peak_nil,
        peak_of_next?_eq_none hnone]
    · rw [List.takeWhile_cons_of_pos (by simp [Cursor.inText, ht])]
      cases hnext : p.next? t.kind with
      | none => rw [peak_of_next?_eq_none hnext, peak_of_next?_eq_none hnext]
      | some p' => rw [peak_cons hnext, peak_cons hnext, ih]

/-- **Reading goes too deep exactly if the peak is above the allowance**, whatever the tokens
are. -/
theorem parse_eq_tooDeep_iff (tokens : List Token) :
    parse tokens = .error .tooDeep ↔ allowance < start.peak tokens := by
  rw [← peak_takeWhile, ← wholeExpression_eq_tooDeep_iff]
  rw [parse, Cursor.parse, Cursor.apply, Cursor.ofTokens]
  cases wholeExpression allowance (tokens.takeWhile Cursor.inText) with
  | ok reading => exact iff_of_false (fun h => by cases h) (fun h => by cases h)
  | error halt =>
    cases halt with
    | tooDeep => exact iff_of_true rfl rfl
    | fault r => exact iff_of_false (fun h => by cases h) (fun h => by cases h)

end Calculator
