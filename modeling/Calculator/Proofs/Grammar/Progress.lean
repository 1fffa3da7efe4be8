import Calculator.Proofs.Depth.Peak
import Calculator.Proofs.Grammar.Phrases

/-!
# Reading makes progress

A rule that succeeds has read one token at least, and a group is made of three: its opener, whatever
that is, an expression and the closing parenthesis.  A rule that refuses a token leaves it unread,
with all the tokens behind it.  So reading never goes round in a circle, and the only way in which
it can go too deep is that the text is too long for the room: a token never takes more than the six
that a parenthesis takes.

## Main definitions

* `Phrase.within`, `Phrase.least` — the rule for a phrase in any room, and how short a phrase is.
* `Rule.Takes` — what the result of a rule says about the tokens that it was given.

## Main results

* `takes_level`, `takes_group` — the ways of building rules.
* `Phrase.takes` — **every rule takes its tokens**: one at least, and three for a group.
* `Phrase.within_ne_tooDeep` — **no rule goes too deep** with six of the room for each token.
-/

namespace Calculator

/-! ### Phrases -/

namespace Phrase

/-- The rule that reads a phrase, as far as `room` allows. -/
def within (room : Nat) : Phrase → Rule
  | whole => wholeExpression room
  | expression => Calculator.expression room
  | term => Calculator.term room
  | power => Calculator.power room
  | unary => Calculator.unary room
  | primary => Calculator.primary room
  | grouping => Calculator.grouping room

theorem within_allowance (p : Phrase) : p.within allowance = p.rule := by
  cases p <;> rfl

/-- The least number of tokens that a phrase is made of. -/
def least : Phrase → Nat
  | grouping => 3
  | whole | expression | term | power | unary | primary => 1

end Phrase

/-! ### What a rule takes -/

/-- What the result of a rule says about the tokens that it was given: those that were read stand in
front of those that are left, and so many have been read at least if the rule succeeds. -/
inductive Rule.Takes (least : Nat) (ts : List Token) : Reading → Prop
  /-- Enough tokens have been read. -/
  | read {read rest : List Token} {e : Draft} (hts : ts = read ++ rest)
      (hleast : least ≤ read.length) : Takes least ts (.ok (e, rest))
  /-- The refused token is one of them, or their end. -/
  | refused {read : List Token} {r : Refusal} (hts : ts = read ++ r.rest) :
      Takes least ts (.error (.fault r))
  | tooDeep : Takes least ts (.error .tooDeep)

open Rule

theorem Rule.Takes.mono {least least' : Nat} {ts : List Token} {result : Reading}
    (h : Takes least ts result) (hle : least' ≤ least) : Takes least' ts result := by
  cases h with
  | read hts hleast => exact .read hts (Nat.le_trans hle hleast)
  | refused hts => exact .refused hts
  | tooDeep => exact .tooDeep

theorem takes_refuse (least : Nat) (cause : Refusal.Cause) (ts : List Token) :
    Takes least ts (refuse cause ts) :=
  .refused (List.nil_append ts).symm

/-- A rule that reads and refuses what its category does takes a token: no word is empty. -/
theorem takes_of_sound {c : Category} {rule : Rule} (hsound : rule.Sound c)
    (hrefuses : rule.Refuses c) (ts : List Token) : Takes 1 ts (rule ts) := by
  cases hread : rule ts with
  | ok reading =>
    obtain ⟨e, rest⟩ := reading
    obtain ⟨d, hword, -⟩ := hsound hread
    -- every word has a first token
    obtain ⟨t, more, hd, -⟩ := d.exists_first
    exact .read hword.symm (by simp [hd])
  | error halt =>
    cases halt with
    | fault r =>
      obtain ⟨read, hts, -⟩ := hrefuses hread
      exact .refused hts
    | tooDeep => exact .tooDeep

theorem takes_unary (room : Nat) (ts : List Token) : Takes 1 ts (unary room ts) :=
  takes_of_sound (sound_unary room) (refuses_unary room) ts

theorem takes_expression (room : Nat) (ts : List Token) : Takes 1 ts (expression room ts) :=
  takes_of_sound (sound_expression room)
    (refuses_expressionOver (sound_unary room) (refuses_unary room)) ts

theorem takes_level {l : Level} {operand : Rule} (hsound : operand.Sound l.operand)
    (hrefuses : operand.Refuses l.operand) (ts : List Token) :
    Takes 1 ts (level l.precedence operand ts) :=
  takes_of_sound (sound_level hsound) (refuses_level hsound hrefuses) ts

/-- A group takes its opener, what its expression takes, and the closing parenthesis. -/
theorem takes_group {expression : Rule} (hexp : ∀ ts, Takes 1 ts (expression ts)) (opener : Token)
    (ts : List Token) : Takes 3 (opener :: ts) (group expression opener ts) := by
  have hresult := hexp ts
  rw [group]
  generalize expression ts = result at hresult
  cases hresult with
  | @refused read r hts =>
    exact .refused (show opener :: ts = (opener :: read) ++ r.rest by rw [hts, List.cons_append])
  | tooDeep => exact .tooDeep
  | @read read rest e hts hleast =>
    have hrest : opener :: ts = (opener :: read) ++ rest := by rw [hts, List.cons_append]
    cases rest with
    | nil => exact .refused hrest
    | cons closer rest =>
      show Takes 3 _ (if closer.kind = .rightParen then _ else _)
      by_cases hcloser : closer.kind = .rightParen
      · rw [if_pos hcloser]
        -- the two parentheses, and one token between them at least
        refine .read (show opener :: ts = (opener :: read ++ [closer]) ++ rest by simp [hts]) ?_
        rw [List.length_append, List.length_cons, List.length_singleton]
        omega
      · rw [if_neg hcloser]
        exact .refused hrest

theorem takes_groupWithin (room : Nat) (opener : Token) (ts : List Token) :
    Takes 3 (opener :: ts) (groupWithin room opener ts) := by
  rcases Nat.lt_or_ge room 6 with hlt | hge
  · rw [groupWithin_of_lt hlt]
    exact .tooDeep
  · obtain ⟨room, rfl⟩ := Nat.exists_eq_add_of_le' hge
    exact takes_group (takes_expression room) opener ts

theorem takes_primary (room : Nat) (ts : List Token) : Takes 1 ts (primary room ts) := by
  cases ts with
  | nil => exact takes_refuse 1 .operandExpected []
  | cons t ts =>
    rw [primary, primaryOver]
    split
    · exact .read List.singleton_append.symm (Nat.le_refl _)
    · exact (takes_groupWithin room t ts).mono (by omega)
    · exact takes_refuse 1 .operandExpected (t :: ts)

theorem expression_nil (room : Nat) : expression room [] = refuse .operandExpected [] := by
  have hunary : unary room [] = refuse .operandExpected [] := by rw [unary]
  rw [expression, expressionOver, level, level, level, hunary]
  rfl

theorem takes_grouping (room : Nat) (ts : List Token) : Takes 3 ts (grouping room ts) := by
  cases ts with
  | nil =>
    rw [grouping, expression_nil]
    exact takes_refuse 3 .operandExpected []
  | cons opener ts => exact takes_groupWithin room opener ts

theorem takes_wholeExpression (room : Nat) (ts : List Token) :
    Takes 1 ts (wholeExpression room ts) := by
  have hresult := takes_expression room ts
  rw [wholeExpression]
  generalize expression room ts = result at hresult
  cases hresult with
  | refused hts => exact .refused hts
  | tooDeep => exact .tooDeep
  | @read read rest e hts hleast =>
    cases rest with
    | nil => exact .read hts hleast
    | cons t rest => exact .refused hts

/-- **Every rule takes its tokens**, whatever room there is: one at least, and three for a
group. -/
theorem Phrase.takes (p : Phrase) (room : Nat) (ts : List Token) :
    Takes p.least ts (p.within room ts) := by
  have hsound : (Calculator.unary room).Sound .unary := sound_unary room
  have hrefuses : (Calculator.unary room).Refuses .unary := refuses_unary room
  cases p with
  | whole => exact takes_wholeExpression room ts
  | expression => exact takes_expression room ts
  | term =>
    exact takes_level (l := .multiplicative) (sound_level (l := .raising) hsound)
      (refuses_level (l := .raising) hsound hrefuses) ts
  | power => exact takes_level (l := .raising) hsound hrefuses ts
  | unary => exact takes_unary room ts
  | primary => exact takes_primary room ts
  | grouping => exact takes_grouping room ts

theorem Phrase.takes_rule (p : Phrase) (ts : List Token) : Takes p.least ts (p.rule ts) := by
  rw [← p.within_allowance]
  exact p.takes allowance ts

/-! ### Room enough -/

theorem peak_start_le (ts : List Token) : Pending.start.peak ts ≤ 6 * ts.length := by
  rw [Pending.peak_le_iff]
  intro n p hp
  have hopened : p.opened.length ≤ 0 + openerCount (ts.take n) := Pending.length_opened_le hp
  have hcount : openerCount (ts.take n) ≤ ts.length :=
    Nat.le_trans List.countP_le_length (List.length_take_le' n ts)
  calc price p.opened ≤ 6 * p.opened.length := price_le _
    _ ≤ 6 * ts.length := by omega

/-- With six for each token there is room enough, where nothing is open in front of them. -/
theorem Rule.Measured.ne_tooDeep {room : Nat} {ts : List Token} {result : Reading}
    (h : Measured [] room ts result) (hroom : 6 * ts.length ≤ room) :
    result ≠ .error .tooDeep := by
  rintro rfl
  cases h with
  | tooDeep hpeak =>
    -- the tokens cannot cost more than there is room
    have hle : (Pending.operand []).peak ts ≤ 6 * ts.length := peak_start_le ts
    rw [price] at hpeak
    omega

theorem expression_ne_tooDeep {room : Nat} {ts : List Token} (h : 6 * ts.length ≤ room) :
    expression room ts ≠ .error .tooDeep := by
  have hresult : Measured [] room ts (expression room ts) :=
    measured_expressionOver rfl (measured_unary room []) ts
  exact hresult.ne_tooDeep h

theorem group_ne_tooDeep {expression : Rule} {opener : Token} {ts : List Token}
    (h : expression ts ≠ .error .tooDeep) : group expression opener ts ≠ .error .tooDeep := by
  intro hgroup
  rcases eq_error_or_of_bind_eq_error hgroup with hexp | ⟨⟨e, rest⟩, -, hclose⟩
  · exact h hexp
  · cases rest with
    | nil => cases hclose
    | cons closer rest =>
      dsimp only at hclose
      split at hclose <;> cases hclose

theorem grouping_ne_tooDeep {room : Nat} {ts : List Token} (h : 6 * ts.length ≤ room) :
    grouping room ts ≠ .error .tooDeep := by
  cases ts with
  | nil => exact expression_ne_tooDeep h
  | cons opener ts =>
    rw [List.length_cons] at h
    obtain ⟨room, rfl⟩ : ∃ n, room = n + 6 := ⟨room - 6, by omega⟩
    exact group_ne_tooDeep (expression_ne_tooDeep (by omega))

/-- A primary is a unary, or begins with a minus sign and is refused. -/
theorem primary_ne_tooDeep {room : Nat} {ts : List Token} (h : 6 * ts.length ≤ room) :
    primary room ts ≠ .error .tooDeep := by
  cases ts with
  | nil => intro hprimary; cases hprimary
  | cons t ts =>
    by_cases ht : t.kind = .minus
    · -- a minus sign begins no primary, and is refused without going down
      rw [primary, primaryOver, ht]
      intro hprimary
      cases hprimary
    · rw [← unary_of_ne ht]
      exact (measured_unary room [] _).ne_tooDeep h

/-- **No rule goes too deep** if there are six of the room for each token. -/
theorem Phrase.within_ne_tooDeep (p : Phrase) {room : Nat} {ts : List Token}
    (h : 6 * ts.length ≤ room) : p.within room ts ≠ .error .tooDeep := by
  have hunary := measured_unary room []
  cases p with
  | whole =>
    rw [within, Ne, wholeExpression_eq_tooDeep_iff, Nat.not_lt]
    exact Nat.le_trans (peak_start_le ts) h
  | expression => exact expression_ne_tooDeep h
  | term =>
    exact (measured_level (l := .multiplicative) rfl
      (measured_level (l := .raising) rfl hunary) ts).ne_tooDeep h
  | power => exact (measured_level (l := .raising) rfl hunary ts).ne_tooDeep h
  | unary => exact (hunary ts).ne_tooDeep h
  | primary => exact primary_ne_tooDeep h
  | grouping => exact grouping_ne_tooDeep h

end Calculator
