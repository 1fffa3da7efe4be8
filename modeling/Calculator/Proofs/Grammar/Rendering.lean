import Calculator.Proofs.Expr.Places
import Calculator.Proofs.Grammar.Reading

/-!
# Renderings of an expression

The ways to write an expression with tokens, apart from how tokens are read: the expression in
order, with any number of pairs of parentheses around each part of it, and at least one pair where
the operators around a part would otherwise take it apart.  A left operand needs parentheses if its
operator binds less tightly than the one behind it, a right operand also if both bind alike, and the
operand of a minus sign needs them around every operator.

## Main definitions

* `Operator.kind`, `Operator.precedence` — how an operator is written, and how tightly it binds.
* `Renders`, `Rendering` — tokens write an expression.
* `Category.tightness`, `Expr.tightness` — which phrases an expression can be without parentheses.

## Main results

* `Expr.grouped_iff` — the operators that ask for parentheses do not bind tightly enough.
* `Derivation.exists_looser` — a phrase of a category is one of every looser category.
* `Renders.exists_number` — every literal is written as a number with its value.
* `Derivation.renders` — a word is a rendering of the expression that it is read as.
* `Renders.exists_derivation` — a rendering is a word, and read as an expression alike.
* `parse_iff_rendering` — **the tokens that are read as an expression are its renderings.**
-/

namespace Calculator

/-! ### Operators -/

namespace Operator

/-- The kind of token that an operator is written with. -/
def kind : Operator → Token.Kind
  | add => .plus
  | sub => .minus
  | mul => .star
  | div => .slash
  | pow => .caret

/-- How tightly an operator binds. -/
def precedence : Operator → Nat
  | add => 1
  | sub => 1
  | mul => 2
  | div => 2
  | pow => 3

/-- The level that an operator belongs to. -/
def level : Operator → Level
  | add => .additive
  | sub => .additive
  | mul => .multiplicative
  | div => .multiplicative
  | pow => .raising

end Operator

/-- The tokens between the operands of a level are its operators. -/
theorem Level.precedence_eq_some_iff {l : Level} {kind : Token.Kind} {op : Operator} :
    l.precedence kind = some op ↔ op.level = l ∧ kind = op.kind := by
  cases l <;> cases kind <;> cases op <;> decide

/-! ### Renderings -/

/-- The operator of an operation. -/
def Expr.operator? {α : Type} : Expr α → Option Operator
  | literal _ _ => none
  | negate _ _ => none
  | binary op _ _ _ => some op

/-- `Renders grouped e ts` says that the tokens write the expression, and whether there is at least
one pair of parentheses around it.  The spans of the expression do not matter. -/
inductive Renders : Bool → Draft → List Token → Prop
  /-- A literal is a number with its value. -/
  | literal {t : Token} {span : Span} (ht : t.kind = .number) :
      Renders false (.literal t.value span) [t]
  /-- A negation is a minus sign and its operand, an operation in parentheses. -/
  | negate {sign : Token} {grouped : Bool} {operand : Draft} {span : Span} {ts : List Token}
      (hsign : sign.kind = .minus) (hoperand : Renders grouped operand ts)
      (hgrouped : operand.operator? ≠ none → grouped = true) :
      Renders false (.negate operand span) (sign :: ts)
  /-- An operation is its left operand, in parentheses if that binds less tightly, its operator, and
  its right operand, in parentheses unless that binds more tightly. -/
  | binary {sign : Token} {op : Operator} {groupedLeft groupedRight : Bool} {left right : Draft}
      {span : Span} {ls rs : List Token} (hsign : sign.kind = op.kind)
      (hleft : Renders groupedLeft left ls) (hright : Renders groupedRight right rs)
      (hgroupedLeft : ∀ op' ∈ left.operator?, op'.precedence < op.precedence → groupedLeft = true)
      (hgroupedRight : ∀ op' ∈ right.operator?, op'.precedence ≤ op.precedence →
        groupedRight = true) :
      Renders false (.binary op left right span) (ls ++ sign :: rs)
  /-- Everything may be put in parentheses. -/
  | group {opener closer : Token} {grouped : Bool} {e : Draft} {ts : List Token}
      (hopener : opener.kind = .leftParen) (hcloser : closer.kind = .rightParen)
      (h : Renders grouped e ts) : Renders true e (opener :: (ts ++ [closer]))

/-- The tokens write the expression. -/
def Rendering (e : Draft) (ts : List Token) : Prop := ∃ grouped, Renders grouped e ts

theorem Expr.Alike.operator?_eq {e e' : Draft} (h : e.Alike e') : e.operator? = e'.operator? := by
  cases e' with
  | literal value span =>
    obtain ⟨span', rfl⟩ := alike_literal h
    rfl
  | negate operand span =>
    obtain ⟨operand', span', rfl, -⟩ := alike_negate h
    rfl
  | binary op left right span =>
    obtain ⟨left', right', span', rfl, -, -⟩ := alike_binary h
    rfl

theorem Renders.of_alike {grouped : Bool} {e e' : Draft} {ts : List Token}
    (h : Renders grouped e ts) (halike : e'.Alike e) : Renders grouped e' ts := by
  -- parentheses are asked for by the operators of the parts, and parts that are alike have the same
  induction h generalizing e' with
  | literal ht =>
    obtain ⟨span', rfl⟩ := Expr.alike_literal halike
    exact .literal ht
  | negate hsign hoperand hgrouped ih =>
    obtain ⟨operand', span', rfl, hlike⟩ := Expr.alike_negate halike
    refine .negate hsign (ih hlike) ?_
    rw [hlike.operator?_eq]
    exact hgrouped
  | binary hsign hleft hright hgroupedLeft hgroupedRight ihl ihr =>
    obtain ⟨left', right', span', rfl, hlikeLeft, hlikeRight⟩ := Expr.alike_binary halike
    refine .binary hsign (ihl hlikeLeft) (ihr hlikeRight) ?_ ?_
    · rw [hlikeLeft.operator?_eq]
      exact hgroupedLeft
    · rw [hlikeRight.operator?_eq]
      exact hgroupedRight
  | group hopener hcloser h ih => exact .group hopener hcloser (ih halike)

theorem Renders.exists_number {grouped : Bool} {e : Draft} {ts : List Token}
    (h : Renders grouped e ts) {value : Option Binary64} {span : Span}
    (hmem : .literal value span ∈ e.nodes) : ∃ t ∈ ts, t.kind = .number ∧ t.value = value := by
  induction h with
  | @literal t span' ht =>
    obtain ⟨rfl, -⟩ := Expr.literal.inj (List.mem_singleton.1 hmem)
    exact ⟨t, List.mem_singleton_self t, ht, rfl⟩
  | negate hsign hoperand hgrouped ih =>
    rcases Expr.mem_nodes.1 hmem with hmem | heq
    · obtain ⟨t, ht, hnumber⟩ := ih hmem
      exact ⟨t, List.mem_cons_of_mem _ ht, hnumber⟩
    · cases heq
  | binary hsign hleft hright hgroupedLeft hgroupedRight ihl ihr =>
    rcases Expr.mem_nodes.1 hmem with hmem | heq
    · rcases List.mem_append.1 hmem with hmem | hmem
      · obtain ⟨t, ht, hnumber⟩ := ihl hmem
        exact ⟨t, List.mem_append_left _ ht, hnumber⟩
      · obtain ⟨t, ht, hnumber⟩ := ihr hmem
        exact ⟨t, List.mem_append_right _ (List.mem_cons_of_mem _ ht), hnumber⟩
    · cases heq
  | group hopener hcloser h ih =>
    obtain ⟨t, ht, hnumber⟩ := ih hmem
    exact ⟨t, List.mem_cons_of_mem _ (List.mem_append_left _ ht), hnumber⟩

/-! ### Tightness -/

/-- How tightly a category binds. -/
def Category.tightness : Category → Nat
  | level .additive => 1
  | level .multiplicative => 2
  | level .raising => 3
  | unary => 4
  | primary => 5

/-- How tightly an expression binds that has no parentheses around it. -/
def Expr.tightness {α : Type} : Expr α → Nat
  | literal _ _ => 5
  | negate _ _ => 4
  | binary op _ _ _ => op.precedence

theorem Category.tightness_injective {c c' : Category} (h : c.tightness = c'.tightness) :
    c = c' := by
  rcases c with (_ | _ | _) | _ | _ <;> rcases c' with (_ | _ | _) | _ | _ <;>
    first | rfl | cases h

theorem Category.tightness_le (c : Category) : c.tightness ≤ Category.primary.tightness := by
  rcases c with (_ | _ | _) | _ | _ <;> decide

theorem Category.tightness_expression_le (c : Category) :
    Category.expression.tightness ≤ c.tightness := by
  rcases c with (_ | _ | _) | _ | _ <;> decide

theorem Category.tightness_operand (l : Level) :
    l.operand.tightness = (level l).tightness + 1 := by
  cases l <;> rfl

theorem Operator.tightness_level (op : Operator) :
    (Category.level op.level).tightness = op.precedence := by
  cases op <;> rfl

theorem Operator.precedence_le (op : Operator) : op.precedence ≤ 3 := by
  cases op <;> decide

theorem Expr.tightness_of_operator? {e : Draft} {op : Operator} (h : e.operator? = some op) :
    e.tightness = op.precedence := by
  cases e with
  | literal value span => cases h
  | negate operand span => cases h
  | binary op' left right span =>
    obtain rfl := Option.some.inj h
    rfl

theorem Expr.le_tightness_of_operator? {e : Draft} (h : e.operator? = none) : 4 ≤ e.tightness := by
  cases e with
  | literal value span => exact Nat.le_succ 4
  | negate operand span => exact Nat.le_refl 4
  | binary op left right span => cases h

/-- Operators that ask for parentheses are those that do not bind tightly enough. -/
theorem Expr.grouped_iff {grouped : Bool} {e : Draft} {n : Nat} (hn : n ≤ 4) :
    (∀ op ∈ e.operator?, op.precedence < n → grouped = true) ↔
      (grouped = false → n ≤ e.tightness) := by
  constructor
  · rintro h rfl
    -- without an operator an expression binds as tightly as can be asked for
    cases hop : e.operator? with
    | none => exact Nat.le_trans hn (le_tightness_of_operator? hop)
    | some op =>
      rw [tightness_of_operator? hop]
      refine Nat.le_of_not_lt fun hlt => ?_
      cases h op hop hlt
  · intro h op hop hlt
    cases grouped with
    | true => rfl
    | false =>
      have hle := h rfl
      rw [tightness_of_operator? hop] at hle
      omega

theorem Expr.one_le_tightness (e : Draft) : Category.expression.tightness ≤ e.tightness := by
  cases hop : e.operator? with
  | none => exact Nat.le_trans (by decide) (le_tightness_of_operator? hop)
  | some op =>
    rw [tightness_of_operator? hop]
    cases op <;> decide

/-- A phrase of a category is one of every looser category. -/
theorem Derivation.exists_looser {c : Category} (d : Derivation c) (c' : Category)
    (h : c'.tightness ≤ c.tightness) :
    ∃ d' : Derivation c', d'.word = d.word ∧ d'.draft = d.draft ∧ d'.nesting = d.nesting := by
  by_cases heq : c'.tightness = c.tightness
  · obtain rfl := Category.tightness_injective heq
    exact ⟨d, rfl, rfl, rfl⟩
  · -- the phrase is one of the next category inside, and that is one of this
    match c' with
    | .level l =>
      have hnext : l.operand.tightness ≤ c.tightness := by
        rw [Category.tightness_operand]
        omega
      obtain ⟨d', hword, hdraft, hnesting⟩ := d.exists_looser l.operand hnext
      refine ⟨.level d' .done, ?_, ?_, ?_⟩
      · rw [Derivation.word, Continuation.word, List.append_nil, hword]
      · rw [Derivation.draft, Continuation.drafts, List.foldl_nil, hdraft]
      · rw [Derivation.nesting, Continuation.nesting, Nat.max_zero, hnesting]
    | .unary =>
      have hnext : Category.primary.tightness ≤ c.tightness :=
        Nat.lt_of_le_of_ne h heq
      obtain ⟨d', hword, hdraft, hnesting⟩ := d.exists_looser .primary hnext
      refine ⟨.plain d', ?_, ?_, ?_⟩
      · rw [Derivation.word, hword]
      · rw [Derivation.draft, hdraft]
      · rw [Derivation.nesting, hnesting]
    | .primary => exact absurd (Nat.le_antisymm h c.tightness_le) heq
termination_by 5 - c'.tightness
decreasing_by
  · have hle : l.operand.tightness ≤ 5 := l.operand.tightness_le
    rw [Category.tightness_operand] at hle ⊢
    omega
  · decide

/-! ### Words are renderings -/

mutual

/-- A word is a rendering of the expression that it is read as, without parentheses around it only
if the expression binds tightly enough for its category. -/
theorem Derivation.renders {c : Category} (d : Derivation c) :
    ∃ grouped, Renders grouped d.draft d.word ∧
      (grouped = false → c.tightness ≤ d.draft.tightness) := by
  match d with
  | .level first more =>
    obtain ⟨grouped, hfirst, htight⟩ := first.renders
    rw [Derivation.word, Derivation.draft]
    refine more.renders hfirst ?_
    intro hgrouped
    have hle := htight hgrouped
    rw [Category.tightness_operand] at hle
    omega
  | .minus sign hsign operand =>
    obtain ⟨grouped, hoperand, htight⟩ := operand.renders
    rw [Derivation.word, Derivation.draft]
    refine ⟨false, .negate hsign hoperand ?_, fun _ => Nat.le_refl 4⟩
    -- every operator binds less tightly than a minus sign
    intro hop
    obtain ⟨op, hop⟩ := Option.ne_none_iff_exists'.1 hop
    exact (Expr.grouped_iff (Nat.le_refl 4)).2 htight op hop (Nat.lt_succ_of_le op.precedence_le)
  | .plain phrase =>
    obtain ⟨grouped, hphrase, htight⟩ := phrase.renders
    rw [Derivation.word, Derivation.draft]
    exact ⟨grouped, hphrase, fun hgrouped => Nat.le_trans (by decide) (htight hgrouped)⟩
  | .number t ht =>
    rw [Derivation.word, Derivation.draft]
    exact ⟨false, .literal ht, fun _ => Nat.le_refl 5⟩
  | .group opener hopener inner closer hcloser =>
    obtain ⟨grouped, hinner, -⟩ := inner.renders
    rw [Derivation.word, Derivation.draft]
    refine ⟨true, .group hopener hcloser (hinner.of_alike (Expr.alike_withSpan _ _)), ?_⟩
    intro hgrouped
    cases hgrouped

/-- A continuation behind a rendering of a left operand is a rendering of all of them together. -/
theorem Continuation.renders {l : Level} (k : Continuation l) {grouped : Bool} {left : Draft}
    {ts : List Token} (hleft : Renders grouped left ts)
    (htight : grouped = false → (Category.level l).tightness ≤ left.tightness) :
    ∃ grouped', Renders grouped'
        (k.drafts.foldl (fun left (op, right) => .join op left right) left) (ts ++ k.word) ∧
      (grouped' = false → (Category.level l).tightness ≤
        (k.drafts.foldl (fun left (op, right) => Expr.join op left right) left).tightness) := by
  match k with
  | .done =>
    rw [Continuation.drafts, Continuation.word, List.append_nil]
    exact ⟨grouped, hleft, htight⟩
  | .step sign op hop operand more =>
    obtain ⟨groupedRight, hright, htightRight⟩ := operand.renders
    obtain ⟨hlevel, hkind⟩ := Level.precedence_eq_some_iff.1 hop
    have hprecedence : (Category.level l).tightness = op.precedence := by
      rw [← hlevel, Operator.tightness_level]
    -- the operand is joined on the right, where it has to bind more tightly than the operator
    have hjoin : Renders false (.join op left operand.draft) (ts ++ sign :: operand.word) := by
      rw [hprecedence] at htight
      rw [Category.tightness_operand, hprecedence] at htightRight
      have hle := op.precedence_le
      refine .binary hkind hleft hright ((Expr.grouped_iff (by omega)).2 htight) ?_
      intro op' hop' hle'
      exact (Expr.grouped_iff (by omega)).2 htightRight op' hop' (Nat.lt_succ_of_le hle')
    have hmore := more.renders hjoin fun _ => Nat.le_of_eq hprecedence
    rw [Continuation.drafts, Continuation.word, List.foldl_cons]
    rwa [List.append_assoc, List.cons_append] at hmore

end

/-! ### Renderings are words -/

/-- A rendering is a word of every category that the expression binds tightly enough for, and of
every category if there are parentheses around it; and it is read as an expression alike. -/
theorem Renders.exists_derivation {grouped : Bool} {e : Draft} {ts : List Token}
    (h : Renders grouped e ts) (c : Category) (hc : grouped = false → c.tightness ≤ e.tightness) :
    ∃ d : Derivation c, d.word = ts ∧ d.draft.Alike e := by
  induction h generalizing c with
  | @literal t span ht =>
    exact ⟨.ofNumber t ht c, Derivation.word_ofNumber .., by rw [Derivation.draft_ofNumber]; rfl⟩
  | @negate sign grouped operand span ts hsign hoperand hgrouped ih =>
    -- an operand without parentheses is no operation, and is therefore a unary
    have hunary : grouped = false → Category.unary.tightness ≤ operand.tightness := by
      refine (Expr.grouped_iff (Nat.le_refl 4)).1 ?_
      intro op hop _
      exact hgrouped (Option.ne_none_iff_exists'.2 ⟨op, hop⟩)
    obtain ⟨d, rfl, hlike⟩ := ih .unary hunary
    obtain ⟨d', hword, hdraft, -⟩ := (Derivation.minus sign hsign d).exists_looser c (hc rfl)
    refine ⟨d', ?_, ?_⟩
    · rw [hword, Derivation.word]
    · rw [hdraft, Derivation.draft, Expr.Alike, Expr.bare, Expr.moved]
      exact congrArg (Expr.negate · _) hlike
  | @binary sign op groupedLeft groupedRight left right span ls rs hsign hleft hright hgroupedLeft
      hgroupedRight ihl ihr =>
    have hprecedence := op.precedence_le
    -- without parentheses the left operand is a phrase of the level, and the right one an operand
    -- of it
    have hopLeft : groupedLeft = false →
        (Category.level op.level).tightness ≤ left.tightness := by
      rw [Operator.tightness_level]
      exact (Expr.grouped_iff (by omega)).1 hgroupedLeft
    have hopRight : groupedRight = false → op.level.operand.tightness ≤ right.tightness := by
      rw [Category.tightness_operand, Operator.tightness_level]
      refine (Expr.grouped_iff (by omega)).1 ?_
      intro op' hop' hlt
      exact hgroupedRight op' hop' (Nat.le_of_lt_succ hlt)
    obtain ⟨dl, rfl, hlikeLeft⟩ := ihl _ hopLeft
    obtain ⟨dr, rfl, hlikeRight⟩ := ihr _ hopRight
    have hle : c.tightness ≤ (Category.level op.level).tightness := by
      rw [Operator.tightness_level]
      exact hc rfl
    have hop : op.level.precedence sign.kind = some op :=
      Level.precedence_eq_some_iff.2 ⟨rfl, hsign⟩
    -- the right operand goes on with the level of the left one
    obtain ⟨d, hword, hdraft, -⟩ := dl.exists_join hop dr
    obtain ⟨d', hword', hdraft', -⟩ := d.exists_looser c hle
    refine ⟨d', hword'.trans hword, ?_⟩
    rw [hdraft', hdraft, Expr.Alike, Expr.bare, Expr.join, Expr.moved]
    exact Expr.binary.injEq .. ▸ ⟨rfl, hlikeLeft, hlikeRight, rfl⟩
  | @group opener closer grouped e ts hopener hcloser h ih =>
    -- inside its parentheses the expression may bind as loosely as any
    obtain ⟨d, rfl, hlike⟩ := ih .expression fun _ => e.one_le_tightness
    obtain ⟨d', hword, hdraft, -⟩ :=
      (Derivation.group opener hopener d closer hcloser).exists_looser c c.tightness_le
    refine ⟨d', ?_, ?_⟩
    · rw [hword, Derivation.word]
    · rw [hdraft, Derivation.draft]
      exact (Expr.alike_withSpan _ _).trans hlike

/-- The renderings of an expression are the words that are read as an expression alike. -/
theorem rendering_iff (e : Draft) (ts : List Token) :
    Rendering e ts ↔ ∃ d : Derivation .expression, d.word = ts ∧ d.draft.Alike e := by
  constructor
  · rintro ⟨grouped, h⟩
    exact h.exists_derivation .expression fun _ => e.one_le_tightness
  · rintro ⟨d, rfl, hlike⟩
    obtain ⟨grouped, h, -⟩ := d.renders
    exact ⟨grouped, h.of_alike hlike.symm⟩

/-! ### Reading renderings -/

/-- **The tokens that are read as an expression are its renderings**: tokens in front of the end of
the text give an expression alike the tree if and only if they write the tree, with every pair of
parentheses that its operators ask for. -/
theorem parse_iff_rendering {front : List Token} {stop : Token}
    (hfront : ∀ t ∈ front, t.kind ≠ .finish) (hstop : stop.kind = .finish)
    (hroom : (Cursor.ofTokens (front ++ [stop])).parse.1 ≠ .error .tooDeep) (tree : Draft) :
    (∃ e, (Cursor.ofTokens (front ++ [stop])).parse.1 = .ok e ∧ e.Alike tree) ↔
      Rendering tree front := by
  rw [Cursor.ofTokens_append hfront hstop] at hroom ⊢
  rw [rendering_iff]
  constructor
  · rintro ⟨e, hparse, hlike⟩
    obtain ⟨d, hword, rfl, -⟩ := Cursor.exists_of_parse_ok hparse
    exact ⟨d, hword, hlike⟩
  · rintro ⟨d, rfl, hlike⟩
    -- a derivation that did not fit the allowance would have been too deep
    have hfits : d.nesting ≤ allowance := by
      refine Nat.le_of_not_lt fun hlt => hroom ?_
      rw [Cursor.parse_word, if_neg (Nat.not_le.2 hlt)]
    refine ⟨d.draft, ?_, hlike⟩
    rw [Cursor.parse_word, if_pos hfits]

/-- In `1-(2--3)` the parentheses are needed, and there are none around the negation. -/
theorem parse_iff_rendering_nested_difference :
    let place (n : Nat) : Location := ⟨"<input>", 1, n + 1, n⟩
    let number (lexeme : String) (x : Binary64) (n : Nat) : Token :=
      ⟨.number, lexeme, some x, place n⟩
    let two : Binary64 := .ofBits 0x4000000000000000
    let three : Binary64 := .ofBits 0x4008000000000000
    let front : List Token := [number "1" .one 0, ⟨.minus, "-", none, place 1⟩,
      ⟨.leftParen, "(", none, place 2⟩, number "2" two 3, ⟨.minus, "-", none, place 4⟩,
      ⟨.minus, "-", none, place 5⟩, number "3" three 6, ⟨.rightParen, ")", none, place 7⟩]
    let literal (x : Binary64) : Draft := .literal (some x) .nowhere
    let tree : Draft := .binary .sub (literal .one)
      (.binary .sub (literal two) (.negate (literal three) .nowhere) .nowhere) .nowhere
    (Cursor.ofTokens (front ++ [.finish (place 8)])).parse.1 ≠ .error .tooDeep ∧
      Rendering tree front := by
  intro place number two three front literal tree
  have hroom : (Cursor.ofTokens (front ++ [.finish (place 8)])).parse.1 ≠ .error .tooDeep := by
    intro h
    cases h
  have h := parse_iff_rendering (by decide) rfl hroom tree
  exact ⟨hroom, h.1 ⟨_, rfl, rfl⟩⟩

end Calculator
