import Calculator.Proofs.Calculation.Pointing
import Calculator.Proofs.Expr.Room
import Calculator.Proofs.Grammar.Rendering
import Calculator.Proofs.Scan.Joining

/-!
# Texts made of texts

Texts that have values can be put in parentheses and made into a longer text, with an operator
between two of them or a minus sign in front of one.  The longer text is calculated as the operation
on their values, whatever the parts look like inside: in the parentheses they have the same tokens,
the tokens are read as the same expressions, and these have the same values.

## Main definitions

* `operationText`, `negationText` — texts made of texts.
* `LeavesRoom` — a text can be part of a longer one without going too deep.
* `Operator.Gives` — what an operation on two texts with values comes to, operator by operator.

## Main results

* `Scanner.Tiled.exists_group` — a text in parentheses is a primary.
* `outcome_of_word` — the outcome of a text, from the derivation of its tokens.
* `outcome_composed` — **calculating is compositional in the text.**
-/

namespace Calculator

/-! ### Texts made of texts -/

/-- Two texts in parentheses with an operator between them. -/
def operationText (op : Operator) (a b : String) : String :=
  "(" ++ a ++ ")" ++ op.symbol.toString ++ "(" ++ b ++ ")"

/-- A text in parentheses behind a minus sign. -/
def negationText (a : String) : String := "-(" ++ a ++ ")"

/-- The text can be read if so much of the allowance is spent already, and there is room for one
more level when it is evaluated. -/
def LeavesRoom (cost : Nat) (name text : String) : Prop :=
  ∃ (d : Derivation .expression) (l : Location),
    tokenize name text = .ok (d.word ++ [.finish l]) ∧ d.nesting + cost ≤ allowance ∧
      2 * (d.draft.height + 1) ≤ allowance

/-- What an operation on the numbers `x` and `y` comes to, if they are the values of two texts in
parentheses and the first of these texts has `size` characters: its result, or its failure and where
that is located.  A zero divisor is located at the second opening parenthesis, every failure of a
power at the first one. -/
inductive Operator.Gives (size : Nat) (x y : Binary64) :
    Operator → Except Failure Binary64 → Prop
  | sum : Gives size x y .add (.ok (x.add y))
  | difference : Gives size x y .sub (.ok (x.sub y))
  | product : Gives size x y .mul (.ok (x.mul y))
  | quotient (hdivisor : y.isZero = false) : Gives size x y .div (.ok (x.div y))
  | zeroDivisor {divisor : Expr Binary64} (hdivisor : y.isZero = true)
      (hplace : divisor.span.first.offset = (size + 3 : Nat)) :
      Gives size x y .div (.error (.arithmetic (.zeroDivisor divisor)))
  | power (hzero : ¬ (x.isZero = true ∧ y.isNegative = true))
      (hreal : ¬ (x.isNegative = true ∧ y.whole? = none))
      (hfits : ¬ (x.isFinite = true ∧ y.isFinite = true ∧ (x.pow y).isInfinite = true)) :
      Gives size x y .pow (.ok (x.pow y))
  | zeroToNegative {power : Expr Binary64} (hbase : x.isZero = true)
      (hexponent : y.isNegative = true) (hplace : power.span.first.offset = 0) :
      Gives size x y .pow (.error (.arithmetic (.zeroToNegative power)))
  | invalidPower {power : Expr Binary64} (hbase : x.isNegative = true) (hexponent : y.whole? = none)
      (hplace : power.span.first.offset = 0) :
      Gives size x y .pow (.error (.arithmetic (.invalidPower power x y)))
  | overflow {power : Expr Binary64} (hzero : ¬ (x.isZero = true ∧ y.isNegative = true))
      (hreal : ¬ (x.isNegative = true ∧ y.whole? = none)) (hbase : x.isFinite = true)
      (hexponent : y.isFinite = true) (hpower : (x.pow y).isInfinite = true)
      (hplace : power.span.first.offset = 0) :
      Gives size x y .pow (.error (.arithmetic (.overflow power)))

/-! ### Parentheses -/

/-- **A text in parentheses is a primary** inside a longer text: it is read as an expression alike,
in the span of the parentheses, and nested more deeply by one parenthesis. -/
theorem Scanner.Tiled.exists_group {name name' text : String} {d : Derivation .expression}
    {s : Scanner} {rest : List Char} {qs : List Piece}
    (h : (ofText text).Tiled name (d.word.map .ok))
    (hahead : s.ahead = '(' :: (text.toList ++ ')' :: rest))
    (hqs : Tiled name' (s.advanceBy (text.length + 2)) qs) :
    ∃ d' : Derivation .primary, d'.draft.Alike d.draft ∧
      d'.draft.span.first = s.location name' ∧ d'.nesting = d.nesting + 6 ∧
      Tiled name' s (d'.word.map .ok ++ qs) := by
  have hinner : (s.advanceBy 1).ahead = text.toList ++ ')' :: rest := by
    rw [ahead_advanceBy, hahead]
    rfl
  have hcloser : ((s.advanceBy 1).advanceBy text.length).ahead = ')' :: rest := by
    rw [ahead_advanceBy, hinner, ← String.length_toList, List.drop_left]
  -- no numeral goes on with a parenthesis
  have hapart : Apart text.toList (')' :: rest) := by
    right
    intro c hc
    obtain rfl := Option.some.inj hc
    rfl
  have hbehind : Tiled name' (((s.advanceBy 1).advanceBy text.length).advanceBy 1) qs := by
    rw [advanceBy_add, advanceBy_add, Nat.add_comm 1]
    exact hqs
  let opener : Token := ⟨.leftParen, '('.toString, none, s.location name'⟩
  let closer : Token :=
    ⟨.rightParen, ')'.toString, none, ((s.advanceBy 1).advanceBy text.length).location name'⟩
  let inner := d.moved ((s.advanceBy 1).placing name')
  let phrase : Derivation .primary := .group opener rfl inner closer rfl
  have hword : phrase.word = opener :: (inner.word ++ [closer]) := by rw [Derivation.word]
  refine ⟨phrase, ?_, ?_, ?_, ?_⟩
  · rw [Derivation.draft, d.draft_moved]
    exact (Expr.alike_withSpan _ _).trans (Expr.alike_moved _ _)
  · rw [Derivation.draft, Expr.span_withSpan]
  · rw [Derivation.nesting, d.nesting_moved]
  · -- the opener, the pieces of the text, the closer, and what follows
    have hplaced := h.placed hinner hapart (.symbol hcloser rfl hbehind)
    rw [Piece.map_ok_moved, ← d.word_moved] at hplaced
    have htiled : Tiled name' s (.ok opener :: (inner.word.map .ok ++ .ok closer :: qs)) :=
      .symbol hahead rfl hplaced
    rw [hword, List.map_cons, List.map_append, List.cons_append, List.append_assoc]
    exact htiled

/-! ### Operations and negations -/

theorem Operator.ofSymbol?_symbol (op : Operator) :
    Token.Kind.ofSymbol? op.symbol = some op.kind := by
  cases op <;> rfl

/-- Two primaries with an operator between them are an expression. -/
theorem Derivation.exists_operation (left right : Derivation .primary) {sign : Token}
    {op : Operator} (hsign : sign.kind = op.kind) :
    ∃ d : Derivation .expression, d.word = left.word ++ sign :: right.word ∧
      d.draft = .join op left.draft right.draft ∧ d.nesting = max left.nesting right.nesting := by
  have hop : op.level.precedence sign.kind = some op :=
    Level.precedence_eq_some_iff.2 ⟨rfl, hsign⟩
  obtain ⟨left', hleftWord, hleftDraft, hleftNesting⟩ :=
    left.exists_looser (.level op.level) (Category.tightness_le _)
  obtain ⟨right', hrightWord, hrightDraft, hrightNesting⟩ :=
    right.exists_looser op.level.operand (Category.tightness_le _)
  obtain ⟨phrase, hword, hdraft, hnesting⟩ := left'.exists_join hop right'
  obtain ⟨d, hword', hdraft', hnesting'⟩ :=
    phrase.exists_looser .expression (Category.tightness_expression_le _)
  refine ⟨d, ?_, ?_, ?_⟩
  · rw [hword', hword, hleftWord, hrightWord]
  · rw [hdraft', hdraft, hleftDraft, hrightDraft]
  · rw [hnesting', hnesting, hleftNesting, hrightNesting]

/-- **Two texts in parentheses are the operands of the operator between them.** -/
theorem exists_operation {name a b : String} {da db : Derivation .expression}
    (ha : (Scanner.ofText a).Tiled name (da.word.map .ok))
    (hb : (Scanner.ofText b).Tiled name (db.word.map .ok)) (op : Operator) :
    ∃ (d : Derivation .expression) (left right : Draft),
      (Scanner.ofText (operationText op a b)).Tiled name (d.word.map .ok) ∧
        d.draft = .join op left right ∧ left.Alike da.draft ∧ right.Alike db.draft ∧
        left.span.first.offset = 0 ∧ right.span.first.offset = (a.length + 3 : Nat) ∧
        d.nesting = max da.nesting db.nesting + 6 := by
  let s := Scanner.ofText (operationText op a b)
  have hahead : s.ahead =
      '(' :: (a.toList ++ ')' :: op.symbol :: '(' :: (b.toList ++ ')' :: [])) := by
    simp [s, Scanner.ofText, operationText]
  have hsign : (s.advanceBy (a.length + 2)).ahead =
      op.symbol :: '(' :: (b.toList ++ ')' :: []) := by
    rw [Scanner.ahead_advanceBy, hahead, ← String.length_toList, List.drop_succ_cons,
      List.drop_append]
    simp
  have hopener : ((s.advanceBy (a.length + 2)).advanceBy 1).ahead =
      '(' :: (b.toList ++ ')' :: []) := by
    rw [Scanner.ahead_advanceBy, hsign]
    rfl
  have hend : (((s.advanceBy (a.length + 2)).advanceBy 1).advanceBy (b.length + 2)).Tiled name
      [] := by
    refine .finish ?_
    rw [Scanner.ahead_advanceBy, hopener, ← String.length_toList]
    simp
  -- from right to left: the right operand, the operator and the left operand
  obtain ⟨right, hright, hsecond, hrightNesting, hrightTiled⟩ := hb.exists_group hopener hend
  let sign : Token :=
    ⟨op.kind, op.symbol.toString, none, (s.advanceBy (a.length + 2)).location name⟩
  have hsignTiled : (s.advanceBy (a.length + 2)).Tiled name
      (.ok sign :: (right.word.map .ok ++ [])) := .symbol hsign op.ofSymbol?_symbol hrightTiled
  obtain ⟨left, hleft, hfirst, hleftNesting, hleftTiled⟩ := ha.exists_group hahead hsignTiled
  have hkind : sign.kind = op.kind := rfl
  obtain ⟨d, hword, hdraft, hnesting⟩ := left.exists_operation right hkind
  refine ⟨d, left.draft, right.draft, ?_, hdraft, hleft, hright, ?_, ?_, ?_⟩
  · rw [hword, List.map_append, List.map_cons]
    rw [List.append_nil] at hleftTiled
    exact hleftTiled
  · rw [hfirst]
    rfl
  · have hle : a.length + 2 + 1 ≤ (operationText op a b).length := by
      simp only [operationText, String.length_append]
      have hparens : "(".length = 1 ∧ ")".length = 1 := ⟨rfl, rfl⟩
      have hsymbol : op.symbol.toString.length = 1 := by cases op <;> rfl
      omega
    rw [hsecond, Scanner.advanceBy_add, Scanner.location_ofText, Location.offset_inText name hle]
  · rw [hnesting, hleftNesting, hrightNesting]
    omega

/-- **A text in parentheses is the operand of the minus sign in front of it.** -/
theorem exists_negation {name a : String} {da : Derivation .expression}
    (ha : (Scanner.ofText a).Tiled name (da.word.map .ok)) :
    ∃ (d : Derivation .expression) (operand : Draft) (span : Span),
      (Scanner.ofText (negationText a)).Tiled name (d.word.map .ok) ∧
        d.draft = .negate operand span ∧ operand.Alike da.draft ∧ d.nesting = da.nesting + 7 := by
  let s := Scanner.ofText (negationText a)
  have hahead : s.ahead = '-' :: '(' :: (a.toList ++ ')' :: []) := by
    simp [s, Scanner.ofText, negationText]
  have hopener : (s.advanceBy 1).ahead = '(' :: (a.toList ++ ')' :: []) := by
    rw [Scanner.ahead_advanceBy, hahead]
    rfl
  have hend : ((s.advanceBy 1).advanceBy (a.length + 2)).Tiled name [] := by
    refine .finish ?_
    rw [Scanner.ahead_advanceBy, hopener, ← String.length_toList]
    simp
  obtain ⟨group, hgroup, -, hnesting, htiled⟩ := ha.exists_group hopener hend
  let sign : Token := ⟨.minus, '-'.toString, none, s.location name⟩
  have hsign : s.Tiled name (.ok sign :: (group.word.map .ok ++ [])) :=
    .symbol hahead rfl htiled
  obtain ⟨d, hword, hdraft, hnesting'⟩ := (Derivation.minus sign rfl (.plain group)).exists_looser
    .expression (Category.tightness_expression_le _)
  refine ⟨d, group.draft, ⟨sign.location, group.draft.span.last⟩, ?_, ?_, hgroup, ?_⟩
  · rw [hword, Derivation.word, Derivation.word, List.map_cons]
    rw [List.append_nil] at hsign
    exact hsign
  · rw [hdraft, Derivation.draft, Derivation.draft]
  · rw [hnesting', Derivation.nesting, Derivation.nesting, hnesting]

/-! ### Outcomes -/

/-- The tokens of a text that has a value are a word, and the value is that of its expression. -/
theorem exists_word_of_outcome {watched : Bool} {name text : String} {c : Calculation}
    {x : Binary64} (hc : (calculate watched name text).outcome = some c) (hx : c.result = .ok x) :
    ∃ d : Derivation .expression, (Scanner.ofText text).Tiled name (d.word.map .ok) ∧
      (Draft.complete d.draft).value = .ok x := by
  cases staged_iff.2 hc with
  | lexical h => cases hx
  | syntactic htokens h => cases hx
  | arithmetic hreads hwritten h => cases hx
  | value hreads h =>
    obtain rfl := Except.ok.inj hx
    obtain ⟨d, -, htiled, rfl, -⟩ := hreads.exists_derivation
    exact ⟨d, htiled, h⟩

/-- A text whose tokens are a word leaves room if the word does. -/
theorem leavesRoom_iff {cost : Nat} {name text : String} {d : Derivation .expression}
    (h : (Scanner.ofText text).Tiled name (d.word.map .ok)) :
    LeavesRoom cost name text ↔
      d.nesting + cost ≤ allowance ∧ 2 * (d.draft.height + 1) ≤ allowance := by
  obtain ⟨l, htokens⟩ := tokenize_of_tiled h
  constructor
  · rintro ⟨d', l', htokens', hroom⟩
    -- the tokens have a single derivation
    have hwords := Except.ok.inj (htokens'.symm.trans htokens)
    obtain rfl : d' = d :=
      Derivation.word_injective (List.append_inj_left' hwords rfl)
    exact hroom
  · intro hroom
    exact ⟨d, l, htokens, hroom⟩

/-- **The outcome of a text whose tokens are a word**: if nothing but a lack of room keeps its
expression from having a result, it has the result where there is room to read and to evaluate, and
is given up where there is not. -/
theorem outcome_of_word {name text : String} {d : Derivation .expression}
    {result : Except ArithmeticFault Binary64}
    (h : (Scanner.ofText text).Tiled name (d.word.map .ok))
    (hvalue : (Draft.complete d.draft).value =
      if 2 * d.draft.height ≤ allowance then result.mapError .fault else .error .tooDeep)
    (watched : Bool) :
    ((calculate watched name text).outcome = none ↔
        ¬ (d.nesting ≤ allowance ∧ 2 * d.draft.height ≤ allowance)) ∧
      ∀ c, (calculate watched name text).outcome = some c →
        c.tree = some (Draft.complete d.draft) ∧ c.result = result.mapError .arithmetic := by
  obtain ⟨l, htokens⟩ := tokenize_of_tiled h
  by_cases hroom : d.nesting ≤ allowance ∧ 2 * d.draft.height ≤ allowance
  · -- there is room, and the stages find the result
    have hreads : Reads name text (d.word ++ [.finish l]) (Draft.complete d.draft) :=
      ⟨htokens, parse_word_append hroom.1 rfl⟩
    rw [if_pos hroom.2] at hvalue
    have houtcome : (calculate watched name text).outcome =
        some ⟨text, d.word ++ [.finish l], some (Draft.complete d.draft),
          result.mapError .arithmetic⟩ := by
      refine staged_iff.1 ?_
      cases result with
      | ok x => exact .value hreads hvalue
      | error fault =>
        refine .arithmetic hreads ?_ hvalue
        intro _
        rw [Draft.complete, Expr.height_map]
        omega
    rw [houtcome]
    refine ⟨by simp [hroom], ?_⟩
    intro c hc
    obtain rfl := Option.some.inj hc
    exact ⟨rfl, rfl⟩
  · have houtcome : (calculate watched name text).outcome = none := by
      refine staged_iff.1 ?_
      by_cases hnesting : d.nesting ≤ allowance
      · have hheight : ¬ 2 * d.draft.height ≤ allowance := fun hle => hroom ⟨hnesting, hle⟩
        rw [if_neg hheight] at hvalue
        exact .unevaluated ⟨htokens, parse_word_append hnesting rfl⟩ hvalue
      · exact .unread htokens (parse_word_of_lt (Nat.not_le.1 hnesting) rfl)
    rw [houtcome]
    refine ⟨by simp [hroom], ?_⟩
    intro c hc
    cases hc

/-- The value of an operation is what the operation gives, if its operands begin where those of two
texts in parentheses do. -/
theorem Operator.gives_apply {size : Nat} {left right : Expr Binary64} {span : Span}
    (hfirst : span.first.offset = 0) (hsecond : right.span.first.offset = (size + 3 : Nat))
    (op : Operator) (x y : Binary64) :
    op.Gives size x y ((op.apply left right span x y).mapError .arithmetic) := by
  cases op with
  | add => exact .sum
  | sub => exact .difference
  | mul => exact .product
  | div =>
    rw [apply]
    by_cases hdivisor : y.isZero = true
    · rw [if_pos hdivisor]
      exact .zeroDivisor hdivisor hsecond
    · rw [if_neg hdivisor]
      exact .quotient (eq_false_of_ne_true hdivisor)
  | pow =>
    rw [apply, powerOf]
    -- the three guards are tried in this order, and each of them is passed by what follows it
    by_cases hzero : x.isZero = true ∧ y.isNegative = true
    · rw [if_pos (by simpa using hzero)]
      exact .zeroToNegative hzero.1 hzero.2 hfirst
    rw [if_neg (by simpa using hzero)]
    by_cases hreal : x.isNegative = true ∧ y.whole? = none
    · rw [if_pos (by simpa using hreal)]
      exact .invalidPower hreal.1 hreal.2 hfirst
    rw [if_neg (by simpa using hreal)]
    by_cases hfits : x.isFinite = true ∧ y.isFinite = true ∧ (x.pow y).isInfinite = true
    · obtain ⟨hbase, hexponent, hpower⟩ := hfits
      rw [if_pos (by simp [hbase, hexponent, hpower])]
      exact .overflow hzero hreal hbase hexponent hpower hfirst
    · rw [if_neg (by simpa [and_assoc] using hfits)]
      exact .power hzero hreal hfits

/-- The outcome of two texts with an operator between them. -/
theorem outcome_operation {watched : Bool} {name a b : String} {da db : Derivation .expression}
    {x y : Binary64} (ha : (Scanner.ofText a).Tiled name (da.word.map .ok))
    (hx : (Draft.complete da.draft).value = .ok x)
    (hb : (Scanner.ofText b).Tiled name (db.word.map .ok))
    (hy : (Draft.complete db.draft).value = .ok y) (op : Operator) :
    ((calculate watched name (operationText op a b)).outcome = none ↔
        ¬ (LeavesRoom 6 name a ∧ LeavesRoom 6 name b)) ∧
      ∀ c, (calculate watched name (operationText op a b)).outcome = some c →
        ∃ left right span, c.tree = some (.binary op left right span) ∧
          c.result = (op.apply left right span x y).mapError .arithmetic ∧
          op.Gives a.length x y c.result := by
  obtain ⟨d, left, right, htiled, hdraft, hleft, hright, hfirst, hsecond, hnesting⟩ :=
    exists_operation ha hb op
  have hheight : d.draft.height = max da.draft.height db.draft.height + 1 := by
    rw [hdraft, Expr.join, Expr.height, hleft.height_eq, hright.height_eq]
  have htree : Draft.complete d.draft =
      .join op (Draft.complete left) (Draft.complete right) := by
    rw [hdraft, Draft.complete, Expr.map_join]
    rfl
  -- the operands have the values of the two texts
  have hvalue := Expr.value_join (hleft.complete.valueWithin_eq_ok hx)
    (hright.complete.valueWithin_eq_ok hy) op
  rw [← htree, Draft.height_complete] at hvalue
  obtain ⟨hnone, hsome⟩ := outcome_of_word htiled hvalue watched
  constructor
  · rw [hnone, leavesRoom_iff ha, leavesRoom_iff hb, hnesting, hheight]
    omega
  · intro c hc
    obtain ⟨htree', hresult⟩ := hsome c hc
    rw [htree] at htree' hresult
    refine ⟨_, _, _, htree', hresult, ?_⟩
    rw [hresult]
    refine Operator.gives_apply ?_ ?_ op x y
    · show (Draft.complete left).span.first.offset = 0
      rw [Draft.complete, Expr.span_map, hfirst]
    · rw [Draft.complete, Expr.span_map, hsecond]

theorem outcome_negation {watched : Bool} {name a : String} {da : Derivation .expression}
    {x : Binary64} (ha : (Scanner.ofText a).Tiled name (da.word.map .ok))
    (hx : (Draft.complete da.draft).value = .ok x) :
    ((calculate watched name (negationText a)).outcome = none ↔ ¬ LeavesRoom 7 name a) ∧
      ∀ c, (calculate watched name (negationText a)).outcome = some c → c.result = .ok x.neg := by
  obtain ⟨d, operand, span, htiled, hdraft, hoperand, hnesting⟩ := exists_negation ha
  have hheight : d.draft.height = da.draft.height + 1 := by
    rw [hdraft, Expr.height, hoperand.height_eq]
  have htree : Draft.complete d.draft = .negate (Draft.complete operand) span := by
    rw [hdraft]
    rfl
  have hvalue := Expr.value_negate (hoperand.complete.valueWithin_eq_ok hx) span
  rw [← htree, Draft.height_complete] at hvalue
  have hresult : (Except.ok x.neg : Except ArithmeticFault Binary64).mapError Halt.fault =
      .ok x.neg := rfl
  rw [← hresult] at hvalue
  obtain ⟨hnone, hsome⟩ := outcome_of_word htiled hvalue watched
  constructor
  · rw [hnone, leavesRoom_iff ha, hnesting, hheight]
  · intro c hc
    exact (hsome c hc).2

/-- **Calculating is compositional in the text**: if two texts have values, then the text that is
made of them with an operator comes to what the operation gives on their values — their sum,
difference or product, the quotient or the fault of a zero divisor, the power or one of its faults —
and the text that is made of the first of them with a minus sign has its value with the other sign.
Only where there is no room for one more level around them are they given up. -/
theorem outcome_composed {watched : Bool} {name a b : String} {ca cb : Calculation} {x y : Binary64}
    (ha : (calculate watched name a).outcome = some ca) (hx : ca.result = .ok x)
    (hb : (calculate watched name b).outcome = some cb) (hy : cb.result = .ok y) :
    (∀ op,
      ((calculate watched name (operationText op a b)).outcome = none ↔
          ¬ (LeavesRoom 6 name a ∧ LeavesRoom 6 name b)) ∧
        ∀ c, (calculate watched name (operationText op a b)).outcome = some c →
          ∃ left right span, c.tree = some (.binary op left right span) ∧
            c.result = (op.apply left right span x y).mapError .arithmetic ∧
            op.Gives a.length x y c.result) ∧
      ((calculate watched name (negationText a)).outcome = none ↔ ¬ LeavesRoom 7 name a) ∧
      ∀ c, (calculate watched name (negationText a)).outcome = some c → c.result = .ok x.neg := by
  obtain ⟨da, htiledA, hvalueA⟩ := exists_word_of_outcome ha hx
  obtain ⟨db, htiledB, hvalueB⟩ := exists_word_of_outcome hb hy
  constructor
  · intro op
    exact outcome_operation htiledA hvalueA htiledB hvalueB op
  · exact outcome_negation htiledA hvalueA

theorem exists_outcome_of_value {watched : Bool} {name text : String} {x : Binary64}
    (h : ((calculate watched name text).outcome.bind fun c => c.result.toOption) = some x) :
    ∃ c, (calculate watched name text).outcome = some c ∧ c.result = .ok x := by
  obtain ⟨c, hc, hresult⟩ := Option.bind_eq_some_iff.1 h
  refine ⟨c, hc, ?_⟩
  cases hvalue : c.result with
  | error failure =>
    rw [hvalue] at hresult
    cases hresult
  | ok y =>
    rw [hvalue] at hresult
    obtain rfl : y = x := Option.some.inj hresult
    rfl

/-- The quotient of a number and a difference that is zero fails where the difference begins, and
the number with a minus sign has a value. -/
theorem outcome_composed_quotient :
    ∃ ca cb x y, (calculate false defaultName "12").outcome = some ca ∧ ca.result = .ok x ∧
      (calculate false defaultName " 3-3").outcome = some cb ∧ cb.result = .ok y ∧
      (∃ c divisor, (calculate false defaultName "(12)/( 3-3)").outcome = some c ∧
        c.result = .error (.arithmetic (.zeroDivisor divisor)) ∧
        divisor.span.first.offset = 5) ∧
      ∃ c, (calculate false defaultName "-(12)").outcome = some c ∧ c.result = .ok x.neg := by
  have htwelve : ((calculate false defaultName "12").outcome.bind fun c =>
      c.result.toOption).isSome = true := by decide +kernel
  have hzero : ((calculate false defaultName " 3-3").outcome.bind fun c =>
      c.result.toOption) = some (.signed false .zero) := by decide +kernel
  obtain ⟨x, hx⟩ := Option.isSome_iff_exists.1 htwelve
  obtain ⟨ca, ha, hx⟩ := exists_outcome_of_value hx
  obtain ⟨cb, hb, hy⟩ := exists_outcome_of_value hzero
  obtain ⟨hoperation, -, hnegation⟩ := outcome_composed ha hx hb hy
  have hquotient : (calculate false defaultName "(12)/( 3-3)").outcome.isSome = true := by
    decide +kernel
  have hnegative : (calculate false defaultName "-(12)").outcome.isSome = true := by decide +kernel
  obtain ⟨c, hc⟩ := Option.isSome_iff_exists.1 hquotient
  obtain ⟨c', hc'⟩ := Option.isSome_iff_exists.1 hnegative
  obtain ⟨-, -, -, -, -, hgives⟩ := (hoperation .div).2 c hc
  refine ⟨ca, cb, x, .signed false .zero, ha, hx, hb, hy, ?_, c', hc', hnegation c' hc'⟩
  -- of the two ways in which a quotient comes out, the divisor leaves only the fault
  generalize hresult : c.result = result at hgives
  cases hgives with
  | quotient hdivisor => cases hdivisor
  | zeroDivisor hdivisor hplace => exact ⟨c, _, hc, hresult, hplace⟩

end Calculator
