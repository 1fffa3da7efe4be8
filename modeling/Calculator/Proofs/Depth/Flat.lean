import Calculator.Proofs.Calculation.Overflow
import Calculator.Proofs.Depth.Peak

/-!
# Texts that are hardly nested

A text is shallow if only few signs and parentheses are open at each of its tokens.  Reading such a
text never goes too deep, however long it is.  Evaluating it may: operands side by side are joined
one by one, so that a long sum is an expression with one level more than it has operators, and every
level has to be paid for.  So a shallow text is given up only if its expression has too many levels,
for which it needs nearly as many operators, and a sum of more than 500 ones is given up although
nothing is open in it at all.

## Main definitions

* `operatorCount` — the number of operators among some tokens.
* `Shallow` — a text with few signs and parentheses open at each token.
* `onesSum` — a sum of ones.

## Main results

* `Reads.height_le` — an expression has one level more than operators at most.
* `Shallow.parse_ne_tooDeep` — reading a shallow text does not go too deep.
* `outcome_of_shallow` — **which shallow texts are given up.**
* `shallow_of_forall` — a text without minus signs and parentheses is shallow.
* `outcome_onesSum_iff` — **which sums of ones are given up.**
-/

namespace Calculator

/-! ### Levels and operators -/

/-- Whether a token of the kind is an operator, with one operand or with two. -/
def Token.Kind.isOperator : Kind → Bool
  | .plus | .minus | .star | .slash | .caret => true
  | _ => false

/-- The number of operators among some tokens. -/
def operatorCount (tokens : List Token) : Nat := tokens.countP fun t => t.kind.isOperator

@[simp] theorem operatorCount_append (tokens more : List Token) :
    operatorCount (tokens ++ more) = operatorCount tokens + operatorCount more :=
  List.countP_append

theorem operatorCount_cons {t : Token} (h : t.kind.isOperator = true) (tokens : List Token) :
    operatorCount (t :: tokens) = operatorCount tokens + 1 :=
  List.countP_cons_of_pos h

theorem Level.isOperator_of_precedence {l : Level} {kind : Token.Kind} {op : Operator}
    (h : l.precedence kind = some op) : kind.isOperator = true := by
  cases l <;> cases kind <;> first | rfl | cases h

mutual

/-- The expression of a derivation has one level more than its word has operators at most. -/
theorem Derivation.height_draft_le {c : Category} (d : Derivation c) :
    d.draft.height ≤ operatorCount d.word + 1 := by
  -- by recursion on the derivation: a rule that adds a level has an operator in its word
  match d with
  | .level first more =>
    have hfirst := first.height_draft_le
    have hmore := more.height_foldl_le first.draft
    rw [Derivation.draft, Derivation.word, operatorCount_append]
    exact Nat.le_trans hmore (by omega)
  | .minus sign hsign operand =>
    have hoperand := operand.height_draft_le
    rw [Derivation.draft, Derivation.word, Expr.height, operatorCount_cons (by rw [hsign]; rfl)]
    omega
  | .plain phrase =>
    rw [Derivation.draft, Derivation.word]
    exact phrase.height_draft_le
  | .number t ht =>
    rw [Derivation.draft, Expr.height]
    exact Nat.le_add_left ..
  | .group opener hopener inner closer hcloser =>
    have hinner := inner.height_draft_le
    have hword : operatorCount inner.word ≤ operatorCount (opener :: (inner.word ++ [closer])) := by
      refine List.Sublist.countP_le ?_
      exact (List.sublist_append_left ..).cons opener
    rw [Derivation.draft, Derivation.word, Expr.height_withSpan]
    omega

/-- Every operator of a continuation adds one level at most, and so does each in its operands. -/
theorem Continuation.height_foldl_le {l : Level} (k : Continuation l) (left : Draft) :
    (k.drafts.foldl (fun left (op, right) => Expr.join op left right) left).height ≤
      left.height + operatorCount k.word := by
  match k with
  | .done =>
    rw [Continuation.drafts]
    exact Nat.le_add_right ..
  | .step sign op hop operand more =>
    have hoperand := operand.height_draft_le
    have hmore := more.height_foldl_le (.join op left operand.draft)
    have hjoin : (Expr.join op left operand.draft).height =
        max left.height operand.draft.height + 1 := rfl
    have hpos := Expr.height_pos left
    rw [Continuation.drafts, Continuation.word, List.foldl_cons,
      operatorCount_cons (Level.isOperator_of_precedence hop), operatorCount_append]
    exact Nat.le_trans hmore (by omega)

end

/-- **An expression has one level more than its tokens have operators** at most. -/
theorem Reads.height_le {name text : String} {tokens : List Token} {tree : Expr Binary64}
    (h : Reads name text tokens tree) : tree.height ≤ operatorCount tokens + 1 := by
  obtain ⟨d, rfl, -, rfl, -⟩ := h.exists_derivation
  have hheight := d.height_draft_le
  rw [Draft.height_complete, operatorCount_append]
  omega

/-! ### Shallow texts -/

/-- At no token of the text more signs and parentheses than `depth` are open together.  A text that
is not scanned has no tokens, and behind a token that cannot follow nothing is looked at. -/
def Shallow (depth : Nat) (name text : String) : Prop :=
  ∀ tokens, tokenize name text = .ok tokens → ∀ n p,
    Pending.start.after? (tokens.take n) = some p → p.opened.length ≤ depth

namespace Shallow

variable {name text : String}

theorem mono {depth depth' : Nat} (h : Shallow depth name text) (hle : depth ≤ depth') :
    Shallow depth' name text :=
  fun tokens htokens n p hp => Nat.le_trans (h tokens htokens n p hp) hle

theorem of_openerCount_le {depth : Nat}
    (h : ∀ tokens, tokenize name text = .ok tokens → openerCount tokens ≤ depth) :
    Shallow depth name text := by
  intro tokens htokens n p hp
  calc p.opened.length ≤ 0 + openerCount (tokens.take n) := Pending.length_opened_le hp
    _ = openerCount (tokens.take n) := Nat.zero_add _
    _ ≤ openerCount tokens := (List.take_sublist n tokens).countP_le
    _ ≤ depth := h tokens htokens

theorem peak_le {depth : Nat} (h : Shallow depth name text) {tokens : List Token}
    (htokens : tokenize name text = .ok tokens) : Pending.start.peak tokens ≤ 6 * depth := by
  rw [Pending.peak_le_iff]
  intro n p hp
  calc price p.opened ≤ 6 * p.opened.length := price_le p.opened
    _ ≤ 6 * depth := Nat.mul_le_mul_left 6 (h tokens htokens n p hp)

theorem parse_ne_tooDeep (h : Shallow 50 name text) {tokens : List Token}
    (htokens : tokenize name text = .ok tokens) : parse tokens ≠ .error .tooDeep := by
  intro hdeep
  -- fifty parentheses at six each are far below the allowance
  have hlow : Pending.start.peak tokens ≤ 300 := h.peak_le htokens
  have hhigh : 1000 < Pending.start.peak tokens := (parse_eq_tooDeep_iff tokens).1 hdeep
  omega

end Shallow

/-- A text that is read is given up exactly if evaluating its expression goes too deep, or writing
it if it is watched. -/
theorem Reads.outcome_eq_none_iff {name text : String} {tokens : List Token} {tree : Expr Binary64}
    (h : Reads name text tokens tree) (watched : Bool) :
    (calculate watched name text).outcome = none ↔
      tree.value = .error .tooDeep ∨ watched = true ∧ allowance < tree.height := by
  rw [calculate_of_reads h, outcome_calculateTree]
  by_cases hwatched : watched = true ∧ allowance < tree.height
  · rw [if_pos hwatched]
    exact iff_of_true rfl (Or.inr hwatched)
  · rw [if_neg hwatched, evaluation]
    split
    · rename_i hvalue
      rw [hvalue]
      simp [hwatched]
    · rename_i hfault
      rw [hfault]
      simp [hwatched]
    · rename_i hdeep
      exact iff_of_true rfl (Or.inl hdeep)

/-- An expression without a fault is evaluated exactly if there is room for its levels. -/
theorem Expr.value_eq_tooDeep_iff {e : Expr Binary64} (h : ∀ n ∈ e.nodes, ¬ n.Faulty) :
    e.value = .error .tooDeep ↔ allowance < 2 * e.height := by
  constructor
  · intro hdeep
    exact Nat.lt_of_not_le fun hroom => valueWithin_ne_tooDeep hroom hdeep
  · intro hlt
    -- what has neither a fault nor too many levels has a value, and that costs two for each level
    have houtcome := e.outcome_valueWithin allowance
    rw [value]
    cases hvalue : e.valueWithin allowance with
    | ok x =>
      have hle := height_le_of_valueWithin hvalue
      omega
    | error halt =>
      rw [hvalue] at houtcome
      cases houtcome with
      | tooDeep => rfl
      | fault hfirst hfault => exact absurd hfirst.holds (h _ hfirst.mem)

/-- **Which shallow texts are given up.**  If no more than 50 signs and parentheses are open at any
token, a text of any length is given up exactly if it is read as an expression that is too deep to
be evaluated, or to be written if it is watched.  Such an expression has more than 500 levels, for
which the text needs 500 operators; and every text with more levels and without a fault is given
up. -/
theorem outcome_of_shallow {name text : String} (h : Shallow 50 name text) (watched : Bool) :
    ((calculate watched name text).outcome = none ↔
        ∃ tokens tree, Reads name text tokens tree ∧
          (tree.value = .error .tooDeep ∨ watched = true ∧ allowance < tree.height)) ∧
      ∀ tokens tree, Reads name text tokens tree →
        tree.height ≤ operatorCount tokens + 1 ∧
          ((calculate watched name text).outcome = none → allowance < 2 * tree.height) ∧
          ((∀ n ∈ tree.nodes, ¬ n.Faulty) → allowance < 2 * tree.height →
            (calculate watched name text).outcome = none) := by
  refine ⟨⟨?_, ?_⟩, ?_⟩
  · intro hnone
    have hstaged := staged_calculate watched name text
    rw [hnone] at hstaged
    -- a calculation is given up at one of three stages, and a shallow text passes the first
    cases hstaged with
    | unread htokens hdeep => exact absurd hdeep (h.parse_ne_tooDeep htokens)
    | unwritten hreads hwatched hheight => exact ⟨_, _, hreads, Or.inr ⟨hwatched, hheight⟩⟩
    | unevaluated hreads hdeep => exact ⟨_, _, hreads, Or.inl hdeep⟩
  · rintro ⟨tokens, tree, hreads, hdeep⟩
    exact (hreads.outcome_eq_none_iff watched).2 hdeep
  · intro tokens tree hreads
    refine ⟨hreads.height_le, hreads.lt_height_of_outcome, ?_⟩
    intro hsound hlt
    exact (hreads.outcome_eq_none_iff watched).2 (Or.inl ((Expr.value_eq_tooDeep_iff hsound).2 hlt))

/-- In `-(1+2)*3` nothing is open that 50 would not allow, and it is not given up. -/
theorem outcome_of_shallow_negated_group :
    Shallow 50 defaultName "-(1+2)*3" ∧
      (calculate true defaultName "-(1+2)*3").outcome ≠ none := by
  have hoperators : (tokenize defaultName "-(1+2)*3").toOption.map operatorCount = some 3 := by
    decide +kernel
  have hopeners : (tokenize defaultName "-(1+2)*3").toOption.map openerCount = some 2 := by
    decide +kernel
  have hshallow : Shallow 50 defaultName "-(1+2)*3" := by
    refine .of_openerCount_le ?_
    intro tokens h
    rw [h] at hopeners
    have htwo : openerCount tokens = 2 := Option.some.inj hopeners
    omega
  refine ⟨hshallow, ?_⟩
  intro hnone
  obtain ⟨hgivenUp, hreads⟩ := outcome_of_shallow hshallow true
  obtain ⟨tokens, tree, hread, -⟩ := hgivenUp.1 hnone
  obtain ⟨hheight, hlow, -⟩ := hreads tokens tree hread
  have hdeep := hlow hnone
  rw [hread.1] at hoperators
  have hthree : operatorCount tokens = 3 := Option.some.inj hoperators
  have hroom : allowance = 1000 := rfl
  omega

/-! ### Flat texts -/

theorem Piece.Fits.opens {t : Token} {rest : List Char} (h : Fits (.ok t) rest)
    (ht : t.kind.opens = true) : '-' ∈ characters (.ok t) ∨ '(' ∈ characters (.ok t) := by
  cases h with
  | number hlexeme hfinite => cases ht
  | @symbol c kind _ _ hkind =>
    have hall : ∀ entry ∈ Token.Kind.symbols, entry.2.opens = true →
        entry.1 = '-' ∨ entry.1 = '(' := by decide
    rcases hall _ (Token.Kind.mem_symbols hkind) ht with rfl | rfl <;> simp [characters]

/-- **In a text without minus signs and parentheses nothing is open**, whatever else is in it. -/
theorem shallow_of_not_mem {text : String} (hminus : '-' ∉ text.toList) (hparen : '(' ∉ text.toList)
    (name : String) : Shallow 0 name text := by
  refine .of_openerCount_le ?_
  intro tokens htokens
  obtain ⟨front, rfl, htiled, -⟩ := exists_tiled_of_tokenize htokens
  rw [openerCount, Nat.le_zero, List.countP_eq_zero]
  intro t ht hopens
  -- the characters of a token are characters of the text, and the end has none
  rcases List.mem_append.1 ht with ht | ht
  · obtain ⟨before, after, hahead, -, hfits⟩ :=
      htiled.stands (List.mem_map_of_mem (f := Except.ok) ht)
    have hmem : ∀ c ∈ Piece.characters (.ok t), c ∈ text.toList := by
      intro c hc
      show c ∈ (Scanner.ofText text).ahead
      rw [hahead]
      simp [hc]
    exact (hfits.opens hopens).elim (fun h => hminus (hmem _ h)) (fun h => hparen (hmem _ h))
  · obtain rfl := List.mem_singleton.1 ht
    cases hopens

/-- A sum of `n + 1` ones. -/
def onesSum (n : Nat) : String := String.ofList ('1' :: onesBehind '+' n)

theorem shallow_onesSum (n : Nat) (name : String) : Shallow 0 name (onesSum n) := by
  have hmem : ∀ c ∈ (onesSum n).toList, c = '1' ∨ c = '+' := by
    rw [onesSum, String.toList_ofList]
    have hbehind : ∀ c ∈ onesBehind '+' n, c = '1' ∨ c = '+' := by
      induction n with
      | zero => simp [onesBehind]
      | succ n ih => simpa [onesBehind] using ih
    simpa using hbehind
  refine shallow_of_not_mem ?_ ?_ name
  · intro h
    rcases hmem _ h with h | h <;> cases h
  · intro h
    rcases hmem _ h with h | h <;> cases h

namespace Expr

/-- Joining literals to the right of an expression adds one level for each of them. -/
theorem height_foldl_join_literals {α : Type} {operands : List (Operator × Expr α)}
    (h : ∀ entry ∈ operands, entry.2.height = 1) (first : Expr α) :
    (operands.foldl (fun left (op, right) => join op left right) first).height =
      first.height + operands.length := by
  induction operands generalizing first with
  | nil => rfl
  | cons operand operands ih =>
    obtain ⟨op, right⟩ := operand
    have hright : right.height = 1 := h (op, right) List.mem_cons_self
    have hpos := height_pos first
    have hjoin : (join op first right).height = max first.height right.height + 1 := rfl
    have hlater := ih (fun entry hentry => h entry (List.mem_cons_of_mem _ hentry))
      (join op first right)
    rw [List.length_cons]
    exact hlater.trans (by omega)

/-- Sums have no faults of their own. -/
theorem not_faulty_foldl_add {terms : List (Operator × Draft)} {first : Draft}
    (hfirst : ∀ n ∈ (Draft.complete first).nodes, ¬ n.Faulty)
    (h : ∀ entry ∈ terms, entry.1 = .add ∧ ∀ n ∈ (Draft.complete entry.2).nodes, ¬ n.Faulty) :
    ∀ n ∈ (Draft.complete
      (terms.foldl (fun left (op, right) => join op left right) first)).nodes, ¬ n.Faulty := by
  induction terms generalizing first with
  | nil => exact hfirst
  | cons term terms ih =>
    obtain ⟨op, right⟩ := term
    obtain ⟨rfl, hright⟩ := h (op, right) List.mem_cons_self
    refine ih ?_ fun entry hentry => h entry (List.mem_cons_of_mem _ hentry)
    rw [Draft.complete, map_join]
    intro n hn
    rcases mem_nodes.1 hn with hn | rfl
    · exact (List.mem_append.1 hn).elim (hfirst n) (hright n)
    · rintro ⟨fault, hfault⟩
      cases hfault

end Expr

/-- The derivation of the text `1+1+…+1`, if its first digit stands in this place. -/
def sumDerivation (place : Location) (sum : Continuation .additive) : Derivation .expression :=
  .level (.ofDigit '1' place _) sum

theorem exists_reads_onesSum (name : String) (n : Nat) :
    ∃ tokens tree, Reads name (onesSum n) tokens tree ∧ (∀ m ∈ tree.nodes, ¬ m.Faulty) ∧
      tree.height = n + 1 := by
  let s := Scanner.ofText (onesSum n)
  let place := s.location name
  have hahead : s.ahead = '1' :: onesBehind '+' n := String.toList_ofList
  have hmore : (s.advanceBy 1).ahead = onesBehind '+' n := by simp [hahead]
  obtain ⟨sum, htiled, hnesting, hlength, hones⟩ := exists_chain name .additive .add rfl rfl hmore
  have hword : (sumDerivation place sum).word = .ofDigit '1' place :: sum.word := by
    simp only [sumDerivation, Derivation.word, Derivation.word_ofDigit, List.singleton_append]
  have hdraft : (sumDerivation place sum).draft =
      sum.drafts.foldl (fun left (op, right) => Expr.join op left right)
        (.literal (some (.signed false .one)) ⟨place, place⟩) := by
    simp only [sumDerivation, Derivation.draft, Derivation.draft_ofDigit, nearest_one]
  have hroom : (sumDerivation place sum).nesting ≤ allowance := by
    simp only [sumDerivation, Derivation.nesting, Derivation.nesting_ofDigit, hnesting,
      Nat.max_self]
    exact Nat.zero_le _
  have htiling : s.Tiled name ((sumDerivation place sum).word.map .ok) := by
    rw [hword]
    exact .digit hahead rfl isFinite_nearest_one (head?_onesBehind rfl n) htiled
  obtain ⟨l, htokens⟩ := tokenize_of_tiled htiling
  have hparse := parse_word_append hroom (show (Token.finish l).kind = .finish from rfl)
  refine ⟨_, _, ⟨htokens, hparse⟩, ?_, ?_⟩
  · rw [hdraft]
    refine Expr.not_faulty_foldl_add ?_ ?_
    · intro m hm
      obtain rfl := List.mem_singleton.1 hm
      exact Expr.not_faulty_literal _ _
    · intro entry hentry
      obtain ⟨span, rfl⟩ := hones entry hentry
      refine ⟨rfl, ?_⟩
      intro m hm
      obtain rfl := List.mem_singleton.1 hm
      exact Expr.not_faulty_literal _ _
  · rw [Draft.height_complete, hdraft, Expr.height_foldl_join_literals, hlength, Expr.height,
      Nat.add_comm]
    intro entry hentry
    obtain ⟨span, rfl⟩ := hones entry hentry
    rfl

/-- **Which sums of ones are given up**: those of more than 500. -/
theorem outcome_onesSum_iff (name : String) (n : Nat) :
    (calculate false name (onesSum n)).outcome = none ↔ 500 ≤ n := by
  obtain ⟨tokens, tree, hreads, hsound, hheight⟩ := exists_reads_onesSum name n
  have hnone := hreads.outcome_eq_none_iff false
  rw [Expr.value_eq_tooDeep_iff hsound, hheight] at hnone
  have hroom : 1000 < 2 * (n + 1) ↔ 500 ≤ n := by omega
  rw [hnone, ← hroom]
  constructor
  · rintro (hlt | ⟨hwatched, -⟩)
    · exact hlt
    · cases hwatched
  · exact Or.inl

/-- **A text that is given up without anything open in it**: the sum of 2001 ones. -/
theorem outcome_onesSum :
    Shallow 50 defaultName (onesSum 2000) ∧
      (calculate false defaultName (onesSum 2000)).outcome = none :=
  ⟨(shallow_onesSum 2000 defaultName).mono (Nat.zero_le 50),
    (outcome_onesSum_iff defaultName 2000).2 (by decide)⟩

end Calculator
