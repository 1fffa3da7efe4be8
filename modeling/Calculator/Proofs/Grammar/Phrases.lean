import Calculator.Proofs.Grammar.Rendering
import Calculator.Proofs.Scan.Places

/-!
# The phrases of an expression

Every node of an expression that was read from tokens was read from some of them that stand side by
side, and these alone are read as the node again.  The span of the node goes from the first of them
to the last.

## Main definitions

* `Derivation.moved`, `Continuation.moved` — derivations of tokens in other places.
* `HasPhrase` — some tokens hold a phrase that is read as an expression.

## Main results

* `Derivation.draft_moved` — tokens in other places are read as the expression in other places.
* `Derivation.exists_draft` — numbers with values are read as an expression of numbers.
* `Derivation.exists_first`, `Derivation.exists_last` — where a phrase begins and ends.
* `Derivation.hasPhrase_of_mem_nodes` — **every node has a phrase.**
-/

namespace Calculator

/-! ### Other places -/

mutual

/-- The derivation of the tokens in other places. -/
def Derivation.moved (g : Location → Location) : {c : Category} → Derivation c → Derivation c
  | _, .level first more => .level (first.moved g) (more.moved g)
  | _, .minus sign hsign operand =>
    .minus (sign.moved g) ((sign.kind_moved g).trans hsign) (operand.moved g)
  | _, .plain phrase => .plain (phrase.moved g)
  | _, .number t ht => .number (t.moved g) ((t.kind_moved g).trans ht)
  | _, .group opener hopener inner closer hcloser =>
    .group (opener.moved g) ((opener.kind_moved g).trans hopener) (inner.moved g) (closer.moved g)
      ((closer.kind_moved g).trans hcloser)

/-- The continuation with the tokens in other places. -/
def Continuation.moved (g : Location → Location) : {l : Level} → Continuation l → Continuation l
  | _, .done => .done
  | l, .step sign op hop operand more =>
    .step (sign.moved g) op ((congrArg l.precedence (sign.kind_moved g)).trans hop)
      (operand.moved g) (more.moved g)

end

mutual

theorem Derivation.word_moved (g : Location → Location) {c : Category} (d : Derivation c) :
    (d.moved g).word = d.word.map (Token.moved g) := by
  match d with
  | .level first more =>
    rw [Derivation.moved, Derivation.word, Derivation.word, first.word_moved, more.word_moved,
      List.map_append]
  | .minus sign hsign operand =>
    rw [Derivation.moved, Derivation.word, Derivation.word, operand.word_moved, List.map_cons]
  | .plain phrase => rw [Derivation.moved, Derivation.word, Derivation.word, phrase.word_moved]
  | .number t ht => rfl
  | .group opener hopener inner closer hcloser =>
    rw [Derivation.moved, Derivation.word, Derivation.word, inner.word_moved, List.map_cons,
      List.map_append, List.map_singleton]

theorem Continuation.word_moved (g : Location → Location) {l : Level} (k : Continuation l) :
    (k.moved g).word = k.word.map (Token.moved g) := by
  match k with
  | .done => rw [Continuation.moved, Continuation.word, List.map_nil]
  | .step sign op hop operand more =>
    rw [Continuation.moved, Continuation.word, Continuation.word, operand.word_moved,
      more.word_moved, List.map_cons, List.map_append]

end

mutual

theorem Derivation.nesting_moved (g : Location → Location) {c : Category} (d : Derivation c) :
    (d.moved g).nesting = d.nesting := by
  match d with
  | .level first more =>
    rw [Derivation.moved, Derivation.nesting, Derivation.nesting, first.nesting_moved,
      more.nesting_moved]
  | .minus sign hsign operand =>
    rw [Derivation.moved, Derivation.nesting, Derivation.nesting, operand.nesting_moved]
  | .plain phrase =>
    rw [Derivation.moved, Derivation.nesting, Derivation.nesting, phrase.nesting_moved]
  | .number t ht => rfl
  | .group opener hopener inner closer hcloser =>
    rw [Derivation.moved, Derivation.nesting, Derivation.nesting, inner.nesting_moved]

theorem Continuation.nesting_moved (g : Location → Location) {l : Level} (k : Continuation l) :
    (k.moved g).nesting = k.nesting := by
  match k with
  | .done => rfl
  | .step sign op hop operand more =>
    rw [Continuation.moved, Continuation.nesting, Continuation.nesting, operand.nesting_moved,
      more.nesting_moved]

end

/-- What keeps operations keeps operations that are written one after the other. -/
theorem Expr.foldl_join {α β : Type} {f : Expr α → Expr β}
    (hf : ∀ op left right, f (join op left right) = join op (f left) (f right))
    (operands : List (Operator × Expr α)) (first : Expr α) :
    f (operands.foldl (fun left (op, right) => join op left right) first) =
      (operands.map (Prod.map id f)).foldl (fun left (op, right) => join op left right)
        (f first) := by
  induction operands generalizing first with
  | nil => rfl
  | cons operand operands ih =>
    obtain ⟨op, right⟩ := operand
    rw [List.foldl_cons, ih, hf]
    rfl

mutual

theorem Derivation.draft_moved (g : Location → Location) {c : Category} (d : Derivation c) :
    (d.moved g).draft = d.draft.moved g := by
  match d with
  | .level first more =>
    rw [Derivation.moved, Derivation.draft, Derivation.draft, first.draft_moved, more.drafts_moved,
      Expr.foldl_join (Expr.moved_join g)]
  | .minus sign hsign operand =>
    rw [Derivation.moved, Derivation.draft, Derivation.draft, operand.draft_moved, Expr.moved,
      Expr.span_moved]
    rfl
  | .plain phrase => rw [Derivation.moved, Derivation.draft, Derivation.draft, phrase.draft_moved]
  | .number t ht => rfl
  | .group opener hopener inner closer hcloser =>
    rw [Derivation.moved, Derivation.draft, Derivation.draft, inner.draft_moved,
      Expr.moved_withSpan]
    rfl

theorem Continuation.drafts_moved (g : Location → Location) {l : Level} (k : Continuation l) :
    (k.moved g).drafts = k.drafts.map (Prod.map id (Expr.moved g)) := by
  match k with
  | .done => rfl
  | .step sign op hop operand more =>
    rw [Continuation.moved, Continuation.drafts, Continuation.drafts, operand.draft_moved,
      more.drafts_moved, List.map_cons]
    rfl

end

/-! ### Values -/

mutual

/-- If every number has a value, the expression that is read is one of numbers. -/
theorem Derivation.exists_draft {c : Category} (d : Derivation c)
    (h : ∀ t ∈ d.word, t.kind = .number → t.value ≠ none) :
    ∃ e : Expr Binary64, d.draft = e.draft := by
  match d with
  | .level first more =>
    rw [Derivation.word] at h
    obtain ⟨e, he⟩ := first.exists_draft fun t ht => h t (List.mem_append_left _ ht)
    obtain ⟨es, hes⟩ := more.exists_drafts fun t ht => h t (List.mem_append_right _ ht)
    -- the operands are joined as they are, with or without the gaps for values
    refine ⟨es.foldl (fun left (op, right) => .join op left right) e, ?_⟩
    rw [Derivation.draft, he, hes]
    exact (Expr.foldl_join (Expr.map_join some) es e).symm
  | .minus sign hsign operand =>
    rw [Derivation.word] at h
    obtain ⟨e, he⟩ := operand.exists_draft fun t ht => h t (List.mem_cons_of_mem _ ht)
    refine ⟨.negate e ⟨sign.location, operand.draft.span.last⟩, ?_⟩
    rw [Derivation.draft, he]
    rfl
  | .plain phrase =>
    rw [Derivation.word] at h
    rw [Derivation.draft]
    exact phrase.exists_draft h
  | .number t ht =>
    have hvalue := h t (by rw [Derivation.word]; exact List.mem_singleton_self t) ht
    obtain ⟨x, hx⟩ := Option.ne_none_iff_exists'.1 hvalue
    refine ⟨.literal x ⟨t.location, t.location⟩, ?_⟩
    rw [Derivation.draft, hx]
    rfl
  | .group opener hopener inner closer hcloser =>
    rw [Derivation.word] at h
    obtain ⟨e, he⟩ := inner.exists_draft fun t ht =>
      h t (List.mem_cons_of_mem _ (List.mem_append_left _ ht))
    refine ⟨e.withSpan ⟨opener.location, closer.location⟩, ?_⟩
    rw [Derivation.draft, he, Expr.draft, Expr.draft, Expr.map_withSpan]

theorem Continuation.exists_drafts {l : Level} (k : Continuation l)
    (h : ∀ t ∈ k.word, t.kind = .number → t.value ≠ none) :
    ∃ es : List (Operator × Expr Binary64), k.drafts = es.map (Prod.map id Expr.draft) := by
  match k with
  | .done => exact ⟨[], by rw [Continuation.drafts, List.map_nil]⟩
  | .step sign op hop operand more =>
    rw [Continuation.word] at h
    obtain ⟨e, he⟩ := operand.exists_draft fun t ht =>
      h t (List.mem_cons_of_mem _ (List.mem_append_left _ ht))
    obtain ⟨es, hes⟩ := more.exists_drafts fun t ht =>
      h t (List.mem_cons_of_mem _ (List.mem_append_right _ ht))
    refine ⟨(op, e) :: es, ?_⟩
    rw [Continuation.drafts, he, hes, List.map_cons]
    rfl

end

/-! ### Spans -/

theorem Expr.first_foldl_join {α : Type} (operands : List (Operator × Expr α)) (first : Expr α) :
    (operands.foldl (fun left (op, right) => join op left right) first).span.first =
      first.span.first := by
  -- what is joined on the right does not move the beginning
  induction operands generalizing first with
  | nil => rfl
  | cons operand operands ih =>
    obtain ⟨op, right⟩ := operand
    rw [List.foldl_cons, ih, span_join]

theorem Derivation.exists_first {c : Category} (d : Derivation c) :
    ∃ t more, d.word = t :: more ∧ t.location = d.draft.span.first := by
  match d with
  | .level first more =>
    obtain ⟨t, behind, hword, ht⟩ := first.exists_first
    refine ⟨t, behind ++ more.word, ?_, ?_⟩
    · rw [Derivation.word, hword, List.cons_append]
    · rw [Derivation.draft, Expr.first_foldl_join, ht]
  | .minus sign hsign operand => exact ⟨sign, operand.word, by rw [Derivation.word], rfl⟩
  | .plain phrase =>
    rw [Derivation.word, Derivation.draft]
    exact phrase.exists_first
  | .number t ht => exact ⟨t, [], by rw [Derivation.word], rfl⟩
  | .group opener hopener inner closer hcloser =>
    refine ⟨opener, inner.word ++ [closer], by rw [Derivation.word], ?_⟩
    rw [Derivation.draft, Expr.span_withSpan]

mutual

/-- The span of a phrase ends with its last token. -/
theorem Derivation.exists_last {c : Category} (d : Derivation c) :
    ∃ front t, d.word = front ++ [t] ∧ t.location = d.draft.span.last := by
  match d with
  | .level first more =>
    obtain ⟨front, t, hword, ht⟩ := first.exists_last
    rw [Derivation.word, Derivation.draft, hword]
    exact more.exists_last front ht
  | .minus sign hsign operand =>
    obtain ⟨front, t, hword, ht⟩ := operand.exists_last
    exact ⟨sign :: front, t, by rw [Derivation.word, hword, List.cons_append], ht⟩
  | .plain phrase =>
    rw [Derivation.word, Derivation.draft]
    exact phrase.exists_last
  | .number t ht => exact ⟨[], t, by rw [Derivation.word, List.nil_append], rfl⟩
  | .group opener hopener inner closer hcloser =>
    refine ⟨opener :: inner.word, closer, by rw [Derivation.word, List.cons_append], ?_⟩
    rw [Derivation.draft, Expr.span_withSpan]

/-- The span of a phrase with more operands ends with its last token. -/
theorem Continuation.exists_last {l : Level} (k : Continuation l) {left : Draft}
    (before : List Token) {t : Token} (ht : t.location = left.span.last) :
    ∃ front t', before ++ [t] ++ k.word = front ++ [t'] ∧ t'.location =
      (k.drafts.foldl (fun left (op, right) => Expr.join op left right) left).span.last := by
  match k with
  | .done => exact ⟨before, t, by rw [Continuation.word, List.append_nil], ht⟩
  | .step sign op hop operand more =>
    obtain ⟨front, t', hword, ht'⟩ := operand.exists_last
    rw [Continuation.word, Continuation.drafts, List.foldl_cons, hword]
    -- what has been joined so far ends with the operand
    have hjoin : t'.location = (Expr.join op left operand.draft).span.last := ht'
    obtain ⟨front', t'', hmore, ht''⟩ := more.exists_last (before ++ [t] ++ sign :: front) hjoin
    refine ⟨front', t'', ?_, ht''⟩
    rw [← hmore]
    simp

end

/-! ### Nodes -/

/-- The tokens hold a phrase, nested no deeper than it says, that is read as the expression. -/
def HasPhrase (word : List Token) (depth : Nat) (e : Draft) : Prop :=
  ∃ d : Derivation .expression, d.draft = e ∧ d.word <:+: word ∧ d.nesting ≤ depth

theorem HasPhrase.mono {word word' : List Token} {depth depth' : Nat} {e : Draft}
    (h : HasPhrase word depth e) (hword : word <:+: word') (hdepth : depth ≤ depth') :
    HasPhrase word' depth' e := by
  obtain ⟨d, hdraft, hinfix, hnesting⟩ := h
  exact ⟨d, hdraft, hinfix.trans hword, Nat.le_trans hnesting hdepth⟩

theorem Derivation.hasPhrase_self {c : Category} (d : Derivation c) :
    HasPhrase d.word d.nesting d.draft := by
  obtain ⟨d', hword, hdraft, hnesting⟩ :=
    d.exists_looser .expression c.tightness_expression_le
  exact ⟨d', hdraft, hword ▸ List.infix_rfl, Nat.le_of_eq hnesting⟩

theorem Derivation.hasPhrase_of_mem_nodes_of_parts {c : Category} {d : Derivation c}
    (hparts : ∀ e ∈ d.draft.parts, HasPhrase d.word d.nesting e) {e : Draft}
    (he : e ∈ d.draft.nodes) : HasPhrase d.word d.nesting e := by
  rcases Expr.mem_nodes.1 he with he | rfl
  · exact hparts e he
  · exact d.hasPhrase_self

mutual

/-- Every part of an expression has a phrase in the tokens. -/
theorem Derivation.hasPhrase_of_mem_parts {c : Category} (d : Derivation c) :
    ∀ e ∈ d.draft.parts, HasPhrase d.word d.nesting e := by
  match d with
  | .level first more =>
    have hfirst := first.hasPhrase_of_mem_parts
    -- the first operand alone is a phrase of the level
    obtain ⟨left, hword, hdraft, hnesting⟩ :=
      first.exists_looser (.level _) (by rw [Category.tightness_operand]; exact Nat.le_succ _)
    have hleft : ∀ e ∈ left.draft.parts, HasPhrase left.word left.nesting e := by
      rwa [hword, hdraft, hnesting]
    have hmore := more.hasPhrase_of_mem_parts hleft
    rw [hword, hdraft, hnesting] at hmore
    rw [Derivation.word, Derivation.draft, Derivation.nesting]
    exact hmore
  | .minus sign hsign operand =>
    have hoperand := operand.hasPhrase_of_mem_parts
    intro e he
    rw [Derivation.draft, Expr.parts_negate] at he
    rw [Derivation.word, Derivation.nesting]
    have hphrase := Derivation.hasPhrase_of_mem_nodes_of_parts hoperand he
    exact hphrase.mono (List.suffix_cons ..).isInfix (Nat.le_succ _)
  | .plain phrase =>
    have hphrase := phrase.hasPhrase_of_mem_parts
    rw [Derivation.word, Derivation.draft, Derivation.nesting]
    exact hphrase
  | .number t ht =>
    intro e he
    cases he
  | .group opener hopener inner closer hcloser =>
    have hinner := inner.hasPhrase_of_mem_parts
    intro e he
    rw [Derivation.draft, Expr.parts_withSpan] at he
    rw [Derivation.word, Derivation.nesting]
    -- the phrase stands between the parentheses
    exact (hinner e he).mono ⟨[opener], [closer], rfl⟩ (Nat.le_add_right ..)

/-- Every part of a phrase with more operands has a phrase in the tokens. -/
theorem Continuation.hasPhrase_of_mem_parts {l : Level} (k : Continuation l)
    {left : Derivation (.level l)}
    (hleft : ∀ e ∈ left.draft.parts, HasPhrase left.word left.nesting e) :
    ∀ e ∈ (k.drafts.foldl (fun left (op, right) => Expr.join op left right) left.draft).parts,
      HasPhrase (left.word ++ k.word) (max left.nesting k.nesting) e := by
  match k with
  | .done =>
    rw [Continuation.word, Continuation.drafts, Continuation.nesting, List.append_nil, Nat.max_zero]
    exact hleft
  | .step sign op hop operand more =>
    have hoperand := operand.hasPhrase_of_mem_parts
    -- the phrase up to this operand
    obtain ⟨d, hword, hdraft, hnesting⟩ := left.exists_join hop operand
    have hd : ∀ e ∈ d.draft.parts, HasPhrase d.word d.nesting e := by
      intro e he
      rw [hdraft, Expr.parts_join, List.mem_append] at he
      rw [hword, hnesting]
      rcases he with he | he
      · exact (Derivation.hasPhrase_of_mem_nodes_of_parts hleft he).mono
          (List.prefix_append ..).isInfix (Nat.le_max_left ..)
      · exact (Derivation.hasPhrase_of_mem_nodes_of_parts hoperand he).mono
          ⟨left.word ++ [sign], [], by simp⟩ (Nat.le_max_right ..)
    have hmore := more.hasPhrase_of_mem_parts hd
    rw [hword, hdraft, hnesting] at hmore
    rw [Continuation.word, Continuation.drafts, Continuation.nesting, List.foldl_cons,
      ← Nat.max_assoc]
    simpa using hmore

end

/-- **Every node has a phrase**: some of the tokens side by side are read as it. -/
theorem Derivation.hasPhrase_of_mem_nodes {c : Category} (d : Derivation c) {e : Draft}
    (he : e ∈ d.draft.nodes) : HasPhrase d.word d.nesting e :=
  hasPhrase_of_mem_nodes_of_parts d.hasPhrase_of_mem_parts he

end Calculator
