import Calculator.Proofs.Calculation.Composition

/-!
# How spans lie in each other

The span of a node goes from its first token to its last.  The tokens of its operands are among its
own: behind the sign of a negation those of the operand, and in an operation those of the left
operand, the operator and those of the right operand, one behind the other, however many parentheses
stand around all of it.  Since the tokens of a text come in order, the span of an operand lies
inside that of the node, the spans of two operands do not overlap, and nothing but the operator
stands between them.

## Main definitions

* `Span.Covers` — a span goes from the first of some tokens to the last.
* `Expr.LaidOut` — where the tokens of the operands are among those of an expression.
* `Span.Within`, `between` — spans inside other spans, and the tokens between two offsets.
* `Expr.Spaced` — how the spans of the operands of an expression lie.

## Main results

* `Derivation.laidOut` — what is read from tokens is laid out among them.
* `between_eq_singleton` — what is between two tokens next but one to each other.
* `spans_nested` — **the spans of an expression nest, and do not overlap.**
-/

namespace Calculator

/-! ### Tokens of operands -/

/-- The span goes from the first of the tokens to the last. -/
structure Span.Covers (s : Span) (word : List Token) : Prop where
  first : ∃ t more, word = t :: more ∧ t.location = s.first
  last : ∃ front t, word = front ++ [t] ∧ t.location = s.last

/-- The tokens hold those of the operands of an expression, and its sign or operator, side by side.
What is around them are parentheses. -/
inductive Expr.LaidOut {α : Type} (word : List Token) : Expr α → Prop
  /-- A literal has no operands. -/
  | literal {value : α} {span : Span} : LaidOut word (literal value span)
  /-- The operand of a negation stands behind the sign. -/
  | negate {operand : Expr α} {span : Span} {inner : List Token} {sign : Token}
      (before after : List Token) (hword : word = before ++ (sign :: inner ++ after))
      (hsign : sign.kind = .minus) (hinner : operand.span.Covers inner) :
      LaidOut word (negate operand span)
  /-- The operands of an operation stand on both sides of the operator. -/
  | binary {op : Operator} {left right : Expr α} {span : Span} {leftWord rightWord : List Token}
      {sign : Token} (before after : List Token)
      (hword : word = before ++ (leftWord ++ sign :: rightWord ++ after))
      (hsign : sign.kind = op.kind) (hleft : left.span.Covers leftWord)
      (hright : right.span.Covers rightWord) : LaidOut word (binary op left right span)

/-- More tokens around those of an expression do not matter, and neither does its span. -/
theorem Expr.LaidOut.around {α : Type} {word : List Token} {e : Expr α} (h : e.LaidOut word)
    (before after : List Token) (span : Span) :
    (e.withSpan span).LaidOut (before ++ (word ++ after)) := by
  cases h with
  | literal => exact .literal
  | negate front behind hword hsign hinner =>
    refine .negate (before ++ front) (behind ++ after) ?_ hsign hinner
    simp [hword]
  | binary front behind hword hsign hleft hright =>
    refine .binary (before ++ front) (behind ++ after) ?_ hsign hleft hright
    simp [hword]

theorem Expr.LaidOut.map {α β : Type} {word : List Token} {e : Expr α} (h : e.LaidOut word)
    (f : α → β) : (e.map f).LaidOut word := by
  cases h with
  | literal => exact .literal
  | negate before after hword hsign hinner =>
    exact .negate before after hword hsign (by rwa [span_map])
  | binary before after hword hsign hleft hright =>
    exact .binary before after hword hsign (by rwa [span_map]) (by rwa [span_map])

theorem Derivation.covers {c : Category} (d : Derivation c) : d.draft.span.Covers d.word :=
  ⟨d.exists_first, d.exists_last⟩

mutual

/-- What is read from tokens is laid out among them. -/
theorem Derivation.laidOut {c : Category} (d : Derivation c) : d.draft.LaidOut d.word := by
  match d with
  | .level first more =>
    -- the first operand alone is a phrase of the level
    obtain ⟨left, hword, hdraft, -⟩ :=
      first.exists_looser (.level _) (by rw [Category.tightness_operand]; exact Nat.le_succ _)
    have hleft : left.draft.LaidOut left.word := by
      rw [hword, hdraft]
      exact first.laidOut
    have hmore := more.laidOut hleft
    rw [hword, hdraft] at hmore
    rw [Derivation.word, Derivation.draft]
    exact hmore
  | .minus sign hsign operand =>
    rw [Derivation.word, Derivation.draft]
    exact .negate [] [] (by simp) hsign operand.covers
  | .plain phrase =>
    have hphrase := phrase.laidOut
    rw [Derivation.word, Derivation.draft]
    exact hphrase
  | .number t ht =>
    rw [Derivation.draft]
    exact .literal
  | .group opener hopener inner closer hcloser =>
    have hinner := inner.laidOut
    rw [Derivation.word, Derivation.draft]
    exact hinner.around [opener] [closer] _

/-- More operands on a level are laid out behind what is in front of them. -/
theorem Continuation.laidOut {l : Level} (k : Continuation l) {left : Derivation (.level l)}
    (hleft : left.draft.LaidOut left.word) :
    (k.drafts.foldl (fun left (op, right) => Expr.join op left right) left.draft).LaidOut
      (left.word ++ k.word) := by
  match k with
  | .done =>
    rw [Continuation.word, Continuation.drafts, List.append_nil]
    exact hleft
  | .step sign op hop operand more =>
    -- the phrase up to this operand
    obtain ⟨d, hword, hdraft, -⟩ := left.exists_join hop operand
    have hsign : sign.kind = op.kind := (Level.precedence_eq_some_iff.1 hop).2
    have hd : d.draft.LaidOut d.word := by
      rw [hword, hdraft]
      exact .binary [] [] (by simp) hsign left.covers operand.covers
    have hmore := more.laidOut hd
    rw [hword, hdraft] at hmore
    rw [Continuation.word, Continuation.drafts, List.foldl_cons]
    simpa using hmore

end

/-! ### Tokens in order -/

/-- The span lies inside another one. -/
structure Span.Within (s outer : Span) : Prop where
  first : outer.first.offset ≤ s.first.offset
  last : s.last.offset ≤ outer.last.offset

/-- The tokens that begin between two offsets. -/
def between (tokens : List Token) (lower upper : Int) : List Token :=
  tokens.filter fun t => lower < t.location.offset && t.location.offset < upper

/-- The tokens come in order. -/
def InOrder (tokens : List Token) : Prop :=
  tokens.Pairwise fun t u => t.location.offset < u.location.offset

/-- Tokens in order begin and end where a span that covers them does. -/
theorem Span.Covers.bounds {s : Span} {word : List Token} (h : s.Covers word)
    (hordered : InOrder word) {t : Token} (ht : t ∈ word) :
    s.first.offset ≤ t.location.offset ∧ t.location.offset ≤ s.last.offset := by
  obtain ⟨⟨first, more, hfirst, hstart⟩, front, last, hlast, hend⟩ := h
  rw [← hstart, ← hend]
  constructor
  · rw [hfirst] at ht hordered
    rcases List.mem_cons.1 ht with rfl | hmem
    · exact Int.le_refl _
    · exact Int.le_of_lt ((List.pairwise_cons.1 hordered).1 t hmem)
  · rw [hlast] at ht hordered
    rcases List.mem_append.1 ht with hmem | hmem
    · exact Int.le_of_lt ((List.pairwise_append.1 hordered).2.2 t hmem last (by simp))
    · exact Int.le_of_eq (congrArg (Location.offset ∘ Token.location) (List.mem_singleton.1 hmem))

/-- A span that covers tokens among those of another span lies inside that. -/
theorem Span.Covers.within {s outer : Span} {word inner : List Token} (h : outer.Covers word)
    (hordered : InOrder word) (hs : s.Covers inner) (hinner : inner ⊆ word) : s.Within outer := by
  obtain ⟨⟨first, more, hfirst, hstart⟩, front, last, hlast, hend⟩ := hs
  have hfirstMem : first ∈ word := hinner (by rw [hfirst]; exact List.mem_cons_self ..)
  have hlastMem : last ∈ word := hinner (by rw [hlast]; exact List.mem_concat_self)
  exact ⟨hstart ▸ (h.bounds hordered hfirstMem).1, hend ▸ (h.bounds hordered hlastMem).2⟩

/-- Between two tokens next but one to each other there is the one that stands between them. -/
theorem between_eq_singleton {front behind : List Token} {t sign u : Token}
    (h : InOrder (front ++ t :: sign :: u :: behind)) :
    between (front ++ t :: sign :: u :: behind) t.location.offset u.location.offset = [sign] := by
  obtain ⟨-, hbehind, hfront⟩ := List.pairwise_append.1 h
  obtain ⟨ht, hbehind⟩ := List.pairwise_cons.1 hbehind
  obtain ⟨hsign, hbehind⟩ := List.pairwise_cons.1 hbehind
  obtain ⟨hu, -⟩ := List.pairwise_cons.1 hbehind
  have hlower : t.location.offset < sign.location.offset := ht sign (by simp)
  have hupper : sign.location.offset < u.location.offset := hsign u (by simp)
  -- what is in front begins too early, and what is behind too late
  have hnoFront : front.filter (fun x =>
      t.location.offset < x.location.offset && x.location.offset < u.location.offset) = [] := by
    refine List.filter_eq_nil_iff.2 fun x hx => ?_
    have hlt : x.location.offset < t.location.offset := hfront x hx t (by simp)
    simp [Int.not_lt.2 (Int.le_of_lt hlt)]
  have hnoBehind : behind.filter (fun x =>
      t.location.offset < x.location.offset && x.location.offset < u.location.offset) = [] := by
    refine List.filter_eq_nil_iff.2 fun x hx => ?_
    simp [Int.not_lt.2 (Int.le_of_lt (hu x hx))]
  rw [between, List.filter_append, hnoFront]
  simp [hlower, hupper, hnoBehind]

/-! ### Spans of a text -/

/-- How the spans of the operands of an expression lie: inside its own, behind the sign of a
negation, and on both sides of the one token between them, which is the operator. -/
def Expr.Spaced {α : Type} (tokens : List Token) : Expr α → Prop
  | literal _ _ => True
  | negate operand span =>
    operand.span.Within span ∧ span.first.offset < operand.span.first.offset
  | binary op left right span =>
    left.span.Within span ∧ right.span.Within span ∧
      left.span.last.offset < right.span.first.offset ∧
      ∃ sign, between tokens left.span.last.offset right.span.first.offset = [sign] ∧
        sign.kind = op.kind ∧ sign.lexeme = op.symbol.toString

theorem Piece.Fits.lexeme_of_kind {t : Token} {rest : List Char} (h : Fits (.ok t) rest)
    {op : Operator} (ht : t.kind = op.kind) : t.lexeme = op.symbol.toString := by
  cases h with
  | number hlexeme hfinite => cases op <;> cases ht
  | @symbol c kind _ _ hkind =>
    have hall : ∀ entry ∈ Token.Kind.symbols, entry.2 = op.kind → entry.1 = op.symbol := by
      cases op <;> decide
    obtain rfl : c = op.symbol := hall _ (Token.Kind.mem_symbols hkind) ht
    rfl

/-- What is laid out among tokens in order is spaced among them. -/
theorem Expr.LaidOut.spaced {α : Type} {e : Expr α} {word before after : List Token}
    (h : e.LaidOut word) (hcovers : e.span.Covers word)
    (hordered : InOrder (before ++ (word ++ after)))
    (hlexeme : ∀ t ∈ word, ∀ op : Operator, t.kind = op.kind → t.lexeme = op.symbol.toString) :
    e.Spaced (before ++ (word ++ after)) := by
  have hword : InOrder word := (List.pairwise_append.1 (List.pairwise_append.1 hordered).2.1).1
  cases h with
  | literal => trivial
  | @negate operand span inner sign front behind heq hsign hinner =>
    have hsub : inner ⊆ word := fun t ht => by simp [heq, ht]
    obtain ⟨first, more, hfirst, hstart⟩ := hinner.first
    refine ⟨hcovers.within hword hinner hsub, ?_⟩
    -- the sign is one of the tokens, and the operand begins behind it
    have hle := (hcovers.bounds hword (t := sign) (by simp [heq])).1
    rw [heq] at hword
    have hlt : sign.location.offset < first.location.offset :=
      (List.pairwise_cons.1 (List.pairwise_append.1 hword).2.1).1 first (by simp [hfirst])
    rw [hstart] at hlt
    exact Int.lt_of_le_of_lt hle hlt
  | @binary op left right span leftWord rightWord sign front behind heq hsign hleft hright =>
    have hsubLeft : leftWord ⊆ word := fun t ht => by simp [heq, ht]
    have hsubRight : rightWord ⊆ word := fun t ht => by simp [heq, ht]
    obtain ⟨leftFront, t, rfl, hend⟩ := hleft.last
    obtain ⟨u, rightMore, rfl, hstart⟩ := hright.first
    have htokens : before ++ (word ++ after) =
        (before ++ front ++ leftFront) ++ t :: sign :: u :: (rightMore ++ behind ++ after) := by
      simp [heq]
    rw [htokens] at hordered
    have hbetween := between_eq_singleton hordered
    have hlt : t.location.offset < u.location.offset :=
      (List.pairwise_cons.1 (List.pairwise_append.1 hordered).2.1).1 u (by simp)
    rw [← htokens, hend, hstart] at hbetween
    rw [hend, hstart] at hlt
    exact ⟨hcovers.within hword hleft hsubLeft, hcovers.within hword hright hsubRight, hlt, sign,
      hbetween, hsign, hlexeme sign (by simp [heq]) op hsign⟩

/-- **The spans of an expression nest, and do not overlap**: every node begins and ends with a token
of the text, the operands lie inside it, an operand of a negation begins behind it, and between the
operands of an operation there is the operator and nothing else. -/
theorem spans_nested {name text : String} {tokens : List Token} {tree e : Expr Binary64}
    (h : Reads name text tokens tree) (he : e ∈ tree.nodes) :
    (∃ t ∈ tokens, t.location = e.span.first) ∧ (∃ t ∈ tokens, t.location = e.span.last) ∧
      e.span.first.offset ≤ e.span.last.offset ∧ e.Spaced tokens := by
  have hordered : InOrder tokens := ordered_tokens h.1
  obtain ⟨d, rfl, htiled, rfl, -⟩ := h.exists_derivation
  -- the node was read from a phrase of the tokens
  rw [Draft.complete, Expr.nodes_map] at he
  obtain ⟨draft, hdraft, rfl⟩ := List.mem_map.1 he
  obtain ⟨phrase, rfl, ⟨before, after, hword⟩, -⟩ := d.hasPhrase_of_mem_nodes hdraft
  have hlexeme : ∀ t ∈ phrase.word, ∀ op : Operator, t.kind = op.kind →
      t.lexeme = op.symbol.toString := by
    intro t ht op hkind
    have hmem : t ∈ d.word := by
      rw [← hword]
      simp [ht]
    obtain ⟨-, -, -, -, _, hfits⟩ := htiled.exists_place (List.mem_map_of_mem (f := Except.ok) hmem)
    exact hfits.lexeme_of_kind hkind
  rw [← hword, List.append_assoc, List.append_assoc] at hordered ⊢
  have hcovers := phrase.covers
  have hphrase : InOrder phrase.word :=
    (List.pairwise_append.1 (List.pairwise_append.1 hordered).2.1).1
  obtain ⟨⟨first, more, hfirst, hstart⟩, front, last, hlast, hend⟩ := hcovers
  rw [Expr.span_map]
  refine ⟨⟨first, by simp [hfirst], hstart⟩, ⟨last, by simp [hlast], hend⟩, ?_, ?_⟩
  · rw [← hstart]
    exact (phrase.covers.bounds hphrase (by simp [hfirst])).2
  · exact (phrase.laidOut.map _).spaced (by rw [Expr.span_map]; exact phrase.covers) hordered
      hlexeme

/-- A sum in parentheses and a negation as the operands of a product. -/
theorem spans_nested_product :
    let tokens := (tokenize defaultName "(1+2)*-3").toOption.getD []
    let tree := (parse tokens).toOption.getD default
    Reads defaultName "(1+2)*-3" tokens tree ∧ tree ∈ tree.nodes ∧
      tree.nodes.map (fun e => (e.span.first.offset, e.span.last.offset)) =
        [(1, 1), (3, 3), (0, 4), (7, 7), (6, 7), (0, 7)] ∧
      tree.Spaced tokens := by
  intro tokens tree
  have htokens : (tokenize defaultName "(1+2)*-3").isOk = true := by decide +kernel
  have htree : (parse tokens).isOk = true := by decide +kernel
  have hreads : Reads defaultName "(1+2)*-3" tokens tree :=
    ⟨eq_ok_getD_of_isOk htokens [], eq_ok_getD_of_isOk htree default⟩
  have hmem : tree ∈ tree.nodes := Expr.mem_nodes.2 (Or.inr rfl)
  exact ⟨hreads, hmem, by decide +kernel, (spans_nested hreads hmem).2.2.2⟩

end Calculator
