import Calculator.Proofs.Calculation.Stages
import Calculator.Proofs.Expr.Blame
import Calculator.Proofs.Grammar.Phrases

/-!
# Where failures point

Every failure has a location, and what it names is found there: the character or the numeral, the
token, the parenthesis, or the beginning of the expression that is to blame.  This expression is
written in a stretch of the text, and calculated on its own that stretch shows the fault again.

## Main definitions

* `Failure.PointsAt` — what a failure names is found at an offset.
* `ArithmeticFault.Recurs` — a text calculated on its own shows a fault.

## Main results

* `Scanner.Tiled.exists_place` — where a piece of a text is found.
* `ordered_tokens` — the tokens of a text come in order.
* `exists_refusal_of_parse` — the syntax fault of a text, and the tokens in front of it.
* `exists_reads_excerpt` — every node of an expression is what a stretch of the text is read as.
* `failure_points` — **failures point at what they name.**
-/

namespace Calculator

/-! ### What is found at an offset -/

/-- The token stands at the offset, which is that of the end of the text only for the last token. -/
structure Token.StandsAt (c : Calculation) (p : Nat) (t : Token) : Prop where
  mem : t ∈ c.tokens
  offset : t.location.offset = p
  finish : p = c.text.length ↔ t.kind = .finish

/-- Calculated on its own, whatever its name and whoever watches, a text shows the fault: a divisor
is zero, and every other expression fails at its beginning with the same message. -/
def ArithmeticFault.Recurs (text : String) (fault : ArithmeticFault) : Prop :=
  ∀ (watched : Bool) (name : String),
    ∃ c, (calculate watched name text).outcome = some c ∧
      match fault with
      | zeroDivisor _ => ∃ x, c.result = .ok x ∧ x.isZero = true
      | fault => ∃ again, c.result = .error (.arithmetic again) ∧ again.code = fault.code ∧
          again.message = fault.message ∧ again.location.offset = 0

/-- What a failure of a calculation names is found at the offset. -/
def Failure.PointsAt (c : Calculation) (p : Nat) : Failure → Prop
  | lexical ⟨.unexpectedCharacter char, _⟩ => c.text.toList[p]? = some char
  | lexical ⟨.numeralOverflow lexeme, _⟩ => lexeme.toList <+: c.text.toList.drop p
  | syntactic (.unexpectedToken _ found) => found.StandsAt c p
  | syntactic (.trailingInput found) => found.StandsAt c p
  | syntactic (.unclosedParen _ _) => c.text.toList[p]? = some '('
  | arithmetic fault =>
    fault.culprit.span.first.offset = p ∧
      ∃ last ∈ c.tokens, last.location = fault.culprit.span.last ∧
        fault.Recurs (excerpt c.text p last)

/-! ### Characters and tokens -/

/-- **Where a piece of a text is found.** -/
theorem Scanner.Tiled.exists_place {name text : String} {pieces : List Piece}
    (h : (ofText text).Tiled name pieces) {piece : Piece} (hpiece : piece ∈ pieces) :
    ∃ p < text.length, piece.location = .inText name text p ∧
      piece.characters <+: text.toList.drop p ∧ ∃ rest, piece.Fits rest := by
  obtain ⟨ps, qs, rfl⟩ := List.append_of_mem hpiece
  obtain ⟨before, after, hahead, hfits, hlocation, -⟩ := h.exists_split
  have htext : text.toList = before ++ (piece.characters ++ after) := hahead
  refine ⟨before.length, ?_, ?_, ?_, after, hfits⟩
  · have hpos := hfits.length_pos
    rw [← String.length_toList, htext, List.length_append, List.length_append]
    omega
  · rw [hlocation, location_ofText]
  · rw [htext, List.drop_left]
    exact List.prefix_append ..

/-- **The tokens of a text come in order**, the end of the text as the last. -/
theorem ordered_tokens {name text : String} {tokens : List Token}
    (h : tokenize name text = .ok tokens) :
    tokens.Pairwise fun t u => t.location.offset < u.location.offset := by
  obtain ⟨front, rfl, htiled, -⟩ := exists_tiled_of_tokenize h
  have hstarts : (front.map Except.ok).Pairwise fun (p q : Piece) =>
      p.location.offset < q.location.offset := htiled.starts
  have hfront := List.pairwise_map.1 hstarts
  refine List.pairwise_append.2 ⟨hfront, List.pairwise_singleton .., ?_⟩
  intro t ht u hu
  obtain ⟨p, hp, hlocation, -, -⟩ :=
    htiled.exists_place (List.mem_map_of_mem (f := Except.ok) ht)
  have hplace : t.location = .inText name text p := hlocation
  obtain rfl := List.mem_singleton.1 hu
  rw [hplace, Location.offset_inText name (Nat.le_of_lt hp)]
  show (p : Int) < (Location.inText name text text.length).offset
  rw [Location.offset_inText name (Nat.le_refl _)]
  exact Int.ofNat_lt.2 hp

/-- A token of a text is found by its offset. -/
theorem eq_of_offset_eq {name text : String} {tokens : List Token}
    (h : tokenize name text = .ok tokens) {t u : Token} (ht : t ∈ tokens) (hu : u ∈ tokens)
    (hoffset : t.location.offset = u.location.offset) : t = u := by
  have hordered := List.pairwise_iff_getElem.1 (ordered_tokens h)
  obtain ⟨i, hi, rfl⟩ := List.getElem_of_mem ht
  obtain ⟨j, hj, rfl⟩ := List.getElem_of_mem hu
  -- of two different tokens the one begins before the other
  rcases Nat.lt_trichotomy i j with hlt | rfl | hlt
  · exact absurd hoffset (Int.ne_of_lt (hordered i j hi hj hlt))
  · rfl
  · exact absurd hoffset.symm (Int.ne_of_lt (hordered j i hj hi hlt))

theorem getElem?_of_prefix_drop {c : Char} {cs : List Char} {p : Nat} (h : [c] <+: cs.drop p) :
    cs[p]? = some c := by
  obtain ⟨rest, hrest⟩ := h
  rw [← List.head?_drop, ← hrest]
  rfl

theorem Piece.Fits.characters_leftParen {t : Token} {rest : List Char} (h : Fits (.ok t) rest)
    (ht : t.kind = .leftParen) : characters (.ok t) = ['('] := by
  cases h with
  | number hlexeme hfinite => cases ht
  | @symbol c kind _ _ hkind =>
    have hall : ∀ entry ∈ Token.Kind.symbols, entry.2 = .leftParen → entry.1 = '(' := by decide
    obtain rfl : c = '(' := hall _ (Token.Kind.mem_symbols hkind) ht
    simp [characters]

theorem points_of_tokenize {name text : String} {fault : LexicalFault}
    (h : tokenize name text = .error fault) :
    ∃ p ≤ text.length, fault.location = .inText name text p ∧
      (Failure.lexical fault).PointsAt ⟨text, [], none, .error (.lexical fault)⟩ p := by
  have hmem : fault ∈ (scan name text).faults :=
    List.mem_of_mem_head? (tokenize_eq_error_iff.1 h)
  obtain ⟨p, hp, hlocation, hcharacters, -⟩ :=
    (Scanner.tiled_pieces name (.ofText text)).exists_place (mem_of_mem_pieceFaults hmem)
  refine ⟨p, Nat.le_of_lt hp, hlocation, ?_⟩
  obtain ⟨cause, l⟩ := fault
  cases cause with
  | unexpectedCharacter c => exact getElem?_of_prefix_drop hcharacters
  | numeralOverflow lexeme => exact hcharacters

/-- A token of a text, the end included, stands where it says. -/
theorem exists_standsAt {c : Calculation} {name : String} {front : List Token} {t : Token}
    (htokens : c.tokens = front ++ [.finish (.inText name c.text c.text.length)])
    (htiled : (Scanner.ofText c.text).Tiled name (front.map .ok)) (ht : t ∈ c.tokens) :
    ∃ p ≤ c.text.length, t.location = .inText name c.text p ∧ t.StandsAt c p := by
  have hmem := ht
  rw [htokens, List.mem_append, List.mem_singleton] at hmem
  rcases hmem with hfront | rfl
  · obtain ⟨p, hp, hlocation, -, rest, hfits⟩ :=
      htiled.exists_place (List.mem_map_of_mem (f := Except.ok) hfront)
    have hoffset : t.location.offset = p := by
      rw [show t.location = _ from hlocation, Location.offset_inText name (Nat.le_of_lt hp)]
    exact ⟨p, Nat.le_of_lt hp, hlocation, ht, hoffset,
      ⟨fun heq => absurd heq (Nat.ne_of_lt hp), fun hkind => absurd hkind hfits.kind_ne_finish⟩⟩
  · exact ⟨c.text.length, Nat.le_refl _, rfl, ht, Location.offset_inText name (Nat.le_refl _),
      ⟨fun _ => rfl, fun _ => rfl⟩⟩

/-- **The syntax fault of a text** is a refusal with good reason, behind tokens of the text that have
been read. -/
theorem exists_refusal_of_parse {name text : String} {tokens : List Token} {fault : SyntaxFault}
    (htokens : tokenize name text = .ok tokens) (h : parse tokens = .error (.fault fault)) :
    let stop := Token.finish (.inText name text text.length)
    ∃ (r : Refusal) (read : List Token), tokens = read ++ r.rest ++ [stop] ∧
      (Scanner.ofText text).Tiled name ((read ++ r.rest).map .ok) ∧
      r.Justified .expression 0 read ∧ fault = .ofRefusal stop r ∧ r.rest.headD stop ∈ tokens := by
  intro stop
  obtain ⟨front, rfl, htiled, hfront⟩ := exists_tiled_of_tokenize htokens
  obtain ⟨after, hparse⟩ := exists_cursor_of_parse_fault hfront rfl h
  obtain ⟨⟨cause, rest⟩, read, rfl, hjustified, rfl, -⟩ :=
    Cursor.exists_justified_of_parse hfront hparse
  refine ⟨⟨cause, rest⟩, read, rfl, htiled, hjustified, rfl, ?_⟩
  cases rest with
  | nil => simp [stop]
  | cons t rest => simp

theorem points_of_parse {name text : String} {tokens : List Token} {fault : SyntaxFault}
    (htokens : tokenize name text = .ok tokens) (h : parse tokens = .error (.fault fault)) :
    ∃ p ≤ text.length, fault.location = .inText name text p ∧
      (Failure.syntactic fault).PointsAt ⟨text, tokens, none, .error (.syntactic fault)⟩ p := by
  obtain ⟨⟨cause, rest⟩, read, rfl, htiled, hjustified, rfl, hfound⟩ :=
    exists_refusal_of_parse htokens h
  let stop : Token := .finish (.inText name text text.length)
  let c : Calculation := ⟨text, read ++ rest ++ [stop], none, .error (.syntactic
    (.ofRefusal stop ⟨cause, rest⟩))⟩
  cases cause with
  | operandExpected => exact exists_standsAt (c := c) rfl htiled hfound
  | trailing => exact exists_standsAt (c := c) rfl htiled hfound
  | unclosed opener =>
    -- the parenthesis is one of the tokens in front of the refused one
    obtain ⟨hopener, before, inner, rfl⟩ := hjustified.unclosed opener rfl
    have hmem : opener ∈ before ++ opener :: inner.word ++ rest := by simp
    obtain ⟨p, hp, hlocation, hcharacters, _, hfits⟩ :=
      htiled.exists_place (List.mem_map_of_mem (f := Except.ok) hmem)
    rw [hfits.characters_leftParen hopener] at hcharacters
    exact ⟨p, Nat.le_of_lt hp, hlocation, getElem?_of_prefix_drop hcharacters⟩

/-! ### Expressions -/

theorem Derivation.exists_tokens_of_mem_nodes {c : Category} (d : Derivation c) {e : Draft}
    (he : e ∈ d.draft.nodes) :
    (∃ t ∈ d.word, t.location = e.span.first) ∧ ∃ t ∈ d.word, t.location = e.span.last := by
  obtain ⟨phrase, rfl, hinfix, -⟩ := d.hasPhrase_of_mem_nodes he
  obtain ⟨first, more, hphrase, hfirst⟩ := phrase.exists_first
  obtain ⟨front, last, hphrase', hlast⟩ := phrase.exists_last
  exact ⟨⟨first, hinfix.subset (by simp [hphrase]), hfirst⟩,
    last, hinfix.subset (by simp [hphrase']), hlast⟩

/-- The tokens of a text that is read are the word of a derivation, and the end of the text. -/
theorem Reads.exists_derivation {name text : String} {tokens : List Token}
    {tree : Expr Binary64} (h : Reads name text tokens tree) :
    ∃ d : Derivation .expression,
      tokens = d.word ++ [.finish (.inText name text text.length)] ∧
        (Scanner.ofText text).Tiled name (d.word.map .ok) ∧ Draft.complete d.draft = tree ∧
        d.nesting ≤ allowance := by
  obtain ⟨htokens, htree⟩ := h
  obtain ⟨front, rfl, htiled, hfront⟩ := exists_tiled_of_tokenize htokens
  obtain ⟨d, rfl, hdraft, hroom⟩ := exists_derivation_of_parse hfront rfl htree
  exact ⟨d, rfl, htiled, hdraft, hroom⟩

/-- **Every node of an expression is what a stretch of the text is read as**, from the place where
the node begins to the end of its last token.  The offsets in the stretch count from its
beginning. -/
theorem exists_reads_excerpt {name text : String} {tokens : List Token} {tree e : Expr Binary64}
    (h : Reads name text tokens tree) (he : e ∈ tree.nodes) :
    ∃ p ≤ text.length, e.span.first = .inText name text p ∧
      ∃ last ∈ tokens, last.location = e.span.last ∧
        ∀ name', ∃ g tokens',
          (∀ x ∈ e.nodes, (g x.span.first).offset = x.span.first.offset - p ∧
            (g x.span.last).offset = x.span.last.offset - p) ∧
          Reads name' (excerpt text p last) tokens' (e.moved g) := by
  obtain ⟨d, rfl, htiled, rfl, hroom⟩ := h.exists_derivation
  -- the node was read from a phrase of the tokens
  rw [Draft.complete, Expr.nodes_map] at he
  obtain ⟨draft, hdraft, rfl⟩ := List.mem_map.1 he
  obtain ⟨phrase, rfl, ⟨before, after, hword⟩, hnesting⟩ := d.hasPhrase_of_mem_nodes hdraft
  obtain ⟨first, more, hphrase, hfirst⟩ := phrase.exists_first
  obtain ⟨_, last, hphrase', hlast⟩ := phrase.exists_last
  rw [Expr.span_map]
  rw [← hword] at htiled ⊢
  have hmem : first ∈ before ++ phrase.word ++ after := by simp [hphrase]
  obtain ⟨p, hp, hlocation, -⟩ := htiled.exists_place (List.mem_map_of_mem (f := Except.ok) hmem)
  have hplace : first.location = .inText name text p := hlocation
  refine ⟨p, Nat.le_of_lt hp, by rw [← hfirst, hplace], last, by simp [hphrase'], hlast, ?_⟩
  intro name'
  have hoffset : first.location.offset = p := by
    rw [hplace, Location.offset_inText name (Nat.le_of_lt hp)]
  obtain ⟨g, l, hg, hslice⟩ := exists_tokenize_excerpt htiled (by rw [hphrase, List.head?_cons])
    (by rw [hphrase', List.getLast?_concat]) hoffset name'
  refine ⟨g, _, ?_, hslice, ?_⟩
  · intro x hx
    rw [Expr.nodes_map] at hx
    obtain ⟨y, hy, rfl⟩ := List.mem_map.1 hx
    obtain ⟨⟨t, ht, hstart⟩, t', ht', hend⟩ := phrase.exists_tokens_of_mem_nodes hy
    rw [Expr.span_map, ← hstart, ← hend]
    exact ⟨hg t ht, hg t' ht'⟩
  -- a part of an expression is nested no deeper than the whole
  have hfits : (phrase.moved g).nesting ≤ allowance := by
    rw [phrase.nesting_moved]
    exact Nat.le_trans hnesting hroom
  have hparse := parse_word_append hfits (show (Token.finish l).kind = .finish from rfl)
  rw [phrase.word_moved, phrase.draft_moved] at hparse
  rw [hparse, Draft.complete, Expr.map_moved]

/-- A fault in the value of an expression points at the expression that is to blame. -/
theorem points_of_value {name text : String} {tokens : List Token} {tree : Expr Binary64}
    {fault : ArithmeticFault} (hreads : Reads name text tokens tree)
    (h : tree.value = .error (.fault fault)) :
    ∃ p ≤ text.length, fault.location = .inText name text p ∧
      (Failure.arithmetic fault).PointsAt
        ⟨text, tokens, some tree, .error (.arithmetic fault)⟩ p := by
  obtain ⟨hmem, hshown, hheight⟩ := ArithmeticFault.shown_of_value h
  obtain ⟨p, hp, hfirst, last, hlast, hend, hexcerpt⟩ := exists_reads_excerpt hreads hmem
  have hoffset : fault.culprit.span.first.offset = p := by
    rw [hfirst, Location.offset_inText name hp]
  refine ⟨p, hp, hfirst, hoffset, last, hlast, hend, ?_⟩
  intro watched name'
  obtain ⟨g, tokens', hoffsets, hreads'⟩ := hexcerpt name'
  have hstart : (g fault.culprit.span.first).offset = 0 := by
    rw [(hoffsets _ (Expr.mem_nodes.2 (Or.inr rfl))).1, hoffset, Int.sub_self]
  have hvalue : (fault.culprit.moved g).value =
      fault.culprit.value.mapError (Halt.map (ArithmeticFault.moved g)) :=
    Expr.valueWithin_moved g allowance fault.culprit
  have hwritten : watched = true → (fault.culprit.moved g).height ≤ allowance := by
    intro _
    rwa [Expr.height_moved]
  -- a fault that is shown again is the same in the places of the excerpt
  have hagain (hfault : fault.culprit.value = .error (.fault fault)) :
      ∃ c, (calculate watched name' (excerpt text p last)).outcome = some c ∧
        ∃ again, c.result = .error (.arithmetic again) ∧ again.code = fault.code ∧
          again.message = fault.message ∧ again.location.offset = 0 := by
    rw [hfault] at hvalue
    refine ⟨_, staged_iff.1 (.arithmetic hreads' hwritten hvalue), fault.moved g, rfl, ?_, ?_, ?_⟩
    · rw [ArithmeticFault.code_moved]
    · rw [ArithmeticFault.message_moved]
    · rw [ArithmeticFault.location_moved]
      exact hstart
  cases fault with
  | zeroDivisor divisor =>
    obtain ⟨x, hx, hzero⟩ := hshown
    rw [show ArithmeticFault.culprit (.zeroDivisor divisor) = divisor from rfl, hx] at hvalue
    exact ⟨_, staged_iff.1 (.value hreads' hvalue), x, rfl, hzero⟩
  | zeroToNegative power => exact hagain hshown
  | invalidPower power base exponent => exact hagain hshown
  | overflow power => exact hagain hshown

/-- **Failures point at what they name**: the location of a failure is a place in the text, told by
the name of the text, the line feeds in front of the place, and the characters behind the last of
them; and what the failure names is found there. -/
theorem failure_points {watched : Bool} {name text : String} {c : Calculation} {failure : Failure}
    (hc : (calculate watched name text).outcome = some c) (hfailure : c.result = .error failure) :
    ∃ p ≤ text.length, failure.diagnostic.location.offset = p ∧
      failure.diagnostic.location = .inText name text p ∧ failure.PointsAt c p := by
  obtain ⟨p, hp, hlocation, hpoints⟩ :
      ∃ p ≤ text.length, failure.diagnostic.location = .inText name text p ∧
        failure.PointsAt c p := by
    cases staged_iff.2 hc with
    | lexical h =>
      cases hfailure
      exact points_of_tokenize h
    | syntactic htokens h =>
      cases hfailure
      exact points_of_parse htokens h
    | arithmetic hreads hwritten h =>
      cases hfailure
      exact points_of_value hreads h
    | value hreads h => cases hfailure
  exact ⟨p, hp, by rw [hlocation, Location.offset_inText name hp], hlocation, hpoints⟩

/-- The divisor in parentheses on the second line is found there. -/
theorem failure_points_second_line :
    let text := "1+\n2/(3-3)"
    ∃ c failure, (calculate false defaultName text).outcome = some c ∧ c.result = .error failure ∧
      failure.diagnostic.location = ⟨defaultName, 2, 3, 5⟩ ∧ failure.PointsAt c 5 := by
  intro text
  have hfails : ∃ c failure, (calculate false defaultName text).outcome = some c ∧
      c.result = .error failure ∧ failure.diagnostic.location = ⟨defaultName, 2, 3, 5⟩ := by
    have h : ((calculate false defaultName text).outcome.bind fun c => match c.result with
        | .error failure => some failure.diagnostic.location
        | .ok _ => none) = some ⟨defaultName, 2, 3, 5⟩ := by decide +kernel
    obtain ⟨c, hc, hresult⟩ := Option.bind_eq_some_iff.1 h
    cases hfailure : c.result with
    | ok x => rw [hfailure] at hresult; cases hresult
    | error failure =>
      rw [hfailure] at hresult
      exact ⟨c, failure, hc, hfailure, Option.some.inj hresult⟩
  obtain ⟨c, failure, hc, hfailure, hlocation⟩ := hfails
  obtain ⟨p, -, hoffset, -, hpoints⟩ := failure_points hc hfailure
  obtain rfl : p = 5 := by
    rw [hlocation] at hoffset
    exact Int.ofNat.inj hoffset.symm
  exact ⟨c, failure, hc, hfailure, hlocation, hpoints⟩

end Calculator
