import Calculator.Proofs.Grammar.Walking

/-!
# Where a list of tokens ends

A walk along all tokens reads what the rules read from the tokens in front of the end: the same
expression or the same fault, and its place is where the cursor stands.  Since a walk takes no
notice of what is behind the first end of the text, a list of tokens can be cut off there, and a
list without an end is read like the one with an end right after its last token.

## Main definitions

* `Walk.Gives`, `Walk.Follows` — a walk that reads what a rule reads.

## Main results

* `Walk.follows_level`, `Walk.follows_unary` — the walking rules read what the rules read.
* `walk_eq_parse` — **reading by a walk is reading by the rules.**
* `parse_up_to_end` — **only the tokens up to the first end matter**, and a missing end is the same
  as one after the last token.
-/

namespace Calculator

namespace Walk

/-! ### Following a rule -/

/-- What a walk gives agrees with a reading of `ts`, which are among the `length` tokens in front of
the end: a place is told by what is left to be read there. -/
def Gives (length : Nat) (stop : Token) (ts : List Token) :
    Reading → Except (Halt SyntaxFault) Draft × Nat → Prop
  | .ok (e, rest), found => rest <:+ ts ∧ found = (.ok e, length - rest.length)
  | .error (.fault r), found =>
    found = (.error (.fault (.ofRefusal stop r)), length - r.rest.length)
  | .error .tooDeep, found => found.1 = .error .tooDeep

/-- Wherever a walk starts among the tokens in front of the end, it reads what the rule does. -/
def Follows (front : List Token) (stop : Token) (w : Walk Draft) (rule : Rule) : Prop :=
  ∀ ts, ts <:+ front → Gives front.length stop ts (rule ts) (w (front.length - ts.length))

theorem Gives.of_suffix {length : Nat} {stop : Token} {ts ts' : List Token} {x : Reading}
    {found : Except (Halt SyntaxFault) Draft × Nat} (h : Gives length stop ts' x found)
    (hts : ts' <:+ ts) : Gives length stop ts x found := by
  match x with
  | .ok (e, rest) => exact ⟨h.1.trans hts, h.2⟩
  | .error (.fault r) => exact h
  | .error .tooDeep => exact h

/-- What goes on after a walk that gives what a reading does, goes on after the reading. -/
theorem Gives.bind {length : Nat} {stop : Token} {ts : List Token} {x : Reading} {w : Walk Draft}
    {place : Nat} (h : Gives length stop ts x (w place)) {f : Draft × List Token → Reading}
    {g : Draft → Walk Draft}
    (hf : ∀ e rest, rest <:+ ts → Gives length stop ts (f (e, rest)) (g e (length - rest.length))) :
    Gives length stop ts (x >>= f) ((w >>= g) place) := by
  match x with
  | .ok (e, rest) =>
    rw [bind_of_ok h.2]
    exact hf e rest h.1
  | .error (.fault r) =>
    rw [bind_of_error h]
    rfl
  | .error .tooDeep =>
    -- where the walk has broken off does not matter
    obtain ⟨after, hw⟩ : ∃ after, w place = (.error .tooDeep, after) :=
      ⟨(w place).2, Prod.ext h rfl⟩
    rw [bind_of_error hw]
    rfl

section

variable {look : Nat → Token} {front : List Token} {stop : Token}

/-- What is looked up are the tokens in front of the end, and then the end: a place is told by what
is left to be read there. -/
structure Shows (look : Nat → Token) (front : List Token) (stop : Token) : Prop where
  look_eq : ∀ ts, ts <:+ front → look (front.length - ts.length) = ts.headD stop
  kind_front : ∀ t ∈ front, t.kind ≠ .finish
  kind_stop : stop.kind = .finish

/-- Passing a token in front of the end. -/
theorem advance_of_suffix
    (hshow : Shows look front stop) {t : Token} {ts : List Token}
    (h : t :: ts <:+ front) :
    advance look (front.length - (t :: ts).length) = (.ok t, front.length - ts.length) := by
  have ht : t.kind ≠ .finish := hshow.kind_front t (h.subset (List.mem_cons_self ..))
  have hplace : front.length - (t :: ts).length + 1 = front.length - ts.length := by
    have hle := h.length_le
    rw [List.length_cons] at hle ⊢
    omega
  rw [advance, hshow.look_eq _ h, List.headD_cons, if_neg ht, hplace]

theorem peek_of_suffix
    (hshow : Shows look front stop)
    {ts : List Token} (h : ts <:+ front) :
    peek look (front.length - ts.length) = (.ok (ts.headD stop), front.length - ts.length) := by
  rw [peek, hshow.look_eq _ h]

theorem check_of_suffix
    (hshow : Shows look front stop)
    {ts : List Token} (h : ts <:+ front) (kind : Token.Kind) :
    check look kind (front.length - ts.length) =
      (.ok ((ts.headD stop).kind == kind), front.length - ts.length) := by
  rw [check, bind_of_ok (peek_of_suffix hshow h)]
  rfl

/-! ### Levels -/

/-- A chain follows a chain if both have enough turns. -/
theorem gives_chain
    (hshow : Shows look front stop) {l : Level} {operand : Walk Draft} {rule : Rule}
    (hop : Follows front stop operand rule) {turns : Nat} {bound ts : List Token} (left : Draft)
    (hts : ts <:+ front) (hbound : ts.length ≤ bound.length) (hturns : ts.length ≤ turns) :
    Gives front.length stop ts (Calculator.chain l.precedence rule bound left ts)
      (chain look l.precedence operand turns left (front.length - ts.length)) := by
  -- on the bound of the rule; the turns of the walk and the tokens go down with it
  induction bound generalizing turns left ts with
  | nil =>
    obtain rfl : ts = [] := List.length_eq_zero_iff.1 (Nat.le_zero.1 hbound)
    have hnone : l.precedence (look (front.length - ([] : List Token).length)).kind = none := by
      rw [hshow.look_eq [] hts, List.headD_nil, hshow.kind_stop, precedence_finish]
    rw [chain_of_none hnone]
    exact ⟨List.suffix_refl _, rfl⟩
  | cons t bound ih =>
    cases hoperator : operator? l.precedence ts with
    | none =>
      have hnone : l.precedence (look (front.length - ts.length)).kind = none := by
        rw [hshow.look_eq ts hts]
        cases ts with
        | nil => rw [List.headD_nil, hshow.kind_stop, precedence_finish]
        | cons sign ts => exact Option.map_eq_none_iff.1 hoperator
      rw [chain_of_none hnone, Calculator.chain, hoperator]
      exact ⟨List.suffix_refl _, rfl⟩
    | some found =>
      obtain ⟨op, afterOp⟩ := found
      obtain ⟨sign, rfl, hsign⟩ := operator?_eq_some_iff.1 hoperator
      have hsome :
          l.precedence (look (front.length - (sign :: afterOp).length)).kind = some op := by
        rw [hshow.look_eq _ hts]
        exact hsign
      have hsuffix : afterOp <:+ sign :: afterOp := List.suffix_cons sign afterOp
      have hplace :
          front.length - (sign :: afterOp).length + 1 = front.length - afterOp.length := by
        have hle := hts.length_le
        rw [List.length_cons] at hle ⊢
        omega
      simp only [List.length_cons] at hbound hturns
      obtain ⟨turns, rfl⟩ : ∃ n, turns = n + 1 := ⟨turns - 1, by omega⟩
      rw [chain_of_some hsome, hplace, Calculator.chain, hoperator]
      -- the operand behind the operator, and then the rest of the chain
      refine Gives.of_suffix ?_ hsuffix
      refine (hop afterOp (hsuffix.trans hts)).bind fun right rest hrest => ?_
      have hle := hrest.length_le
      exact (ih (.join op left right) (hrest.trans (hsuffix.trans hts)) (by omega)
        (by omega)).of_suffix hrest

theorem follows_level
    (hshow : Shows look front stop) {l : Level} {operand : Walk Draft} {rule : Rule}
    (hop : Follows front stop operand rule) {turns : Nat} (hturns : front.length ≤ turns) :
    Follows front stop (level look turns l.precedence operand)
      (Calculator.level l.precedence rule) := by
  intro ts hts
  refine (hop ts hts).bind fun left rest hrest => ?_
  have hle := (hrest.trans hts).length_le
  exact (gives_chain hshow hop left (hrest.trans hts) (Nat.le_refl _)
    (by omega)).of_suffix hrest

theorem follows_expressionOver
    (hshow : Shows look front stop) {turns : Nat} (hturns : front.length ≤ turns)
    {unary : Walk Draft} {rule : Rule} (h : Follows front stop unary rule) :
    Follows front stop (expressionOver look turns unary) (Calculator.expressionOver rule) := by
  have hpower := follows_level (l := .raising) hshow h hturns
  have hterm := follows_level (l := .multiplicative) hshow hpower hturns
  exact follows_level (l := .additive) hshow hterm hturns

/-! ### Groups and unaries -/

/-- A group is read from its opener on. -/
theorem gives_group
    (hshow : Shows look front stop)
    {expression : Walk Draft} {rule : Rule} (hexp : Follows front stop expression rule)
    {opener : Token} {ts : List Token} (hts : opener :: ts <:+ front) :
    Gives front.length stop (opener :: ts) (Calculator.group rule opener ts)
      (group look expression (front.length - (opener :: ts).length)) := by
  have hsuffix : ts <:+ opener :: ts := List.suffix_cons opener ts
  rw [group, bind_of_ok (advance_of_suffix hshow hts)]
  refine Gives.of_suffix ?_ hsuffix
  refine (hexp ts (hsuffix.trans hts)).bind fun e rest hrest => ?_
  have hin : rest <:+ front := hrest.trans (hsuffix.trans hts)
  rw [bind_of_ok (check_of_suffix hshow hin .rightParen)]
  cases rest with
  | nil =>
    -- the end of the text closes no group
    rw [List.headD_nil, hshow.kind_stop]
    exact bind_of_ok (peek_of_suffix hshow hin) _
  | cons closer after =>
    by_cases hcloser : closer.kind = .rightParen
    · have hcheck : (closer.kind == .rightParen) = true := beq_iff_eq.2 hcloser
      dsimp only
      rw [if_pos hcloser, List.headD_cons, if_pos hcheck,
        bind_of_ok (advance_of_suffix hshow hin)]
      exact ⟨(List.suffix_cons closer after).trans hrest, rfl⟩
    · have hcheck : ¬ (closer.kind == .rightParen) = true := by simpa using hcloser
      dsimp only
      rw [if_neg hcloser, List.headD_cons, if_neg hcheck, bind_of_ok (peek_of_suffix hshow hin)]
      rfl

theorem follows_primaryOver
    (hshow : Shows look front stop) {group : Walk Draft}
    {rule : Token → Rule}
    (hgroup : ∀ opener ts, opener :: ts <:+ front →
      Gives front.length stop (opener :: ts) (rule opener ts)
        (group (front.length - (opener :: ts).length))) :
    Follows front stop (primaryOver look group) (Calculator.primaryOver rule) := by
  intro ts hts
  rw [primaryOver, bind_of_ok (peek_of_suffix hshow hts)]
  cases ts with
  | nil =>
    rw [List.headD_nil, hshow.kind_stop]
    rfl
  | cons t ts =>
    rw [List.headD_cons, Calculator.primaryOver]
    cases hkind : t.kind with
    | number =>
      dsimp only
      rw [bind_of_ok (advance_of_suffix hshow hts)]
      exact ⟨List.suffix_cons t ts, rfl⟩
    | leftParen => exact hgroup t ts hts
    | finish | plus | minus | star | slash | caret | rightParen => rfl

/-- The rule for what follows a minus sign. -/
def unaryBelow : (room : Nat) → Rule
  | 0 => fun _ => .error .tooDeep
  | room + 1 => Calculator.unary room

theorem unary_minus_eq {t : Token} (ht : t.kind = .minus) (room : Nat) (ts : List Token) :
    Calculator.unary room (t :: ts) = (unaryBelow room ts).map (negated t) := by
  cases room with
  | zero => simp [Calculator.unary, ht, unaryBelow, Except.map]
  | succ room => exact unary_minus ht room ts

theorem gives_negation (hshow : Shows look front stop) {operand : Walk Draft} {rule : Rule}
    (hop : Follows front stop operand rule) {sign : Token} {ts : List Token}
    (hts : sign :: ts <:+ front) :
    Gives front.length stop (sign :: ts) ((rule ts).map (negated sign))
      (negation look operand (front.length - (sign :: ts).length)) := by
  have hsuffix : ts <:+ sign :: ts := List.suffix_cons sign ts
  have hmap :
      (rule ts).map (negated sign) = (rule ts >>= fun found => .ok (negated sign found)) := by
    cases rule ts <;> rfl
  rw [negation, bind_of_ok (advance_of_suffix hshow hts), hmap]
  refine Gives.of_suffix ?_ hsuffix
  refine (hop ts (hsuffix.trans hts)).bind fun e rest hrest => ?_
  exact ⟨hrest, rfl⟩

theorem follows_unaryOver (hshow : Shows look front stop) {operand group : Walk Draft}
    {room : Nat} (hop : Follows front stop operand (unaryBelow room))
    (hgroup : ∀ opener ts, opener :: ts <:+ front →
      Gives front.length stop (opener :: ts) (groupWithin room opener ts)
        (group (front.length - (opener :: ts).length))) :
    Follows front stop (unaryOver look operand group) (Calculator.unary room) := by
  intro ts hts
  rw [unaryOver, bind_of_ok (check_of_suffix hshow hts .minus)]
  have hprimary := follows_primaryOver hshow hgroup ts hts
  cases ts with
  | nil =>
    rw [List.headD_nil, hshow.kind_stop, Calculator.unary]
    exact hprimary
  | cons t ts =>
    by_cases ht : t.kind = .minus
    · have hcheck : (t.kind == .minus) = true := beq_iff_eq.2 ht
      rw [List.headD_cons, if_pos hcheck, unary_minus_eq ht]
      exact gives_negation hshow hop hts
    · have hcheck : ¬ (t.kind == .minus) = true := by simpa using ht
      rw [List.headD_cons, if_neg hcheck, unary_of_ne ht]
      exact hprimary

theorem follows_halt : Follows front stop (halt .tooDeep) fun _ => .error .tooDeep :=
  fun _ _ => rfl

/-- **A unary is read as the rule reads it**, whatever room there is. -/
theorem follows_unary (hshow : Shows look front stop) {turns : Nat}
    (hturns : front.length ≤ turns) (room : Nat) :
    Follows front stop (unary look turns room) (Calculator.unary room) := by
  -- a group goes down by six and a minus sign by one
  induction room using Nat.strongRecOn with
  | ind room ih =>
    have hdeep : ∀ {room : Nat}, room < 6 → ∀ opener ts, opener :: ts <:+ front →
        Gives front.length stop (opener :: ts) (groupWithin room opener ts)
          (halt .tooDeep (front.length - (opener :: ts).length)) := by
      intro room hroom opener ts hts
      rw [groupWithin_of_lt hroom]
      rfl
    rcases room with _ | room
    · rw [unary_zero]
      exact follows_unaryOver hshow follows_halt (hdeep (by omega))
    · have hoperand := ih room (Nat.lt_succ_self room)
      rcases Nat.lt_or_ge room 5 with hlt | hge
      · rw [unary_of_lt look turns hlt]
        exact follows_unaryOver hshow hoperand (hdeep (by omega))
      · obtain ⟨room, rfl⟩ := Nat.exists_eq_add_of_le' hge
        rw [unary_add_six]
        refine follows_unaryOver hshow hoperand fun opener ts hts => ?_
        exact gives_group hshow (follows_expressionOver hshow hturns (ih room (by omega))) hts

theorem follows_parse (hshow : Shows look front stop) {turns : Nat}
    (hturns : front.length ≤ turns) :
    Follows front stop (parse look turns) (wholeExpression allowance) := by
  have hunary := follows_unary hshow hturns allowance
  intro ts hts
  refine (follows_expressionOver hshow hturns hunary ts hts).bind fun e rest hrest => ?_
  have hin : rest <:+ front := hrest.trans hts
  rw [bind_of_ok (check_of_suffix hshow hin .finish)]
  cases rest with
  | nil =>
    rw [List.headD_nil, hshow.kind_stop]
    exact ⟨hrest, rfl⟩
  | cons t rest =>
    have hcheck : ¬ (t.kind == .finish) = true := by
      simpa using hshow.kind_front t (hin.subset (List.mem_cons_self ..))
    rw [List.headD_cons, if_neg hcheck]
    exact bind_of_ok (peek_of_suffix hshow hin) _

end

end Walk

/-- Tokens that are shown alike up to the end coincide there. -/
theorem Walk.Shows.coincide {look look' : Nat → Token} {front : List Token} {stop : Token}
    (h : Shows look front stop) (h' : Shows look' front stop) :
    Coincide front.length look look' := by
  have hplace : ∀ place, place ≤ front.length →
      front.length - (front.drop place).length = place := by
    intro place hle
    rw [List.length_drop]
    omega
  refine ⟨?_, ?_⟩
  · intro place hle
    have hlook := h.look_eq _ (List.drop_suffix place front)
    have hlook' := h'.look_eq _ (List.drop_suffix place front)
    rw [hplace place hle] at hlook hlook'
    rw [hlook, hlook']
  · have hlook := h.look_eq [] (List.nil_suffix)
    rw [List.length_nil, Nat.sub_zero, List.headD_nil] at hlook
    rw [hlook, h.kind_stop]

/-! ### Whole lists -/

/-- A cursor is put in front of the tokens that a walk is shown. -/
theorem shows_tokenAt (ts : List Token) :
    Walk.Shows (tokenAt ts) (Cursor.ofTokens ts).ahead (Cursor.ofTokens ts).stop := by
  have hsplit : ts = ts.takeWhile Cursor.inText ++ ts.dropWhile Cursor.inText :=
    (List.takeWhile_append_dropWhile ..).symm
  refine ⟨?_, ?_, ?_⟩
  · rintro suffix ⟨before, hfront⟩
    -- a place is told by the tokens that stand before the suffix
    have hplace : (Cursor.ofTokens ts).ahead.length - suffix.length = before.length := by
      rw [← hfront, List.length_append, Nat.add_sub_cancel]
    have hts : ts = before ++ (suffix ++ ts.dropWhile Cursor.inText) := by
      rw [← List.append_assoc, hfront]
      exact hsplit
    rw [hplace, tokenAt]
    show _ = suffix.headD ((ts.dropWhile Cursor.inText).headD (impliedEnd ts))
    generalize ts.dropWhile Cursor.inText = behind at hts ⊢
    generalize impliedEnd ts = implied
    rw [hts, List.getElem?_append_right (Nat.le_refl _), Nat.sub_self]
    cases suffix with
    | nil => cases behind <;> rfl
    | cons t suffix => rfl
  · intro t ht
    simpa [Cursor.inText] using List.all_eq_true.1 List.all_takeWhile t ht
  · -- behind the text stands an end, or the one that the list is taken to have
    show ((ts.dropWhile Cursor.inText).headD (impliedEnd ts)).kind = .finish
    cases hbehind : ts.dropWhile Cursor.inText with
    | nil =>
      unfold impliedEnd
      split <;> rfl
    | cons t behind =>
      have hhead := List.head?_dropWhile_not Cursor.inText ts
      rw [hbehind] at hhead
      simpa [Cursor.inText] using hhead

theorem length_ahead_le (ts : List Token) : (Cursor.ofTokens ts).ahead.length ≤ ts.length :=
  (List.takeWhile_prefix _).length_le

/-- **Reading by a walk is reading by the rules**: the result is the same, and so is the place,
unless the walk breaks off because the nesting is too deep. -/
theorem walk_eq_parse (ts : List Token) :
    (walk ts).1 = (Cursor.ofTokens ts).parse.1 ∧
      ((walk ts).1 ≠ .error .tooDeep → (walk ts).2 = (Cursor.ofTokens ts).parse.2.passed) := by
  have hfollows := Walk.follows_parse (shows_tokenAt ts) (length_ahead_le ts)
    (Cursor.ofTokens ts).ahead (List.suffix_refl _)
  rw [Nat.sub_self] at hfollows
  unfold walk Cursor.parse Cursor.apply
  cases hread : wholeExpression allowance (Cursor.ofTokens ts).ahead with
  | ok reading =>
    obtain ⟨e, rest⟩ := reading
    rw [hread] at hfollows
    rw [hfollows.2]
    exact ⟨rfl, fun _ => (Nat.zero_add _).symm⟩
  | error reason =>
    cases reason with
    | fault r =>
      rw [hread] at hfollows
      have hfound : Walk.parse (tokenAt ts) ts.length 0 = _ := hfollows
      rw [hfound]
      exact ⟨rfl, fun _ => (Nat.zero_add _).symm⟩
    | tooDeep =>
      rw [hread] at hfollows
      -- the walk breaks off further on, and the cursor is not moved
      have hfound : (Walk.parse (tokenAt ts) ts.length 0).1 = .error .tooDeep := hfollows
      exact ⟨hfound, fun hne => absurd hfound hne⟩

/-- Lists of tokens that are read in the same way: by a walk, step by step and with the same place
in the end, and by a cursor. -/
structure ReadAlike (ts ts' : List Token) : Prop where
  walk_eq : walk ts = walk ts'
  parse_eq : (Cursor.ofTokens ts).parse = (Cursor.ofTokens ts').parse

theorem readAlike_of_ofTokens_eq {ts ts' : List Token}
    (h : Cursor.ofTokens ts = Cursor.ofTokens ts') : ReadAlike ts ts' := by
  have hshow := shows_tokenAt ts
  have hshow' := shows_tokenAt ts'
  have hturns' := length_ahead_le ts'
  rw [← h] at hshow' hturns'
  -- both walks are shown the same up to the end, and have turns enough for it
  have hwalk := Walk.alike_parse (hshow.coincide hshow') (length_ahead_le ts) hturns'
  exact ⟨(hwalk 0 (Nat.zero_le _)).1, by rw [h]⟩

theorem ofTokens_of_forall {ts : List Token} (h : ∀ t ∈ ts, t.kind ≠ .finish) :
    Cursor.ofTokens ts = ⟨0, ts, impliedEnd ts⟩ := by
  have hin : ∀ t ∈ ts, Cursor.inText t = true := by
    intro t ht
    simpa [Cursor.inText] using h t ht
  have htake : (ts ++ []).takeWhile Cursor.inText = ts ++ [].takeWhile Cursor.inText :=
    List.takeWhile_append_of_pos hin
  have hdrop : (ts ++ []).dropWhile Cursor.inText = [].dropWhile Cursor.inText :=
    List.dropWhile_append_of_pos hin
  rw [List.append_nil, List.takeWhile_nil, List.append_nil] at htake
  rw [List.append_nil, List.dropWhile_nil] at hdrop
  rw [Cursor.ofTokens, htake, hdrop, List.headD_nil]

theorem readAlike_impliedEnd {ts : List Token} (h : ∀ t ∈ ts, t.kind ≠ .finish) :
    ReadAlike ts (ts ++ [impliedEnd ts]) := by
  have hend : (impliedEnd ts).kind = .finish := by
    unfold impliedEnd
    split <;> rfl
  exact readAlike_of_ofTokens_eq
    ((ofTokens_of_forall h).trans (Cursor.ofTokens_append h hend).symm)

/-- **Only the tokens up to the first end of the text matter, and a missing end is the same as one
right after the last token**, or at the beginning of an empty text.  Walking along all tokens, with
whatever stands behind the end, gives what the rules give. -/
theorem parse_up_to_end (ts : List Token) :
    (∀ front stop rest, ts = front ++ stop :: rest → (∀ t ∈ front, t.kind ≠ .finish) →
        stop.kind = .finish → ReadAlike ts (front ++ [stop])) ∧
      (∀ front last, ts = front ++ [last] → (∀ t ∈ ts, t.kind ≠ .finish) →
        ReadAlike ts (ts ++ [⟨.finish, "", none, ⟨last.location.name, last.location.line,
          last.location.column + last.lexeme.length,
          last.location.offset + last.lexeme.length⟩⟩])) ∧
      (ts = [] → ReadAlike ts [⟨.finish, "", none, ⟨"<input>", 1, 1, 0⟩⟩]) ∧
      (walk ts).1 = (Cursor.ofTokens ts).parse.1 ∧
      ((walk ts).1 ≠ .error .tooDeep → (walk ts).2 = (Cursor.ofTokens ts).parse.2.passed) := by
  refine ⟨?_, ?_, ?_, walk_eq_parse ts⟩
  · rintro front stop rest rfl hfront hstop
    exact readAlike_of_ofTokens_eq ((Cursor.ofTokens_append_cons hfront hstop rest).trans
      (Cursor.ofTokens_append hfront hstop).symm)
  · rintro front last rfl hfront
    have hread := readAlike_impliedEnd hfront
    rwa [impliedEnd, List.getLast?_append, List.getLast?_singleton, Option.some_or] at hread
  · rintro rfl
    exact readAlike_impliedEnd (by simp)

/-- Of the numbers `1` and `2` with an end between them only the first is read, whether the second
one is there or not, and so is the number `12` without an end. -/
theorem parse_up_to_end_numbers :
    let place (n : Nat) : Location := ⟨"<input>", 1, n + 1, n⟩
    let one : Token := ⟨.number, "1", some .one, place 0⟩
    let twelve : Token := ⟨.number, "12", some .one, place 0⟩
    ReadAlike [one, .finish (place 1), one] [one, .finish (place 1)] ∧
      walk [one, .finish (place 1), one] = (.ok (.literal (some .one) ⟨place 0, place 0⟩), 1) ∧
      ReadAlike [twelve] [twelve, .finish (place 2)] := by
  intro place one twelve
  refine ⟨?_, rfl, ?_⟩
  · exact (parse_up_to_end [one, .finish (place 1), one]).1 [one] (.finish (place 1)) [one] rfl
      (by decide) rfl
  · have hend : (⟨.finish, "", none, ⟨twelve.location.name, twelve.location.line,
        twelve.location.column + twelve.lexeme.length,
        twelve.location.offset + twelve.lexeme.length⟩⟩ : Token) = .finish (place 2) := by decide
    rw [← hend]
    exact (parse_up_to_end [twelve]).2.1 [] twelve rfl (by decide)

end Calculator
