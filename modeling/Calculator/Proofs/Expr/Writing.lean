import Calculator.Proofs.Expr.Finite
import Calculator.Proofs.Number.Display

/-!
# Expressions in writing

Nested applications say which expression they are.  A number is written without parentheses, commas
and blanks, so that it ends where one of these follows, and an application ends where its
parentheses are closed; whatever is written in front of a comma or a parenthesis is therefore one
expression and no other.

## Main definitions

* `EndsArgument` — what may follow an argument of an application.

## Main results

* `Expr.text_negate_append`, `Expr.text_binary_append` — applications, character by character.
* `Expr.text_append_inj` — the expression that a text begins with.
* `Expr.text_eq_text_iff` — **expressions have the same text if and only if they are the same.**
-/

namespace Calculator

/-- Nothing follows, or the end of an argument. -/
def EndsArgument (rest : List Char) : Prop := ∀ c ∈ rest.head?, inNumber c = false

theorem Operator.exists_functionName_eq (op : Operator) :
    ∃ a b c, op.functionName.toList = [a, b, c] ∧ inNumber a = false := by
  cases op <;> exact ⟨_, _, _, rfl, by decide⟩

theorem Operator.functionName_injective {op op' : Operator}
    (h : op.functionName = op'.functionName) : op = op' := by
  revert h
  cases op <;> cases op' <;> decide

theorem Operator.functionName_ne_negate (op : Operator) : op.functionName ≠ "Neg" := by
  cases op <;> decide

namespace Expr

/-! ### Applications -/

theorem text_negate_append (operand : Expr Binary64) (span : Span) (rest : List Char) :
    (negate operand span).text.toList ++ rest =
      "Neg".toList ++ '(' :: (operand.text.toList ++ ')' :: rest) := by
  simp [text, application]

/-- An operation in front of other characters. -/
theorem text_binary_append (op : Operator) (left right : Expr Binary64) (span : Span)
    (rest : List Char) : (binary op left right span).text.toList ++ rest =
      op.functionName.toList ++
        '(' :: (left.text.toList ++ ',' :: ' ' :: (right.text.toList ++ ')' :: rest)) := by
  simp [text, application]

theorem display_append_ne {x : Binary64} (hx : x.isFinite = true) {a : Char}
    (ha : inNumber a = false) (rest cs : List Char) : x.display.toList ++ rest ≠ a :: cs := by
  obtain ⟨hne, hall⟩ := Binary64.inNumber_of_mem_display hx
  obtain ⟨c, ds, hdisplay⟩ := List.exists_cons_of_ne_nil hne
  -- the first characters differ, since one of them is in a number
  intro heq
  rw [hdisplay, List.cons_append] at heq
  rw [(List.cons.inj heq).1.symm, hall c (by simp [hdisplay])] at ha
  cases ha

/-- A number ends where no character of a number follows. -/
theorem display_append_inj {x y : Binary64} (hx : x.isFinite = true) (hy : y.isFinite = true)
    {rest rest' : List Char} (hrest : EndsArgument rest) (hrest' : EndsArgument rest')
    (h : x.display.toList ++ rest = y.display.toList ++ rest') :
    x.sameNumber y = true ∧ rest = rest' := by
  -- the number is the longest run of characters that numbers have
  have hnumber : x.display.toList = y.display.toList := by
    rw [← takeWhile_append_of_head (Binary64.inNumber_of_mem_display hx).2 hrest, h,
      takeWhile_append_of_head (Binary64.inNumber_of_mem_display hy).2 hrest']
  rw [hnumber] at h
  exact ⟨(Binary64.display_eq_display_iff hx hy).1 (String.toList_injective hnumber),
    List.append_cancel_left h⟩

/-! ### Finite literals -/

@[simp] theorem finiteLiterals_literal {x : Binary64} {span : Span} :
    (literal x span).FiniteLiterals ↔ x.isFinite = true := by
  simp [FiniteLiterals, parts]

@[simp] theorem finiteLiterals_negate {operand : Expr Binary64} {span : Span} :
    (negate operand span).FiniteLiterals ↔ operand.FiniteLiterals := by
  simp [FiniteLiterals]

@[simp] theorem finiteLiterals_binary {op : Operator} {left right : Expr Binary64} {span : Span} :
    (binary op left right span).FiniteLiterals ↔ left.FiniteLiterals ∧ right.FiniteLiterals := by
  constructor
  · intro h
    exact ⟨h.of_mem_nodes (by simp), h.of_mem_nodes (by simp)⟩
  · rintro ⟨hleft, hright⟩ value span hmem
    simp only [mem_nodes, parts_binary, List.mem_append, reduceCtorEq, or_false] at hmem
    exact hmem.elim
      (fun h => hleft value span (mem_nodes.2 h)) fun h => hright value span (mem_nodes.2 h)

/-! ### The text of an expression -/

theorem endsArgument_closed (rest : List Char) : EndsArgument (')' :: rest) := by
  intro c hc
  obtain rfl : ')' = c := Option.some.inj hc
  rfl

theorem endsArgument_comma (rest : List Char) : EndsArgument (',' :: rest) := by
  intro c hc
  obtain rfl : ',' = c := Option.some.inj hc
  rfl

theorem application_append_inj {name name' : String} {cs ds : List Char}
    (hlength : name.toList.length = name'.toList.length)
    (h : name.toList ++ '(' :: cs = name'.toList ++ '(' :: ds) : name = name' ∧ cs = ds := by
  obtain ⟨hname, hrest⟩ := List.append_inj h hlength
  exact ⟨String.toList_injective hname, (List.cons.inj hrest).2⟩

/-- **The expression that a text begins with** is found in it, if what follows ends an argument. -/
theorem text_append_inj {t u : Expr Binary64} (ht : t.FiniteLiterals) (hu : u.FiniteLiterals)
    {rest rest' : List Char} (hrest : EndsArgument rest) (hrest' : EndsArgument rest')
    (h : t.text.toList ++ rest = u.text.toList ++ rest') : t.same u = true ∧ rest = rest' := by
  -- what follows is general: behind an operand it is another than behind the whole
  induction t generalizing u rest rest' with
  | literal x span =>
    have hx := finiteLiterals_literal.1 ht
    cases u with
    | literal y span' => exact display_append_inj hx (finiteLiterals_literal.1 hu) hrest hrest' h
    | negate operand span' =>
      rw [text_negate_append] at h
      exact absurd h (display_append_ne hx (a := 'N') rfl _ _)
    | binary op left right span' =>
      obtain ⟨a, b, c, hname, ha⟩ := op.exists_functionName_eq
      rw [text_binary_append, hname] at h
      exact absurd h (display_append_ne hx ha _ _)
  | negate operand span ih =>
    have hoperand := finiteLiterals_negate.1 ht
    rw [text_negate_append] at h
    cases u with
    | literal y span' =>
      exact absurd h.symm (display_append_ne (finiteLiterals_literal.1 hu) (a := 'N') rfl _ _)
    | negate operand' span' =>
      rw [text_negate_append] at h
      obtain ⟨-, h⟩ := application_append_inj rfl h
      -- the parenthesis ends the operand
      obtain ⟨hsame, hclosed⟩ := ih hoperand (finiteLiterals_negate.1 hu) (endsArgument_closed _)
        (endsArgument_closed _) h
      exact ⟨hsame, (List.cons.inj hclosed).2⟩
    | binary op left right span' =>
      obtain ⟨a, b, c, hname, -⟩ := op.exists_functionName_eq
      rw [text_binary_append] at h
      -- no operator has the name of the negation
      have hneg := (application_append_inj (by rw [hname]; rfl) h).1
      exact absurd hneg.symm op.functionName_ne_negate
  | binary op left right span ihl ihr =>
    obtain ⟨hleft, hright⟩ := finiteLiterals_binary.1 ht
    obtain ⟨a, b, c, hname, ha⟩ := op.exists_functionName_eq
    rw [text_binary_append] at h
    cases u with
    | literal y span' =>
      rw [hname] at h
      exact absurd h.symm (display_append_ne (finiteLiterals_literal.1 hu) ha _ _)
    | negate operand' span' =>
      rw [text_negate_append] at h
      have hneg := (application_append_inj (by rw [hname]; rfl) h).1
      exact absurd hneg op.functionName_ne_negate
    | binary op' left' right' span' =>
      obtain ⟨a', b', c', hname', -⟩ := op'.exists_functionName_eq
      obtain ⟨hleft', hright'⟩ := finiteLiterals_binary.1 hu
      rw [text_binary_append] at h
      obtain ⟨hop, h⟩ := application_append_inj (by rw [hname, hname']; rfl) h
      -- the comma ends the left operand, and the parenthesis the right one
      obtain ⟨hsameLeft, h⟩ := ihl hleft hleft' (endsArgument_comma _) (endsArgument_comma _) h
      have hblank := (List.cons.inj (List.cons.inj h).2).2
      obtain ⟨hsameRight, h⟩ := ihr hright hright' (endsArgument_closed _) (endsArgument_closed _)
        hblank
      refine ⟨?_, (List.cons.inj h).2⟩
      rw [same, Operator.functionName_injective hop, hsameLeft, hsameRight]
      simp

theorem text_eq_of_same {t u : Expr Binary64} (ht : t.FiniteLiterals) (hu : u.FiniteLiterals)
    (h : t.same u = true) : t.text = u.text := by
  induction t generalizing u with
  | literal x span =>
    have hx := finiteLiterals_literal.1 ht
    cases u with
    | literal y span' =>
      exact (Binary64.display_eq_display_iff hx (finiteLiterals_literal.1 hu)).2 h
    | negate operand span' | binary op left right span' => cases h
  | negate operand span ih =>
    have hoperand := finiteLiterals_negate.1 ht
    cases u with
    | negate operand' span' => rw [text, text, ih hoperand (finiteLiterals_negate.1 hu) h]
    | literal y span' | binary op left right span' => cases h
  | binary op left right span ihl ihr =>
    obtain ⟨hleft, hright⟩ := finiteLiterals_binary.1 ht
    cases u with
    | binary op' left' right' span' =>
      obtain ⟨hleft', hright'⟩ := finiteLiterals_binary.1 hu
      rw [same, Bool.and_eq_true, Bool.and_eq_true, beq_iff_eq] at h
      rw [text, text, h.1.1, ihl hleft hleft' h.1.2, ihr hright hright' h.2]
    | literal y span' | negate operand' span' => cases h

/-- **Expressions have the same text if and only if they are the same**, apart from the places that
they were written in and the signs of zeros, as long as their literals are finite. -/
theorem text_eq_text_iff {t u : Expr Binary64} (ht : t.FiniteLiterals) (hu : u.FiniteLiterals) :
    t.text = u.text ↔ t.same u = true := by
  constructor
  · intro h
    have hnil : EndsArgument [] := by simp [EndsArgument]
    exact (text_append_inj ht hu hnil hnil (by rw [h])).1
  · exact text_eq_of_same ht hu

/-- A negative number is not written like a negation, but a negative zero is written like zero. -/
theorem text_eq_text_iff_signs :
    (literal (.signed true .one) .nowhere).text ≠ (negate (literal .one .nowhere) .nowhere).text ∧
      (binary .sub (literal (.signed true .zero) .nowhere) (literal .one .nowhere) .nowhere).text =
        (binary .sub (literal (.signed false .zero) .nowhere) (literal .one .nowhere)
          .nowhere).text := by
  constructor
  · rw [ne_eq, text_eq_text_iff (finiteLiterals_literal.2 (by decide))
      (finiteLiterals_negate.2 (finiteLiterals_literal.2 (by decide)))]
    decide
  · refine (text_eq_text_iff (finiteLiterals_binary.2 ⟨?_, ?_⟩)
      (finiteLiterals_binary.2 ⟨?_, ?_⟩)).2 (by decide)
    all_goals exact finiteLiterals_literal.2 (by decide)

end Expr

end Calculator
