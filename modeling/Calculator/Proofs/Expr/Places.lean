import Calculator.Expr.Draft

/-!
# The places of an expression

Where an expression was written takes no part in its meaning.  Here every place in an expression is
moved at once, and expressions that differ in their places only are alike.  An expression is made of
its nodes, which are expressions in places of their own.

## Main definitions

* `Expr.moved` — the expression in other places.
* `Expr.bare`, `Expr.Alike` — the expression without its places, and equality of what is left.
* `Expr.parts`, `Expr.nodes` — the expressions that an expression is made of.
-/

namespace Calculator

/-- The span between other places. -/
def Span.moved (g : Location → Location) (s : Span) : Span := ⟨g s.first, g s.last⟩

namespace Expr

variable {α β : Type}

/-- The expression with all its places moved. -/
def moved (g : Location → Location) : Expr α → Expr α
  | literal value span => literal value (span.moved g)
  | negate operand span => negate (operand.moved g) (span.moved g)
  | binary op left right span => binary op (left.moved g) (right.moved g) (span.moved g)

@[simp] theorem span_moved (g : Location → Location) (e : Expr α) :
    (e.moved g).span = e.span.moved g := by
  cases e <;> rfl

@[simp] theorem moved_withSpan (g : Location → Location) (span : Span) (e : Expr α) :
    (e.withSpan span).moved g = (e.moved g).withSpan (span.moved g) := by
  cases e <;> rfl

@[simp] theorem moved_join (g : Location → Location) (op : Operator) (left right : Expr α) :
    (join op left right).moved g = join op (left.moved g) (right.moved g) := by
  rw [join, join, moved, span_moved, span_moved]
  rfl

@[simp] theorem height_moved (g : Location → Location) (e : Expr α) :
    (e.moved g).height = e.height := by
  induction e with
  | literal value span => rfl
  | negate operand span ih => rw [moved, height, height, ih]
  | binary op left right span ihl ihr => rw [moved, height, height, ihl, ihr]

theorem map_moved (f : α → β) (g : Location → Location) (e : Expr α) :
    (e.moved g).map f = (e.map f).moved g := by
  induction e with
  | literal value span => rfl
  | negate operand span ih => rw [moved, map, map, moved, ih]
  | binary op left right span ihl ihr => rw [moved, map, map, moved, ihl, ihr]

theorem moved_moved (g g' : Location → Location) (e : Expr α) :
    (e.moved g).moved g' = e.moved (g' ∘ g) := by
  induction e with
  | literal value span => rfl
  | negate operand span ih =>
    rw [moved, moved, moved, ih]
    rfl
  | binary op left right span ihl ihr =>
    rw [moved, moved, moved, ihl, ihr]
    rfl

/-! ### Expressions without places -/

/-- The expression without its places. -/
def bare : Expr α → Expr α := moved fun _ => Span.nowhere.first

/-- Two expressions are built alike from the same literals, wherever they were written. -/
def Alike (e e' : Expr α) : Prop := e.bare = e'.bare

theorem Alike.symm {e e' : Expr α} (h : e.Alike e') : e'.Alike e := Eq.symm h

theorem Alike.trans {e e' e'' : Expr α} (h : e.Alike e') (h' : e'.Alike e'') : e.Alike e'' :=
  Eq.trans h h'

theorem alike_moved (g : Location → Location) (e : Expr α) : (e.moved g).Alike e :=
  moved_moved g _ e

theorem alike_withSpan (span : Span) (e : Expr α) : (e.withSpan span).Alike e := by
  cases e <;> rfl

theorem alike_literal {e : Expr α} {value : α} {span : Span} (h : e.Alike (literal value span)) :
    ∃ span', e = literal value span' := by
  cases e with
  | literal value' span' =>
    obtain ⟨rfl, -⟩ := literal.inj h
    exact ⟨span', rfl⟩
  | negate operand span' => cases h
  | binary op left right span' => cases h

theorem alike_negate {e operand : Expr α} {span : Span} (h : e.Alike (negate operand span)) :
    ∃ operand' span', e = negate operand' span' ∧ operand'.Alike operand := by
  cases e with
  | literal value span' => cases h
  | negate operand' span' => exact ⟨operand', span', rfl, (negate.inj h).1⟩
  | binary op left right span' => cases h

theorem alike_binary {e left right : Expr α} {op : Operator} {span : Span}
    (h : e.Alike (binary op left right span)) :
    ∃ left' right' span', e = binary op left' right' span' ∧ left'.Alike left ∧
      right'.Alike right := by
  cases e with
  | literal value span' => cases h
  | negate operand span' => cases h
  | binary op' left' right' span' =>
    obtain ⟨rfl, hleft, hright, -⟩ := binary.inj h
    exact ⟨left', right', span', rfl, hleft, hright⟩

/-! ### Nodes -/

/-- The expressions that an expression is made of, apart from itself, in the order in which they are
evaluated. -/
def parts : Expr α → List (Expr α)
  | literal _ _ => []
  | negate operand _ => operand.parts ++ [operand]
  | binary _ left right _ => left.parts ++ [left] ++ (right.parts ++ [right])

/-- The expressions that an expression is made of, itself as the last. -/
def nodes (e : Expr α) : List (Expr α) := e.parts ++ [e]

@[simp] theorem mem_nodes {x e : Expr α} : x ∈ e.nodes ↔ x ∈ e.parts ∨ x = e := by
  simp [nodes]

@[simp] theorem parts_withSpan (span : Span) (e : Expr α) : (e.withSpan span).parts = e.parts := by
  cases e <;> rfl

@[simp] theorem parts_negate (operand : Expr α) (span : Span) :
    (negate operand span).parts = operand.nodes := rfl

@[simp] theorem parts_binary (op : Operator) (left right : Expr α) (span : Span) :
    (binary op left right span).parts = left.nodes ++ right.nodes := rfl

@[simp] theorem parts_join (op : Operator) (left right : Expr α) :
    (join op left right).parts = left.nodes ++ right.nodes := rfl

theorem mem_nodes_trans {x y e : Expr α} (hx : x ∈ y.nodes) (hy : y ∈ e.nodes) : x ∈ e.nodes := by
  induction e with
  | literal value span =>
    rcases mem_nodes.1 hy with hy | rfl
    · cases hy
    · exact hx
  | negate operand span ih =>
    rcases mem_nodes.1 hy with hy | rfl
    · exact mem_nodes.2 (Or.inl (ih hy))
    · exact hx
  | binary op left right span ihl ihr =>
    rcases mem_nodes.1 hy with hy | rfl
    · rcases List.mem_append.1 hy with hy | hy
      · exact mem_nodes.2 (Or.inl (List.mem_append_left _ (ihl hy)))
      · exact mem_nodes.2 (Or.inl (List.mem_append_right _ (ihr hy)))
    · exact hx

/-- Moving an expression takes notice of nothing but the spans of its nodes. -/
theorem moved_congr {g g' : Location → Location} {e : Expr α}
    (h : ∀ x ∈ e.nodes, x.span.moved g = x.span.moved g') : e.moved g = e.moved g' := by
  -- an expression is the last of its nodes, behind those of its operands
  induction e with
  | literal value span =>
    have hspan : span.moved g = span.moved g' := h (literal value span) (mem_nodes.2 (Or.inr rfl))
    rw [moved, moved, hspan]
  | negate operand span ih =>
    have hspan : span.moved g = span.moved g' := h (negate operand span) (mem_nodes.2 (Or.inr rfl))
    rw [moved, moved, hspan, ih fun x hx => h x (mem_nodes.2 (Or.inl hx))]
  | binary op left right span ihl ihr =>
    have hspan : span.moved g = span.moved g' :=
      h (binary op left right span) (mem_nodes.2 (Or.inr rfl))
    have hleft : left.moved g = left.moved g' :=
      ihl fun x hx => h x (mem_nodes.2 (Or.inl (List.mem_append_left _ hx)))
    have hright : right.moved g = right.moved g' :=
      ihr fun x hx => h x (mem_nodes.2 (Or.inl (List.mem_append_right _ hx)))
    rw [moved, moved, hspan, hleft, hright]

theorem nodes_map (f : α → β) (e : Expr α) : (e.map f).nodes = e.nodes.map (map f) := by
  induction e with
  | literal value span => rfl
  | negate operand span ih =>
    rw [nodes, nodes, map, parts_negate, parts_negate, ih, List.map_append, List.map_singleton, map]
  | binary op left right span ihl ihr =>
    rw [nodes, nodes, map, parts_binary, parts_binary, ihl, ihr, List.map_append, List.map_append,
      List.map_singleton, map]

end Expr

end Calculator
