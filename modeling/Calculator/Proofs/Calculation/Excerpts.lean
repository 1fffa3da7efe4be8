import Calculator.Proofs.Calculation.Pointing

/-!
# What the span of a node covers

The span of a node begins where the node begins and ends where its last token begins.  The stretch
of the text from the one to the end of that token is a text of its own, and it is read as the node
again: the same operators on the same numbers, with all offsets counted from the beginning of the
stretch.  This holds of numbers, negations, operations and groups alike, however many parentheses
have widened the span.

## Main definitions

* `Expr.offsetsFrom` — an expression whose places are told by their offsets from a given one.

## Main results

* `reads_excerpt_of_mem_nodes` — **the span of a node covers what the node is read from.**
-/

namespace Calculator

/-- The expression with all its places told by nothing but their offsets from a given one. -/
def Expr.offsetsFrom {α : Type} (p : Int) : Expr α → Expr α :=
  moved fun l => ⟨"", 0, 0, l.offset - p⟩

/-- An expression in other places has the offsets of the expression, if those of its nodes have been
moved by the same distance. -/
theorem Expr.offsetsFrom_moved {α : Type} {g : Location → Location} {p : Int} {e : Expr α}
    (h : ∀ x ∈ e.nodes, (g x.span.first).offset = x.span.first.offset - p ∧
      (g x.span.last).offset = x.span.last.offset - p) :
    (e.moved g).offsetsFrom 0 = e.offsetsFrom p := by
  rw [offsetsFrom, offsetsFrom, moved_moved]
  refine moved_congr ?_
  intro x hx
  obtain ⟨hfirst, hlast⟩ := h x hx
  simp only [Span.moved, Function.comp_apply, hfirst, hlast, Int.sub_zero]

/-- **The span of a node covers what the node is read from**: there is one token where the span
ends, and the stretch of the text from the beginning of the span to the end of that token is read,
whatever name it is given, as an expression alike, with all offsets counted from the beginning of
the span. -/
theorem reads_excerpt_of_mem_nodes {name text : String} {tokens : List Token}
    {tree e : Expr Binary64} (h : Reads name text tokens tree) (he : e ∈ tree.nodes) :
    ∃ (p : Nat) (last : Token), e.span.first.offset = p ∧
      (∀ t, t ∈ tokens ∧ t.location.offset = e.span.last.offset ↔ t = last) ∧
      ∀ name', ∃ tokens' e', Reads name' (excerpt text p last) tokens' e' ∧ e'.Alike e ∧
        e'.offsetsFrom 0 = e.offsetsFrom p := by
  obtain ⟨p, hp, hfirst, last, hlast, hend, hexcerpt⟩ := exists_reads_excerpt h he
  refine ⟨p, last, by rw [hfirst, Location.offset_inText name hp], ?_, ?_⟩
  · intro t
    constructor
    · rintro ⟨ht, hoffset⟩
      exact eq_of_offset_eq h.1 ht hlast (by rw [hoffset, hend])
    · rintro rfl
      exact ⟨hlast, by rw [hend]⟩
  · intro name'
    obtain ⟨g, tokens', hoffsets, hreads⟩ := hexcerpt name'
    exact ⟨tokens', e.moved g, hreads, e.alike_moved g, Expr.offsetsFrom_moved hoffsets⟩

/-- The right operand of a product is read from its parentheses and what is between them. -/
theorem reads_excerpt_of_mem_nodes_group :
    let tokens := (tokenize defaultName "2*(3-1)").toOption.getD []
    let tree := (parse tokens).toOption.getD default
    let e := tree.nodes.getD 3 default
    Reads defaultName "2*(3-1)" tokens tree ∧ e ∈ tree.nodes ∧ e.span.first.offset = 2 ∧
      e.span.last.offset = 6 ∧ ∃ tokens' e', Reads defaultName "(3-1)" tokens' e' ∧ e'.Alike e ∧
        e'.offsetsFrom 0 = e.offsetsFrom 2 := by
  intro tokens tree e
  have htokens : (tokenize defaultName "2*(3-1)").isOk = true := by decide +kernel
  have htree : (parse tokens).isOk = true := by decide +kernel
  have hreads : Reads defaultName "2*(3-1)" tokens tree :=
    ⟨eq_ok_getD_of_isOk htokens [], eq_ok_getD_of_isOk htree default⟩
  have he : e ∈ tree.nodes := by decide +kernel
  have hfirst : e.span.first.offset = 2 := by decide +kernel
  have hlast : e.span.last.offset = 6 := by decide +kernel
  obtain ⟨p, last, hp, honly, hexcerpt⟩ := reads_excerpt_of_mem_nodes hreads he
  obtain rfl : p = 2 := by omega
  -- only one token begins at the offset 6, and the stretch up to its end is the group
  have hgroup : (tokens.all fun t =>
      t.location.offset ≠ 6 || excerpt "2*(3-1)" 2 t == "(3-1)") = true := by decide +kernel
  obtain ⟨hmem, hoffset⟩ := (honly last).2 rfl
  have htext : excerpt "2*(3-1)" 2 last = "(3-1)" := by
    have h := List.all_eq_true.1 hgroup last hmem
    rw [hlast] at hoffset
    simpa [hoffset] using h
  refine ⟨hreads, he, hfirst, hlast, ?_⟩
  rw [← htext]
  exact hexcerpt defaultName

end Calculator
