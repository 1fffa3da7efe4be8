import Calculator.Proofs.Expr.Blame

/-!
# How much room a value needs

The value of an expression costs two of the allowance for each of its levels.  So an expression that
has a value has the same value wherever there is that much room, and none where there is less: no
other reason is left for a walk to stop.

## Main results

* `Expr.Alike.valueWithin_eq_ok` — expressions that are alike have the same values.
* `Expr.valueWithin_negate`, `Expr.valueWithin_binary` — one more level needs room for one more.
* `Expr.valueWithin_eq_ite` — **how much room a value needs.**
-/

namespace Calculator

namespace Expr

theorem Alike.height_eq {α : Type} {e e' : Expr α} (h : e.Alike e') : e.height = e'.height := by
  have hbare : e.bare.height = e'.bare.height := congrArg height h
  unfold bare at hbare
  rwa [height_moved, height_moved] at hbare

theorem Alike.map {α β : Type} {e e' : Expr α} (h : e.Alike e') (f : α → β) :
    (e.map f).Alike (e'.map f) := by
  have hmap : e.bare.map f = e'.bare.map f := congrArg (Expr.map f) h
  unfold bare at hmap
  rwa [map_moved, map_moved] at hmap

theorem Alike.valueWithin_eq_ok {e e' : Expr Binary64} (h : e.Alike e') {room : Nat} {x : Binary64}
    (hx : e'.valueWithin room = .ok x) : e.valueWithin room = .ok x := by
  -- both have the value of the expression without places
  have hbare : e.bare.valueWithin room = e'.bare.valueWithin room :=
    congrArg (valueWithin room) h
  unfold bare at hbare
  rw [valueWithin_moved, valueWithin_moved, hx] at hbare
  cases hvalue : e.valueWithin room with
  | ok y =>
    rw [hvalue] at hbare
    exact hbare
  | error halt =>
    rw [hvalue] at hbare
    cases hbare

section Room

variable {room : Nat} {x y : Binary64} {span : Span}

/-- A negation needs room for one more level than its operand. -/
theorem valueWithin_negate {operand : Expr Binary64}
    (hx : operand.valueWithin room =
      if 2 * operand.height ≤ room then .ok x else .error .tooDeep) :
    (negate operand span).valueWithin (room + 2) =
      if 2 * (negate operand span).height ≤ room + 2 then .ok x.neg else .error .tooDeep := by
  rw [valueWithin, hx, height]
  by_cases hroom : 2 * operand.height ≤ room
  · rw [if_pos hroom, if_pos (by omega)]
    rfl
  · rw [if_neg hroom, if_neg (by omega)]
    rfl

/-- An operation needs room for one more level than either of its operands. -/
theorem valueWithin_binary {op : Operator} {left right : Expr Binary64}
    (hx : left.valueWithin room = if 2 * left.height ≤ room then .ok x else .error .tooDeep)
    (hy : right.valueWithin room = if 2 * right.height ≤ room then .ok y else .error .tooDeep) :
    (binary op left right span).valueWithin (room + 2) =
      if 2 * (binary op left right span).height ≤ room + 2 then
        (op.apply left right span x y).mapError .fault
      else .error .tooDeep := by
  rw [valueWithin, hx, hy, height]
  by_cases hleft : 2 * left.height ≤ room
  · rw [if_pos hleft]
    by_cases hright : 2 * right.height ≤ room
    · rw [if_pos hright, if_pos (by omega)]
      rfl
    · rw [if_neg hright, if_neg (by omega)]
      rfl
  · -- the left operand has no room, whatever the right one needs
    have hboth : ¬ 2 * (max left.height right.height + 1) ≤ room + 2 := by omega
    rw [if_neg hleft, if_neg hboth]
    rfl

end Room

theorem valueWithin_of_lt {room : Nat} (h : room < 2) (e : Expr Binary64) :
    e.valueWithin room = .error .tooDeep := by
  rcases room with _ | _ | room
  · rfl
  · rfl
  · omega

theorem height_pos {α : Type} (e : Expr α) : 0 < e.height := by
  cases e with
  | literal value span => exact Nat.one_pos
  | negate operand span => exact Nat.succ_pos _
  | binary op left right span => exact Nat.succ_pos _

/-- **How much room a value needs**: if an expression has a value at all, two for each level. -/
theorem valueWithin_eq_ite {enough : Nat} {e : Expr Binary64} {x : Binary64}
    (h : e.valueWithin enough = .ok x) (room : Nat) :
    e.valueWithin room = if 2 * e.height ≤ room then .ok x else .error .tooDeep := by
  -- `enough` is general, since it goes down with each level
  induction e generalizing enough room x with
  | literal value span =>
    obtain ⟨enough, rfl⟩ := exists_room_of_valueWithin h
    rcases room with _ | _ | room
    · rfl
    · rfl
    · rw [height, if_pos (by omega)]
      exact h
  | negate operand span ih =>
    obtain ⟨enough, rfl⟩ := exists_room_of_valueWithin h
    obtain ⟨y, hy, hx⟩ := exists_of_bind_eq_ok h
    obtain rfl := Except.ok.inj hx
    rcases Nat.lt_or_ge room 2 with hlt | hge
    · have hpos := height_pos (negate operand span)
      rw [valueWithin_of_lt hlt, if_neg (by omega)]
    · obtain ⟨room, rfl⟩ := Nat.exists_eq_add_of_le' hge
      exact valueWithin_negate (ih hy room)
  | binary op left right span ihl ihr =>
    obtain ⟨enough, rfl⟩ := exists_room_of_valueWithin h
    obtain ⟨y, hy, hrest⟩ := exists_of_bind_eq_ok h
    obtain ⟨z, hz, hx⟩ := exists_of_bind_eq_ok hrest
    rcases Nat.lt_or_ge room 2 with hlt | hge
    · have hpos := height_pos (binary op left right span)
      rw [valueWithin_of_lt hlt, if_neg (by omega)]
    · obtain ⟨room, rfl⟩ := Nat.exists_eq_add_of_le' hge
      rw [← hx]
      exact valueWithin_binary (ihl hy room) (ihr hz room)

/-- The value of an operation on expressions that have values. -/
theorem value_join {left right : Expr Binary64} {x y : Binary64} (hx : left.value = .ok x)
    (hy : right.value = .ok y) (op : Operator) :
    (join op left right).value =
      if 2 * (join op left right).height ≤ allowance then
        (op.apply left right (join op left right).span x y).mapError .fault
      else .error .tooDeep :=
  valueWithin_binary (valueWithin_eq_ite hx 998) (valueWithin_eq_ite hy 998)

/-- The value of a negation of an expression that has a value. -/
theorem value_negate {operand : Expr Binary64} {x : Binary64} (hx : operand.value = .ok x)
    (span : Span) :
    (negate operand span).value =
      if 2 * (negate operand span).height ≤ allowance then .ok x.neg else .error .tooDeep :=
  valueWithin_negate (valueWithin_eq_ite hx 998)

end Expr

theorem Expr.Alike.complete {d d' : Draft} (h : d.Alike d') :
    (Draft.complete d).Alike (Draft.complete d') := h.map _

@[simp] theorem Draft.height_complete (d : Draft) : (complete d).height = d.height :=
  Expr.height_map _ d

end Calculator
