/-!
# Tables of code points

A character property is given by a table: the ranges of code points that have it, in increasing
order.  The order is what lets a search end early.

## Main definitions

* `ascendingFrom` — the ranges of a list begin at a bound, increase and do not overlap.
* `RangeTable` — ranges in this order.
* `RangeTable.covers` — whether a code point lies in one of the ranges.

## Main results

* `inRanges_iff` — the search finds what some range covers, although it ends early.
* `RangeTable.covers_iff` — the same for a table.
-/

namespace Calculator

/-- Whether the ranges begin at `bound` or beyond it, increase and do not overlap. -/
def ascendingFrom : Nat → List (Nat × Nat) → Bool
  | _, [] => true
  | bound, (first, last) :: rest => bound ≤ first && first ≤ last && ascendingFrom (last + 1) rest

/-- Whether `n` lies in one of the ranges.  The ranges increase, so that the search ends at the
first range that begins beyond `n`. -/
def inRanges : List (Nat × Nat) → Nat → Bool
  | [], _ => false
  | (first, last) :: rest, n => if n < first then false else n ≤ last || inRanges rest n

/-- Ranges of code points in increasing order. -/
structure RangeTable where
  ranges : List (Nat × Nat)
  ascending : ascendingFrom 0 ranges = true

/-- Ranges in increasing order cover nothing below their bound. -/
theorem le_of_ascendingFrom {bound : Nat} {ranges : List (Nat × Nat)}
    (h : ascendingFrom bound ranges = true) {r : Nat × Nat} (hr : r ∈ ranges) : bound ≤ r.1 := by
  induction ranges generalizing bound with
  | nil => cases hr
  | cons s rest ih =>
    obtain ⟨first, last⟩ := s
    rw [ascendingFrom, Bool.and_eq_true, Bool.and_eq_true, decide_eq_true_eq,
      decide_eq_true_eq] at h
    obtain ⟨⟨hbound, hle⟩, hrest⟩ := h
    rcases List.mem_cons.1 hr with rfl | hr
    · exact hbound
    · have hbeyond := ih hrest hr
      omega

/-- **The search finds what some range covers**, although it ends at the first range beyond. -/
theorem inRanges_iff {bound : Nat} {ranges : List (Nat × Nat)}
    (h : ascendingFrom bound ranges = true) (n : Nat) :
    inRanges ranges n = true ↔ ∃ r ∈ ranges, r.1 ≤ n ∧ n ≤ r.2 := by
  induction ranges generalizing bound with
  | nil => simp [inRanges]
  | cons r rest ih =>
    obtain ⟨first, last⟩ := r
    have hrest : ascendingFrom (last + 1) rest = true := by
      rw [ascendingFrom, Bool.and_eq_true] at h
      exact h.2
    have hfirst : first ≤ last := by
      simp only [ascendingFrom, Bool.and_eq_true, decide_eq_true_eq] at h
      exact h.1.2
    rw [inRanges]
    by_cases hlt : n < first
    · -- the search ends here, and every later range begins further beyond
      rw [if_pos hlt]
      refine iff_of_false Bool.false_ne_true ?_
      rintro ⟨s, hs, hle, -⟩
      rcases List.mem_cons.1 hs with rfl | hs
      · exact absurd hle (Nat.not_le.2 hlt)
      · have hbeyond := le_of_ascendingFrom hrest hs
        omega
    · have hcovered : n ≤ last ↔ first ≤ n ∧ n ≤ last := by omega
      rw [if_neg hlt, Bool.or_eq_true, decide_eq_true_eq, ih hrest]
      simp only [List.mem_cons, exists_eq_or_imp]
      exact or_congr_left hcovered

namespace RangeTable

/-- Whether a code point lies in one of the ranges of a table. -/
def covers (table : RangeTable) (n : Nat) : Bool := inRanges table.ranges n

theorem covers_iff (table : RangeTable) (n : Nat) :
    table.covers n = true ↔ ∃ r ∈ table.ranges, r.1 ≤ n ∧ n ≤ r.2 :=
  inRanges_iff table.ascending n

end RangeTable

end Calculator
