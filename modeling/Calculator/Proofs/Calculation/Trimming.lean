import Calculator.Proofs.Calculation.Moving
import Calculator.Proofs.Calculation.Pointing
import Calculator.Proofs.Scan.Joining

/-!
# White space around a text

A text with white space around it has the outcome of the text alone in other places: every place is
found behind the white space in front, and the end of the text behind all of it.

## Main definitions

* `Location.surrounded` — where a place of a text is found if there is white space around it.

## Main results

* `exists_trim` — a text is what trimming leaves, with white space around it.
* `Scanner.Tiled.surrounded` — with white space around it a text has the same pieces.
* `outcome_surrounded` — **white space around a text only moves its outcome.**
* `exists_location_of_failure` — a failure is located in the text.
-/

namespace Calculator

/-- A text is what trimming leaves, with white space around it. -/
theorem exists_trim (cs : List Char) :
    ∃ behind, cs = cs.takeWhile isBlank ++ (trim cs ++ behind) ∧
      ∀ c ∈ behind, isBlank c = true := by
  let rest := cs.dropWhile isBlank
  refine ⟨(rest.reverse.takeWhile isBlank).reverse, ?_, ?_⟩
  · have hrest : trim cs ++ (rest.reverse.takeWhile isBlank).reverse = rest := by
      rw [trim, trimEnd, ← List.reverse_append, List.takeWhile_append_dropWhile,
        List.reverse_reverse]
    rw [hrest, List.takeWhile_append_dropWhile]
  · intro c hc
    exact List.all_eq_true.1 List.all_takeWhile c (List.mem_reverse.1 hc)

/-- Nothing is left of white space. -/
theorem trim_eq_nil_iff {cs : List Char} : trim cs = [] ↔ ∀ c ∈ cs, isBlank c = true := by
  constructor
  · intro h
    obtain ⟨behind, hcs, hbehind⟩ := exists_trim cs
    rw [h, List.nil_append] at hcs
    intro c hc
    rw [hcs, List.mem_append] at hc
    exact hc.elim (List.all_eq_true.1 List.all_takeWhile c) (hbehind c)
  · intro h
    have hdrop : cs.dropWhile isBlank = [] := by
      induction cs with
      | nil => rfl
      | cons c cs ih =>
        rw [List.dropWhile_cons_of_pos (h c (by simp))]
        exact ih fun d hd => h d (List.mem_cons_of_mem c hd)
    rw [trim, hdrop]
    rfl

theorem trim_ne_nil {cs : List Char} (h : ∃ c ∈ cs, isBlank c = false) : trim cs ≠ [] := by
  intro hnil
  obtain ⟨c, hc, hblank⟩ := h
  have htrue := trim_eq_nil_iff.1 hnil c hc
  rw [hblank] at htrue
  cases htrue

/-! ### White space around a text -/

/-- Where a place of a text is found if there is white space around the text: behind that in front,
and the end of the text behind all of it. -/
def Location.surrounded (name text inner : String) (lead : Nat) (l : Location) : Location :=
  .inText name text (if l.offset = inner.length then text.length else lead + l.offset.toNat)

theorem Location.surrounded_inText (name text : String) {inner : String} {k : Nat}
    (h : k ≤ inner.length) (lead : Nat) :
    (inText name inner k).surrounded name text inner lead =
      .inText name text (if k = inner.length then text.length else lead + k) := by
  rw [surrounded, offset_inText name h, Int.toNat_natCast]
  simp only [Int.natCast_inj]

section Surrounded

variable {text inner : String} {before behind : List Char}

/-- With white space around it a text has the same pieces. -/
theorem Scanner.Tiled.surrounded {name : String} {pieces : List Piece}
    (h : (ofText inner).Tiled name pieces)
    (htext : text.toList = before ++ (inner.toList ++ behind))
    (hbefore : ∀ c ∈ before, isBlank c = true) (hbehind : ∀ c ∈ behind, isBlank c = true) :
    (ofText text).Tiled name
      (pieces.map (Piece.moved (Location.surrounded name text inner before.length))) := by
  let s := (ofText text).advanceBy before.length
  have hahead : s.ahead = inner.toList ++ behind := by
    rw [ahead_advanceBy, show (ofText text).ahead = _ from htext, List.drop_left]
  have hapart : Apart inner.toList behind := by
    right
    intro c hc
    exact inNumeral_of_isBlank (hbehind c (List.mem_of_mem_head? hc))
  have hrest : (s.advanceBy inner.length).Tiled name [] := by
    refine .finish ?_
    rw [ahead_advanceBy, hahead, ← String.length_toList, List.drop_left]
    exact hbehind
  have hplaced := h.placed hahead hapart hrest
  -- a piece stands in front of the end of the text
  have hsame : pieces.map (Piece.moved (s.placing name)) =
      pieces.map (Piece.moved (Location.surrounded name text inner before.length)) := by
    refine List.map_congr_left ?_
    intro p hp
    obtain ⟨k, hk, hlocation, -⟩ := h.exists_place hp
    refine Piece.moved_congr ?_
    rw [hlocation, placing_inText name name (Nat.le_of_lt hk), advanceBy_add, location_ofText,
      Location.surrounded_inText name text (Nat.le_of_lt hk), if_neg (Nat.ne_of_lt hk)]
  rw [List.append_nil, hsame] at hplaced
  exact .behind_blanks htext hbefore hplaced

/-- **White space around a text only moves its outcome.** -/
theorem outcome_surrounded (htext : text.toList = before ++ (inner.toList ++ behind))
    (hbefore : ∀ c ∈ before, isBlank c = true) (hbehind : ∀ c ∈ behind, isBlank c = true)
    (watched : Bool) (name : String) :
    (calculate watched name text).outcome =
      (calculate watched name inner).outcome.map
        (Calculation.moved (Location.surrounded name text inner before.length) text) := by
  have hinner := Scanner.tiled_pieces name (.ofText inner)
  have hend : (Location.inText name inner inner.length).surrounded name text inner before.length =
      .inText name text text.length := by
    rw [Location.surrounded_inText name text (Nat.le_refl _), if_pos rfl]
  exact outcome_moved
    (tokenize_of_tiled_moved hinner (hinner.surrounded htext hbefore hbehind) hend)

end Surrounded

/-- A failure is located in the text. -/
theorem exists_location_of_failure {watched : Bool} {name text : String} {c : Calculation}
    {failure : Failure} (hc : (calculate watched name text).outcome = some c)
    (hfailure : c.result = .error failure) :
    ∃ p ≤ text.length, failure.diagnostic.location = .inText name text p := by
  cases staged_iff.2 hc with
  | lexical h =>
    cases hfailure
    obtain ⟨p, hp, hlocation, -⟩ := points_of_tokenize h
    exact ⟨p, hp, hlocation⟩
  | syntactic htokens h =>
    cases hfailure
    obtain ⟨p, hp, hlocation, -⟩ := points_of_parse htokens h
    exact ⟨p, hp, hlocation⟩
  | arithmetic hreads hwritten h =>
    cases hfailure
    obtain ⟨p, hp, hlocation, -⟩ := points_of_value hreads h
    exact ⟨p, hp, hlocation⟩
  | value hreads h => cases hfailure

end Calculator
