import Calculator.Proofs.Calculation.Moving
import Calculator.Proofs.Scan.Joining

/-!
# One text behind another

A text that is put behind another one is scanned as if it stood alone, unless a numeral goes on
across the seam: the pieces of the one text are followed by those of the other, and only the places
of the latter change.  Its lines are counted on from the last line of the text in front, and the
columns of its first line from the end of that line.

## Main definitions

* `lastLine` — what stands behind the last line feed.
* `Location.behind` — where a place of a text is found behind another text.

## Main results

* `Location.behind_inText` — the places of a text that stands behind another one.
* `Scanner.pieces_append` — the pieces of both texts.
* `scan_append` — **scanning one text behind another.**
-/

namespace Calculator

/-! ### Places behind a text -/

/-- The characters behind the last line feed, from the end. -/
def lastLine (cs : List Char) : List Char := cs.reverse.takeWhile (· ≠ '\n')

/-- Where a place of a text is found if the text stands behind another one.  Only the first line
goes on with a line of the text in front. -/
def Location.behind (front : String) (l : Location) : Location where
  name := l.name
  line := l.line + front.toList.count '\n'
  column := if l.line = 1 then l.column + (lastLine front.toList).length else l.column
  offset := l.offset + front.length

theorem lastLine_append_of_not_mem {cs ds : List Char} (h : '\n' ∉ ds) :
    lastLine (cs ++ ds) = ds.reverse ++ lastLine cs := by
  have hall : ∀ c ∈ ds.reverse, decide (c ≠ '\n') = true := by
    intro c hc
    refine decide_eq_true ?_
    rintro rfl
    exact h (List.mem_reverse.1 hc)
  rw [lastLine, List.reverse_append, List.takeWhile_append_of_pos hall]
  rfl

theorem lastLine_append_of_mem {cs ds : List Char} (h : '\n' ∈ ds) :
    lastLine (cs ++ ds) = lastLine ds := by
  obtain ⟨before, after, rfl⟩ := List.append_of_mem h
  -- what is taken from the end does not go past the line feed
  have hstop (more : List Char) : (after.reverse ++ '\n' :: more).takeWhile (· ≠ '\n') =
      after.reverse.takeWhile (· ≠ '\n') := by
    rw [List.takeWhile_append, List.takeWhile_cons_of_neg (by simp), List.append_nil]
    split
    · rename_i hlength
      exact ((List.takeWhile_sublist _).eq_of_length hlength).symm
    · rfl
  have hreverse : (before ++ '\n' :: after).reverse = after.reverse ++ '\n' :: before.reverse := by
    simp
  rw [lastLine, lastLine, List.reverse_append, hreverse, List.append_assoc, List.cons_append, hstop,
    hstop]

/-- The place behind two stretches of characters, from the place behind the second one. -/
theorem Location.behind_placeAfter (name front : String) (cs : List Char) :
    (ofPosition name (placeAfter cs)).behind front =
      ofPosition name (placeAfter (front.toList ++ cs)) := by
  have hline : (ofPosition name (placeAfter cs)).line = 1 ↔ '\n' ∉ cs := by
    rw [← List.count_eq_zero]
    show ((1 + cs.count '\n' : Nat) : Int) = 1 ↔ _
    omega
  have hcolumn (ds : List Char) :
      (ofPosition name (placeAfter ds)).column = 1 + (lastLine ds).length := Int.natCast_add 1 _
  rw [Location.mk.injEq]
  refine ⟨rfl, ?_, ?_, ?_⟩
  · show ((1 + cs.count '\n' : Nat) : Int) + front.toList.count '\n' =
      (1 + (front.toList ++ cs).count '\n' : Nat)
    rw [List.count_append]
    omega
  · show (if _ then _ else _) = (ofPosition name (placeAfter (front.toList ++ cs))).column
    rw [hcolumn, hcolumn]
    -- only the first line goes on with a line of the text in front
    by_cases h : '\n' ∈ cs
    · rw [if_neg (mt hline.1 (not_not_intro h)), lastLine_append_of_mem h]
    · rw [if_pos (hline.2 h), lastLine_append_of_not_mem h, List.length_append, List.length_reverse]
      have hfirst : lastLine ([] ++ cs) = cs.reverse ++ lastLine [] := lastLine_append_of_not_mem h
      rw [List.nil_append, show lastLine [] = [] from rfl, List.append_nil] at hfirst
      rw [hfirst, List.length_reverse]
      omega
  · show ((cs.length : Nat) : Int) + front.length = ((front.toList ++ cs).length : Nat)
    rw [List.length_append, String.length_toList]
    omega

/-- **The places of a text that stands behind another one.** -/
theorem Location.behind_inText (name a b : String) (k : Nat) :
    (inText name b k).behind a = inText name (a ++ b) (a.length + k) := by
  rw [inText, behind_placeAfter, inText, String.toList_append, ← String.length_toList,
    List.take_length_add_append]

theorem Location.inText_append (name a b : String) {k : Nat} (hk : k ≤ a.length) :
    inText name (a ++ b) k = inText name a k := by
  rw [inText, inText, String.toList_append, List.take_append_of_le_length]
  rwa [String.length_toList]

/-! ### Scanning -/

theorem Piece.moved_id (p : Piece) : p.moved id = p := by
  cases p <;> rfl

section Append

variable {name a b : String}

theorem Scanner.Tiled.behind {ps : List Piece} (h : (ofText b).Tiled name ps) :
    ((ofText (a ++ b)).advanceBy a.length).Tiled name
      (ps.map (Piece.moved (Location.behind a))) := by
  have hahead : ((ofText (a ++ b)).advanceBy a.length).ahead = (ofText b).ahead ++ [] := by
    rw [ahead_advanceBy, List.append_nil, ← String.length_toList]
    show (a ++ b).toList.drop _ = _
    rw [String.toList_append, List.drop_left]
    rfl
  -- nothing stands behind the second text
  have hend : (((ofText (a ++ b)).advanceBy a.length).advanceBy (ofText b).ahead.length).Tiled
      name [] := by
    refine .finish ?_
    rw [ahead_advanceBy, hahead, List.append_nil, List.drop_length]
    simp
  have happend := h.append (g := Location.behind a) hahead (Or.inr (by simp)) ?_ hend
  · rwa [List.append_nil] at happend
  · intro k _
    rw [location_ofText, advanceBy_add, location_ofText, Location.behind_inText]

/-- **The pieces of both texts**, those of the second one behind the first. -/
theorem Scanner.pieces_append (h : Apart a.toList b.toList) :
    ((ofText (a ++ b)).pieces name).1 =
      ((ofText a).pieces name).1 ++
        ((ofText b).pieces name).1.map (Piece.moved (Location.behind a)) := by
  have hahead : (ofText (a ++ b)).ahead = (ofText a).ahead ++ b.toList := String.toList_append
  -- the first pieces stay where they are
  have hplaces : ∀ k ≤ (ofText a).ahead.length,
      id (((ofText a).advanceBy k).location name) =
        ((ofText (a ++ b)).advanceBy k).location name := by
    intro k hk
    rw [location_ofText, location_ofText]
    exact (Location.inText_append name a b (length_ahead_ofText a ▸ hk)).symm
  have happend := (tiled_pieces name (ofText a)).append hahead h hplaces
    (length_ahead_ofText a ▸ (tiled_pieces name (ofText b)).behind)
  rw [List.map_congr_left fun p _ => Piece.moved_id p, List.map_id'] at happend
  exact happend.pieces_eq

theorem tokens_scan (name text : String) :
    (scan name text).tokens = pieceTokens ((Scanner.ofText text).pieces name).1 ++
      [.finish (.inText name text text.length)] := by
  rw [← Scanner.location_last]
  rfl

/-- **Scanning one text behind another**: if no numeral goes on across the seam, the tokens of the
one text, without its end, are followed by those of the other, and the faults as well; all that
changes is where those of the second text are. -/
theorem scan_append (name : String) (h : Apart a.toList b.toList) :
    (scan name (a ++ b)).tokens =
        (scan name a).tokens.dropLast ++
          (scan name b).tokens.map (Token.moved (Location.behind a)) ∧
      (scan name (a ++ b)).faults =
        (scan name a).faults ++
          (scan name b).faults.map (LexicalFault.moved (Location.behind a)) := by
  have hpieces : ((Scanner.ofText (a ++ b)).pieces name).1 = _ := Scanner.pieces_append h
  constructor
  · -- the end of the second text is the end of both
    have hend : (Token.finish (.inText name b b.length)).moved (Location.behind a) =
        .finish (.inText name (a ++ b) (a ++ b).length) := by
      rw [String.length_append, ← Location.behind_inText]
      rfl
    rw [tokens_scan, tokens_scan, tokens_scan, List.dropLast_concat, hpieces, pieceTokens,
      List.filterMap_append, ← pieceTokens, ← pieceTokens, pieceTokens_moved, List.map_append,
      List.map_singleton, hend, List.append_assoc]
  · show pieceFaults ((Scanner.ofText (a ++ b)).pieces name).1 = _
    rw [hpieces, pieceFaults, List.filterMap_append, ← pieceFaults, ← pieceFaults,
      pieceFaults_moved]
    rfl

end Append

/-- A sign ends a numeral, and the text behind it goes on in the second line. -/
theorem scan_append_second_line :
    Apart "1 $\n2.".toList "-3\n×4".toList ∧
      (scan defaultName ("1 $\n2." ++ "-3\n×4")).tokens =
        (scan defaultName "1 $\n2.").tokens.dropLast ++
          (scan defaultName "-3\n×4").tokens.map (Token.moved (Location.behind "1 $\n2.")) ∧
      (scan defaultName ("1 $\n2." ++ "-3\n×4")).faults =
        (scan defaultName "1 $\n2.").faults ++
          (scan defaultName "-3\n×4").faults.map
            (LexicalFault.moved (Location.behind "1 $\n2.")) ∧
      (scan defaultName ("1 $\n2." ++ "-3\n×4")).tokens.map
          (fun t => (t.lexeme, t.location.line, t.location.column)) =
        [("1", 1, 1), ("2.", 2, 1), ("-", 2, 3), ("3", 2, 4), ("4", 3, 2), ("", 3, 3)] := by
  have hhead : "-3\n×4".toList.head? = some '-' := by decide
  have hapart : Apart "1 $\n2.".toList "-3\n×4".toList := by
    refine Or.inr fun d hd => ?_
    rw [hhead] at hd
    obtain rfl := Option.some.inj hd
    decide
  obtain ⟨htokens, hfaults⟩ := scan_append defaultName hapart
  exact ⟨hapart, htokens, hfaults, by decide +kernel⟩

end Calculator
