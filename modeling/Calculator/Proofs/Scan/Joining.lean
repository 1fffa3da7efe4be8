import Calculator.Proofs.Scan.Places

/-!
# Texts inside other texts

A text that is part of a longer text has its pieces there again, in other places, unless a numeral
goes on behind its end.  Where that cannot be, the two are *apart*: the one does not end, or the
other does not begin, with a digit or a point.

## Main definitions

* `inNumeral` — the characters that a numeral may go on with.
* `Apart` — stretches of characters that no numeral joins.
* `Scanner.placing` — where the places of a text are found if it stands in front of a scanner.

## Main results

* `Scanner.Tiled.behind_blanks` — white space may be put in front of a tiling.
* `Scanner.Tiled.append` — a tiling in front of another one.
* `Scanner.Tiled.placed` — **a text inside another text has its pieces there.**
-/

namespace Calculator

/-! ### Numerals that do not go on -/

/-- Whether a numeral may go on with a character. -/
def inNumeral (c : Char) : Bool := c.isDigit || c == '.'

/-- No numeral goes on from the one stretch of characters to the other. -/
def Apart (cs ds : List Char) : Prop :=
  (∀ c ∈ cs.getLast?, inNumeral c = false) ∨ ∀ d ∈ ds.head?, inNumeral d = false

theorem inNumeral_eq_false_iff {c : Char} :
    inNumeral c = false ↔ c.isDigit = false ∧ c ≠ '.' := by
  simp [inNumeral]

theorem inNumeral_of_isBlank {c : Char} (h : isBlank c = true) : inNumeral c = false := by
  refine inNumeral_eq_false_iff.2 ⟨?_, ?_⟩
  · refine Bool.eq_false_iff.2 fun hdigit => ?_
    rw [isBlank_of_isDigit hdigit] at h
    cases h
  · rintro rfl
    cases h

theorem inNumeral_of_ofSymbol? {c : Char} {kind : Token.Kind}
    (h : Token.Kind.ofSymbol? c = some kind) : inNumeral c = false := by
  have hall : ∀ entry ∈ Token.Kind.symbols, inNumeral entry.1 = false := by decide
  exact hall _ (Token.Kind.mem_symbols h)

theorem IsNumeral.inNumeral_of_mem {lexeme : List Char} (h : IsNumeral lexeme) {c : Char}
    (hc : c ∈ lexeme) : inNumeral c = true := by
  have hdigit : ∀ {d : Char}, d.isDigit = true → inNumeral d = true := by
    intro d hd
    rw [inNumeral, hd, Bool.true_or]
  cases h with
  | whole hne hdigits => exact hdigit (hdigits c hc)
  | fraction hne hdigits hplaces =>
    rcases List.mem_append.1 hc with hc | hc
    · exact hdigit (hdigits c hc)
    · rcases List.mem_cons.1 hc with rfl | hc
      · rfl
      · exact hdigit (hplaces c hc)

theorem Apart.of_append {front cs ds : List Char} (h : Apart (front ++ cs) ds) : Apart cs ds := by
  rcases h with h | h
  · left
    intro c hc
    refine h c ?_
    rw [List.getLast?_append, hc]
    rfl
  · exact Or.inr h

theorem IsNumeral.longest {lexeme rest : List Char} (h : IsNumeral lexeme)
    (hhead : ∀ c ∈ rest.head?, inNumeral c = false) : LongestNumeral lexeme rest := by
  refine ⟨h, ?_, ?_⟩
  · intro c hc
    exact (inNumeral_eq_false_iff.1 (hhead c hc)).1
  · intro _ hpoint
    exact (inNumeral_eq_false_iff.1 (hhead '.' hpoint)).2 rfl

theorem LongestNumeral.append {lexeme rest more : List Char} (h : LongestNumeral lexeme rest)
    (hapart : Apart (lexeme ++ rest) more) : LongestNumeral lexeme (rest ++ more) := by
  cases rest with
  -- it is seen at the first character that follows, which stays the same
  | cons c rest => exact ⟨h.numeral, h.no_digit, h.no_point⟩
  | nil =>
    rw [List.append_nil] at hapart
    -- the numeral ends with a character of numerals, so that the others do not begin with one
    refine h.numeral.longest (hapart.resolve_left fun hlast => ?_)
    obtain ⟨c, cs, rfl, -⟩ := h.numeral.exists_cons
    have hmem : (c :: cs).getLast (by simp) ∈ c :: cs := List.getLast_mem _
    have hfalse := hlast _ (List.getLast?_eq_some_getLast (by simp))
    rw [h.numeral.inNumeral_of_mem hmem] at hfalse
    cases hfalse

theorem Piece.Fits.moved_append {p : Piece} {rest more : List Char} (h : p.Fits rest)
    (hapart : Apart (p.characters ++ rest) more) (g : Location → Location) :
    (p.moved g).Fits (rest ++ more) := by
  cases h with
  | number hlexeme hfinite =>
    rw [characters, String.toList_ofList] at hapart
    exact .number (hlexeme.append hapart) hfinite
  | overflow hlexeme hinfinite =>
    rw [characters, String.toList_ofList] at hapart
    exact .overflow (hlexeme.append hapart) hinfinite
  | symbol hkind => exact .symbol hkind
  | unexpected hblank hdigit hkind => exact .unexpected hblank hdigit hkind

namespace Scanner

/-! ### Tilings in front of others -/

theorem Tiled.behind_blanks {name : String} {s : Scanner} {blanks rest : List Char}
    {ps : List Piece} (hahead : s.ahead = blanks ++ rest) (hblank : ∀ c ∈ blanks, isBlank c = true)
    (h : Tiled name (s.advanceBy blanks.length) ps) : Tiled name s ps := by
  have hrest : (s.advanceBy blanks.length).ahead = rest := by
    rw [ahead_advanceBy, hahead, List.drop_left]
  cases h with
  | finish hall =>
    rw [hrest] at hall
    refine .finish ?_
    intro c hc
    rw [hahead, List.mem_append] at hc
    exact hc.elim (hblank c) (hall c)
  | @piece _ blanks' rest' p ps hblank' hahead' hfits hlocation hpieces =>
    -- the white space in front of the first piece becomes longer
    have hboth : ∀ c ∈ blanks ++ blanks', isBlank c = true := by
      intro c hc
      exact (List.mem_append.1 hc).elim (hblank c) (hblank' c)
    refine .piece hboth ?_ hfits ?_ ?_
    · rw [hahead, ← hrest, hahead', List.append_assoc]
    · rw [hlocation, advanceBy_add, List.length_append]
    · rwa [advanceBy_add, ← Nat.add_assoc, ← List.length_append] at hpieces

/-- **A tiling in front of another one**: a scanner that has the tiled characters ahead, and others
behind them that are apart and tiled as well, has the pieces of both, the first ones in other
places. -/
theorem Tiled.append {name name' : String} {s s' : Scanner} {ps qs : List Piece} {rest : List Char}
    {g : Location → Location} (h : Tiled name s ps) (hahead : s'.ahead = s.ahead ++ rest)
    (hapart : Apart s.ahead rest)
    (hplaces : ∀ k ≤ s.ahead.length,
      g ((s.advanceBy k).location name) = (s'.advanceBy k).location name')
    (hqs : Tiled name' (s'.advanceBy s.ahead.length) qs) :
    Tiled name' s' (ps.map (Piece.moved g) ++ qs) := by
  induction h generalizing s' with
  -- only white space is left of the first tiling, and it comes to stand in front of the second
  | finish hblank => exact .behind_blanks hahead hblank hqs
  | @piece s blanks rest' p ps hblank hahead' hfits hlocation hpieces ih =>
    have hlength : s.ahead.length = blanks.length + (p.characters.length + rest'.length) := by
      rw [hahead', List.length_append, List.length_append]
    have hrest' : (s.advanceBy (blanks.length + p.characters.length)).ahead = rest' := by
      rw [ahead_advanceBy, hahead', ← List.append_assoc, ← List.length_append, List.drop_left]
    rw [hahead'] at hapart
    have hsplit : s'.ahead = blanks ++ ((p.moved g).characters ++ (rest' ++ rest)) := by
      rw [hahead, hahead', Piece.characters_moved]
      simp only [List.append_assoc]
    refine .piece hblank hsplit (hfits.moved_append hapart.of_append g) ?_ ?_
    · rw [Piece.location_moved, hlocation]
      exact hplaces _ (by omega)
    · -- behind the first piece the places still agree
      rw [Piece.characters_moved]
      refine ih ?_ ?_ ?_ ?_
      · rw [hrest', ahead_advanceBy, hsplit, Piece.characters_moved, ← List.append_assoc,
          ← List.length_append, List.drop_left]
      · rw [hrest']
        exact hapart.of_append.of_append
      · intro k hk
        rw [hrest'] at hk
        rw [advanceBy_add, advanceBy_add]
        exact hplaces _ (by omega)
      · rw [hrest', advanceBy_add, Nat.add_assoc, ← hlength]
        exact hqs

/-! ### Texts in front of a scanner -/

/-- Where the places of a text are found if the scanner stands at the beginning of it. -/
def placing (name : String) (s : Scanner) (l : Location) : Location :=
  (s.advanceBy l.offset.toNat).location name

theorem placing_inText (name name' : String) {text : String} {k : Nat} (h : k ≤ text.length)
    (s : Scanner) : s.placing name (.inText name' text k) = (s.advanceBy k).location name := by
  rw [placing, Location.offset_inText name' h, Int.toNat_natCast]

/-- **A text inside another text has its pieces there**, if what follows it is apart. -/
theorem Tiled.placed {name name' text : String} {ps qs : List Piece} {s : Scanner}
    {rest : List Char} (h : (ofText text).Tiled name ps) (hahead : s.ahead = text.toList ++ rest)
    (hapart : Apart text.toList rest) (hqs : Tiled name' (s.advanceBy text.length) qs) :
    Tiled name' s (ps.map (Piece.moved (s.placing name')) ++ qs) := by
  refine h.append hahead hapart ?_ ?_
  · intro k hk
    rw [location_ofText]
    exact placing_inText name' name (length_ahead_ofText text ▸ hk) s
  · rw [length_ahead_ofText]
    exact hqs

end Scanner

end Calculator
