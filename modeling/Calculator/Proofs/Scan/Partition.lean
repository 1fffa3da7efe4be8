import Calculator.Proofs.Scan.Tiling

/-!
# A scan partitions its text

The tokens and the faults of a scan are kept apart.  Merged by their offsets they are a tiling of
the text, so that nothing is lost, found twice or skipped, also where something is wrong.

## Main definitions

* `Scan.merged` — the tokens and the faults of a scan by offset.
* `Piece.Covers` — a piece covers the character at an index.
* `Partitions` — some pieces partition the characters of a text that are not white space.

## Main results

* `merge_pieces` — pieces in order are what their tokens and faults merge to.
* `Scanner.Tiled.exists_split` — what is in front of a piece, and what is tiled from there on.
* `Scanner.Tiled.partitions` — a tiling is a partition.
* `scan_partitions` — **the tokens and faults of a scan partition its text.**
-/

namespace Calculator

/-- Whether a piece begins no later than another one. -/
def Piece.startsBy (p q : Piece) : Bool := p.location.offset ≤ q.location.offset

/-- All that a scan has found in a text, tokens and faults by offset.  The last token is the end of
the text and no piece of it. -/
def Scan.merged (found : Scan) : List Piece :=
  (found.tokens.dropLast.map Except.ok).merge (found.faults.map Except.error) Piece.startsBy

/-- The offset behind the last character of a piece. -/
def Piece.stop (p : Piece) : Int := p.location.offset + (p.characters.length : Int)

/-- A piece ends before another one begins. -/
def Piece.Precedes (p q : Piece) : Prop := p.stop ≤ q.location.offset

/-- A piece covers the character at an index. -/
def Piece.Covers (p : Piece) (i : Nat) : Prop := p.location.offset ≤ i ∧ i < p.stop

/-- Some pieces partition the characters of a text that are not white space. -/
structure Partitions (cs : List Char) (pieces : List Piece) : Prop where
  /-- A piece is what stands at its offset, and fits there. -/
  stands : ∀ p ∈ pieces, ∃ before after, cs = before ++ (p.characters ++ after) ∧
    p.location.offset = before.length ∧ p.Fits after
  /-- A piece has at least one character. -/
  nonempty : ∀ p ∈ pieces, p.characters ≠ []
  /-- A piece ends before the ones behind it begin. -/
  ordered : pieces.Pairwise Piece.Precedes
  /-- No piece contains white space. -/
  unblank : ∀ p ∈ pieces, ∀ c ∈ p.characters, isBlank c = false
  /-- A character that is not white space is covered by exactly one piece. -/
  covered : ∀ (i : Nat) (hi : i < cs.length), isBlank cs[i] = false →
    ∃ p ∈ pieces, p.Covers i ∧ ∀ q ∈ pieces, q.Covers i → q = p
  /-- White space is covered by none. -/
  uncovered : ∀ (i : Nat) (hi : i < cs.length), isBlank cs[i] = true →
    ∀ p ∈ pieces, ¬ p.Covers i

/-! ### Tokens and faults merged -/

theorem merge_cons_left {p : Piece} {ps qs : List Piece} (h : ∀ q ∈ qs, p.startsBy q = true) :
    (p :: ps).merge qs Piece.startsBy = p :: ps.merge qs Piece.startsBy := by
  cases qs with
  | nil => rw [List.merge_right, List.merge_right]
  | cons q qs => exact List.cons_merge_cons_pos _ _ _ (h q (by simp))

theorem merge_cons_right {q : Piece} {ps qs : List Piece} (h : ∀ p ∈ ps, p.startsBy q = false) :
    ps.merge (q :: qs) Piece.startsBy = q :: ps.merge qs Piece.startsBy := by
  cases ps with
  | nil => rw [List.nil_merge, List.nil_merge]
  | cons p ps =>
    refine List.cons_merge_cons_neg _ _ _ ?_
    rw [h p (by simp)]
    decide

theorem mem_of_mem_pieceTokens {pieces : List Piece} {t : Token} (h : t ∈ pieceTokens pieces) :
    .ok t ∈ pieces := by
  obtain ⟨p, hp, ht⟩ := List.mem_filterMap.1 h
  cases p with
  | ok t' =>
    obtain rfl := Option.some.inj ht
    exact hp
  | error f => cases ht

theorem mem_of_mem_pieceFaults {pieces : List Piece} {f : LexicalFault}
    (h : f ∈ pieceFaults pieces) : .error f ∈ pieces := by
  obtain ⟨p, hp, hf⟩ := List.mem_filterMap.1 h
  cases p with
  | ok t => cases hf
  | error f' =>
    obtain rfl := Option.some.inj hf
    exact hp

/-- **Pieces in order are what their tokens and faults merge to.** -/
theorem merge_pieces {pieces : List Piece}
    (h : pieces.Pairwise fun p q => p.location.offset < q.location.offset) :
    ((pieceTokens pieces).map Except.ok).merge ((pieceFaults pieces).map Except.error)
      Piece.startsBy = pieces := by
  induction pieces with
  | nil => exact List.nil_merge _
  | cons p pieces ih =>
    obtain ⟨hfirst, hrest⟩ := List.pairwise_cons.1 h
    -- the first piece heads one of the two lists, and everything in the other one is behind it
    cases p with
    | ok t =>
      show List.merge (.ok t :: (pieceTokens pieces).map Except.ok) _ _ = _
      rw [merge_cons_left, show pieceFaults (.ok t :: pieces) = pieceFaults pieces from rfl,
        ih hrest]
      intro q hq
      obtain ⟨f, hf, rfl⟩ := List.mem_map.1 hq
      exact decide_eq_true (Int.le_of_lt (hfirst _ (mem_of_mem_pieceFaults hf)))
    | error f =>
      show List.merge _ (.error f :: (pieceFaults pieces).map Except.error) _ = _
      rw [merge_cons_right, show pieceTokens (.error f :: pieces) = pieceTokens pieces from rfl,
        ih hrest]
      intro q hq
      obtain ⟨t, ht, rfl⟩ := List.mem_map.1 hq
      exact decide_eq_false (Int.not_le.2 (hfirst _ (mem_of_mem_pieceTokens ht)))

/-! ### What a tiling covers -/

namespace Scanner

theorem offset_location (name : String) (s : Scanner) :
    (s.location name).offset = s.position.offset := rfl

/-- Where a piece behind white space begins. -/
theorem offset_piece {name : String} {s : Scanner} {blanks rest : List Char} {piece : Piece}
    (hahead : s.ahead = blanks ++ rest)
    (hlocation : piece.location = (s.advanceBy blanks.length).location name) :
    piece.location.offset = (s.position.offset : Int) + blanks.length := by
  have hle : blanks.length ≤ s.ahead.length := by simp [hahead]
  rw [hlocation, offset_location, offset_advanceBy hle, Int.natCast_add]

/-- Where the scan goes on behind white space and a piece. -/
theorem offset_behind {s : Scanner} {blanks rest : List Char} {piece : Piece}
    (hahead : s.ahead = blanks ++ (piece.characters ++ rest)) :
    (s.advanceBy (blanks.length + piece.characters.length)).position.offset =
      s.position.offset + (blanks.length + piece.characters.length) := by
  refine offset_advanceBy ?_
  simp only [hahead, List.length_append]
  omega

/-- **What is in front of a piece** of a tiling, and what is tiled from there on. -/
theorem Tiled.exists_split {name : String} {s : Scanner} {ps qs : List Piece} {p : Piece}
    (h : Tiled name s (ps ++ p :: qs)) :
    ∃ before after, s.ahead = before ++ (p.characters ++ after) ∧ p.Fits after ∧
      p.location = (s.advanceBy before.length).location name ∧
      Tiled name (s.advanceBy before.length) (p :: qs) := by
  induction ps generalizing s with
  | nil =>
    cases h with
    | @piece _ blanks rest _ _ hblank hahead hfits hlocation hpieces =>
      refine ⟨blanks, rest, hahead, hfits, hlocation, .cons ?_ hfits hlocation ?_⟩
      · rw [ahead_advanceBy, hahead, List.drop_left]
      · rwa [advanceBy_add]
  | cons p' ps ih =>
    cases h with
    | @piece _ blanks rest _ _ hblank hahead hfits hlocation hpieces =>
      -- what stands before a later piece is the white space, this piece, and what is between them
      obtain ⟨before, after, hsplit, hfits', hlocation', htiled⟩ := ih hpieces
      rw [ahead_advanceBy, hahead, ← List.append_assoc, ← List.length_append,
        List.drop_left] at hsplit
      rw [advanceBy_add] at hlocation' htiled
      refine ⟨blanks ++ p'.characters ++ before, after, ?_, hfits', ?_, ?_⟩
      · rw [hahead, hsplit]
        simp only [List.append_assoc]
      · simpa only [List.length_append] using hlocation'
      · simpa only [List.length_append] using htiled

/-- In a tiling every piece is what stands at its offset. -/
theorem Tiled.stands {name : String} {s : Scanner} {pieces : List Piece}
    (h : Tiled name s pieces) {p : Piece} (hp : p ∈ pieces) :
    ∃ before after, s.ahead = before ++ (p.characters ++ after) ∧
      p.location.offset = s.position.offset + before.length ∧ p.Fits after := by
  obtain ⟨ps, qs, rfl⟩ := List.append_of_mem hp
  obtain ⟨before, after, hahead, hfits, hlocation, -⟩ := h.exists_split
  exact ⟨before, after, hahead, offset_piece hahead hlocation, hfits⟩

theorem Tiled.ordered {name : String} {s : Scanner} {pieces : List Piece}
    (h : Tiled name s pieces) : pieces.Pairwise Piece.Precedes := by
  induction h with
  | finish hblank => exact .nil
  | @piece s blanks rest piece pieces hblank hahead hfits hlocation hpieces ih =>
    refine .cons ?_ ih
    intro q hq
    obtain ⟨before, after, -, hoffset, -⟩ := hpieces.stands hq
    rw [offset_behind hahead] at hoffset
    rw [Piece.Precedes, Piece.stop, offset_piece hahead hlocation, hoffset]
    omega

theorem Tiled.exists_covers {name : String} {s : Scanner} {pieces : List Piece}
    (h : Tiled name s pieces) {i : Nat} {c : Char} (hc : s.ahead[i]? = some c)
    (hblank : isBlank c = false) : ∃ p ∈ pieces, p.Covers (s.position.offset + i) := by
  induction h generalizing i with
  | finish hall =>
    have hwhite := hall c (List.mem_of_getElem? hc)
    rw [hblank] at hwhite
    cases hwhite
  | @piece s blanks rest piece pieces hall hahead hfits hlocation hpieces ih =>
    by_cases hbefore : i < blanks.length
    · -- the character would be white space
      rw [hahead, List.getElem?_append_left hbefore] at hc
      have hwhite := hall c (List.mem_of_getElem? hc)
      rw [hblank] at hwhite
      cases hwhite
    by_cases hinside : i < blanks.length + piece.characters.length
    · refine ⟨piece, by simp, ?_⟩
      rw [Piece.Covers, Piece.stop, offset_piece hahead hlocation]
      omega
    · -- the character is one of those behind the piece
      obtain ⟨k, rfl⟩ := Nat.exists_eq_add_of_le (Nat.le_of_not_lt hinside)
      obtain ⟨p, hp, hcovers⟩ := ih (i := k) (by rw [ahead_advanceBy, List.getElem?_drop, hc])
      refine ⟨p, by simp [hp], ?_⟩
      rwa [offset_behind hahead, Nat.add_assoc] at hcovers

end Scanner

/-- At most one of some pieces in order covers a character. -/
theorem eq_of_covers {pieces : List Piece}
    (h : pieces.Pairwise Piece.Precedes)
    {p q : Piece} (hp : p ∈ pieces) (hq : q ∈ pieces) {i : Nat} (hpi : p.Covers i)
    (hqi : q.Covers i) : q = p := by
  induction h with
  | nil => cases hp
  | @cons r pieces hfirst hrest ih =>
    obtain ⟨hstart, hstop⟩ := hpi
    obtain ⟨hstart', hstop'⟩ := hqi
    -- of two pieces the one ends before the other begins, so that only one is left
    rcases List.mem_cons.1 hp with rfl | hp'
    · rcases List.mem_cons.1 hq with rfl | hq'
      · rfl
      · have hle : p.stop ≤ q.location.offset := hfirst q hq'
        omega
    · rcases List.mem_cons.1 hq with rfl | hq'
      · have hle : q.stop ≤ p.location.offset := hfirst p hp'
        omega
      · exact ih hp' hq'

theorem Scanner.Tiled.partitions {name text : String} {pieces : List Piece}
    (h : Tiled name (.ofText text) pieces) : Partitions text.toList pieces := by
  have hstands : ∀ p ∈ pieces, ∃ before after, text.toList = before ++ (p.characters ++ after) ∧
      p.location.offset = before.length ∧ p.Fits after := by
    intro p hp
    obtain ⟨before, after, hsplit, hoffset, hfits⟩ := h.stands hp
    exact ⟨before, after, hsplit, by simpa [ofText, Position.start] using hoffset, hfits⟩
  refine ⟨hstands, ?_, h.ordered, ?_, ?_, ?_⟩
  · intro p hp
    obtain ⟨before, after, -, -, hfits⟩ := hstands p hp
    exact hfits.characters_ne_nil
  · intro p hp c hc
    obtain ⟨before, after, -, -, hfits⟩ := hstands p hp
    exact hfits.isBlank_of_mem hc
  · intro i hi hblank
    obtain ⟨p, hp, hcovers⟩ :=
      h.exists_covers (i := i) (List.getElem?_eq_getElem hi) hblank
    rw [show (ofText text).position.offset + i = i from Nat.zero_add i] at hcovers
    exact ⟨p, hp, hcovers, fun q hq hqi => eq_of_covers h.ordered hp hq hcovers hqi⟩
  · intro i hi hblank p hp hcovers
    obtain ⟨before, after, hsplit, hoffset, hfits⟩ := hstands p hp
    rw [Piece.Covers, Piece.stop, hoffset] at hcovers
    -- the character at the index is one of the piece
    obtain ⟨k, rfl⟩ := Nat.exists_eq_add_of_le (Int.ofNat_le.1 hcovers.1)
    have hk : k < p.characters.length := by omega
    have hmem : text.toList[before.length + k] ∈ p.characters := by
      simp only [hsplit, List.getElem_append_right (Nat.le_add_right _ _), Nat.add_sub_cancel_left,
        List.getElem_append_left hk, List.getElem_mem]
    rw [hfits.isBlank_of_mem hmem] at hblank
    cases hblank

/-! ### Scans -/

theorem Piece.Fits.kind_ne_finish {t : Token} {rest : List Char} (h : Fits (.ok t) rest) :
    t.kind ≠ .finish := by
  cases h with
  | number hlexeme hfinite => simp
  | symbol hkind =>
    have hall : ∀ entry ∈ Token.Kind.symbols, entry.2 ≠ .finish := by decide
    exact hall _ (Token.Kind.mem_symbols hkind)

/-- A number token of a text has a finite value without a sign. -/
theorem Piece.Fits.exists_size {t : Token} {rest : List Char} (h : Fits (.ok t) rest)
    (ht : t.kind = .number) :
    ∃ size : Magnitude, t.value = some (.signed false size) ∧ size.isFinite = true := by
  cases h with
  | number hlexeme hfinite => exact ⟨_, rfl, hfinite⟩
  | symbol hkind =>
    have hall : ∀ entry ∈ Token.Kind.symbols, entry.2 ≠ .number := by decide
    exact absurd ht (hall _ (Token.Kind.mem_symbols hkind))

theorem Scanner.Tiled.starts {name : String} {s : Scanner} {pieces : List Piece}
    (h : Tiled name s pieces) :
    pieces.Pairwise fun p q => p.location.offset < q.location.offset := by
  refine h.ordered.imp_of_mem ?_
  intro p q hp _ hle
  obtain ⟨before, after, -, -, hfits⟩ := h.stands hp
  -- to end in time is more than to begin in time, as no piece is empty
  have hpos := hfits.length_pos
  rw [Piece.Precedes, Piece.stop] at hle
  omega

theorem merged_scan (name text : String) :
    (scan name text).merged = ((Scanner.ofText text).pieces name).1 := by
  have htiled := Scanner.tiled_pieces name (.ofText text)
  simp only [Scan.merged, scan, List.dropLast_concat]
  exact merge_pieces htiled.starts

/-- **The tokens and faults of a scan partition its text**, and the last token, and no other, is the
end of the text. -/
theorem scan_partitions (name text : String) :
    Partitions text.toList (scan name text).merged ∧
      ∃ tokens l, (scan name text).tokens = tokens ++ [.finish l] ∧ l.offset = (text.length : Int) ∧
        ∀ t ∈ tokens, t.kind ≠ .finish := by
  have htiled := Scanner.tiled_pieces name (.ofText text)
  refine ⟨?_, pieceTokens ((Scanner.ofText text).pieces name).1,
    ((Scanner.ofText text).pieces name).2.location name, rfl, ?_, ?_⟩
  · rw [merged_scan]
    exact htiled.partitions
  · rw [Scanner.pieces_last, Scanner.offset_location, Scanner.offset_advanceBy (Nat.le_refl _)]
    simp [Scanner.ofText, Position.start, String.length_toList]
  · intro t ht
    obtain ⟨before, after, -, -, hfits⟩ := htiled.stands (mem_of_mem_pieceTokens ht)
    exact hfits.kind_ne_finish

end Calculator
