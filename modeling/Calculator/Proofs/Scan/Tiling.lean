import Calculator.Token.Scanner

/-!
# Tilings of a text

A scan cuts a text into pieces with white space before, between and behind them.  What may be a
piece is said here without the scanner: a symbol, a numeral that cannot be made longer, or a
character that is neither white space nor the beginning of a token.  A *tiling* is a list of such
pieces that covers a text in order, and the pieces of a scan are the only tiling of a text.

## Main definitions

* `IsNumeral`, `LongestNumeral` — numerals, and numerals that end where no longer one is possible.
* `Piece.location`, `Piece.characters` — where a piece stands, and what it covers.
* `Piece.Fits` — what may be a piece in front of the given characters.
* `Scanner.Tiled` — a list of pieces covers what is ahead of a scanner.

## Main results

* `numeralLength_append` — the numeral at the beginning of a text is the longest one.
* `Piece.exists_fits` — a piece fits in front of everything but white space.
* `Scanner.next?_of_fits`, `Scanner.exists_fits_of_next?` — what one step of a scan takes.
* `Scanner.tiled_iff` — **the pieces of a scan are the only tiling.**
* `tokenize_of_tiled` — the tokens of a text that is tiled by tokens.
-/

namespace Calculator

/-! ### Runs of characters -/

theorem takeWhile_append_of_head {p : Char → Bool} {run rest : List Char}
    (hrun : ∀ c ∈ run, p c = true) (hrest : ∀ c ∈ rest.head?, p c = false) :
    (run ++ rest).takeWhile p = run := by
  rw [List.takeWhile_append_of_pos hrun]
  cases rest with
  | nil => simp
  | cons c rest =>
    have hc : ¬ p c = true := by simp [hrest c rfl]
    rw [List.takeWhile_cons_of_neg hc, List.append_nil]

theorem dropWhile_append_of_head {p : Char → Bool} {run rest : List Char}
    (hrun : ∀ c ∈ run, p c = true) (hrest : ∀ c ∈ rest.head?, p c = false) :
    (run ++ rest).dropWhile p = rest := by
  rw [List.dropWhile_append_of_pos hrun]
  cases rest with
  | nil => rfl
  | cons c rest =>
    have hc : ¬ p c = true := by simp [hrest c rfl]
    rw [List.dropWhile_cons_of_neg hc]

theorem exists_run_append (p : Char → Bool) (cs : List Char) :
    ∃ run rest, cs = run ++ rest ∧ (∀ c ∈ run, p c = true) ∧ ∀ c ∈ rest.head?, p c = false := by
  induction cs with
  | nil => exact ⟨[], [], rfl, by simp, by simp⟩
  | cons c cs ih =>
    by_cases hc : p c = true
    · obtain ⟨run, rest, rfl, hrun, hrest⟩ := ih
      refine ⟨c :: run, rest, rfl, ?_, hrest⟩
      simpa [hc] using hrun
    · exact ⟨[], c :: cs, rfl, by simp, by simpa using hc⟩

/-! ### Numerals -/

/-- Digits, and if there is a point among them, it is a single one and not the first. -/
inductive IsNumeral : List Char → Prop
  /-- Digits only. -/
  | whole {digits : List Char} (hne : digits ≠ []) (hdigits : ∀ d ∈ digits, d.isDigit = true) :
      IsNumeral digits
  /-- Digits, a point, and possibly more digits. -/
  | fraction {digits places : List Char} (hne : digits ≠ [])
      (hdigits : ∀ d ∈ digits, d.isDigit = true) (hplaces : ∀ d ∈ places, d.isDigit = true) :
      IsNumeral (digits ++ '.' :: places)

/-- A numeral that what follows it cannot make longer. -/
structure LongestNumeral (lexeme rest : List Char) : Prop where
  /-- The lexeme is a numeral. -/
  numeral : IsNumeral lexeme
  /-- No digit follows. -/
  no_digit : ∀ c ∈ rest.head?, c.isDigit = false
  /-- No point follows, unless there is one already. -/
  no_point : '.' ∉ lexeme → rest.head? ≠ some '.'

theorem numeralLength_whole {digits rest : List Char} (hdigits : ∀ d ∈ digits, d.isDigit = true)
    (hrest : ∀ c ∈ rest.head?, c.isDigit = false) (hpoint : rest.head? ≠ some '.') :
    numeralLength (digits ++ rest) = digits.length := by
  rw [numeralLength, takeWhile_append_of_head hdigits hrest]
  simp only [List.drop_left]
  split
  · rename_i rest'
    exact absurd rfl hpoint
  · rfl

theorem numeralLength_fraction {digits places rest : List Char}
    (hdigits : ∀ d ∈ digits, d.isDigit = true) (hplaces : ∀ d ∈ places, d.isDigit = true)
    (hrest : ∀ c ∈ rest.head?, c.isDigit = false) :
    numeralLength (digits ++ '.' :: (places ++ rest)) = (digits ++ '.' :: places).length := by
  rw [numeralLength, takeWhile_append_of_head hdigits (by simp)]
  simp only [List.drop_left, takeWhile_append_of_head hplaces hrest]
  simp only [List.length_append, List.length_cons]
  omega

theorem numeralLength_append {lexeme rest : List Char} (h : LongestNumeral lexeme rest) :
    numeralLength (lexeme ++ rest) = lexeme.length := by
  obtain ⟨hnumeral, hdigit, hpoint⟩ := h
  cases hnumeral with
  | whole hne hdigits =>
    refine numeralLength_whole hdigits hdigit (hpoint ?_)
    -- a point among the digits would be a digit
    intro hmem
    exact absurd (hdigits '.' hmem) (by decide)
  | fraction hne hdigits hplaces =>
    rw [List.append_assoc, List.cons_append]
    exact numeralLength_fraction hdigits hplaces hdigit

/-- What is taken at a digit is the longest numeral. -/
theorem exists_longestNumeral {c : Char} (hc : c.isDigit = true) (cs : List Char) :
    ∃ lexeme rest, c :: cs = lexeme ++ rest ∧ LongestNumeral lexeme rest := by
  obtain ⟨digits, rest, hsplit, hdigits, hrest⟩ := exists_run_append Char.isDigit (c :: cs)
  have hne : digits ≠ [] := by
    rintro rfl
    rw [List.nil_append] at hsplit
    rw [← hsplit] at hrest
    simp [hc] at hrest
  by_cases hpoint : rest.head? = some '.'
  · -- the digits behind the point belong to the numeral
    obtain ⟨rest', rfl⟩ := List.head?_eq_some_iff.1 hpoint
    obtain ⟨places, rest, rfl, hplaces, hrest⟩ := exists_run_append Char.isDigit rest'
    refine ⟨digits ++ '.' :: places, rest, ?_, .fraction hne hdigits hplaces, hrest, ?_⟩
    · rw [hsplit, List.append_assoc, List.cons_append]
    · intro hmem
      simp at hmem
  · exact ⟨digits, rest, hsplit, .whole hne hdigits, hrest, fun _ => hpoint⟩

theorem IsNumeral.exists_cons {lexeme : List Char} (h : IsNumeral lexeme) :
    ∃ c cs, lexeme = c :: cs ∧ c.isDigit = true := by
  cases h with
  | whole hne hdigits =>
    obtain ⟨c, cs, rfl⟩ := List.exists_cons_of_ne_nil hne
    exact ⟨c, cs, rfl, hdigits c (by simp)⟩
  | @fraction digits places hne hdigits hplaces =>
    obtain ⟨c, cs, rfl⟩ := List.exists_cons_of_ne_nil hne
    exact ⟨c, cs ++ '.' :: places, rfl, hdigits c (by simp)⟩

theorem isBlank_of_isDigit {c : Char} (h : c.isDigit = true) : isBlank c = false := by
  have hlow : 48 ≤ c.toNat := (Char.isDigit_iff_toNat.1 h).1
  have hhigh : c.toNat ≤ 57 := (Char.isDigit_iff_toNat.1 h).2
  -- no range of white space reaches the digits
  have hapart : ∀ r ∈ blankTable.ranges, r.2 < 48 ∨ 57 < r.1 := by decide
  rw [← Bool.not_eq_true, isBlank_iff]
  rintro ⟨r, hr, hfirst, hlast⟩
  rcases hapart r hr with hbelow | hbeyond
  · exact absurd hlow (by omega)
  · exact absurd hhigh (by omega)

theorem IsNumeral.isBlank_of_mem {lexeme : List Char} (h : IsNumeral lexeme) {c : Char}
    (hc : c ∈ lexeme) : isBlank c = false := by
  cases h with
  | whole hne hdigits => exact isBlank_of_isDigit (hdigits c hc)
  | fraction hne hdigits hplaces =>
    rcases List.mem_append.1 hc with hc | hc
    · exact isBlank_of_isDigit (hdigits c hc)
    · rcases List.mem_cons.1 hc with rfl | hc
      · rfl
      · exact isBlank_of_isDigit (hplaces c hc)

/-! ### Pieces -/

/-- Where a piece stands. -/
def Piece.location : Piece → Location
  | .ok t => t.location
  | .error f => f.location

/-- The characters that a piece covers: the lexeme, or the one character that is unexpected. -/
def Piece.characters : Piece → List Char
  | .ok t => t.lexeme.toList
  | .error ⟨.unexpectedCharacter c, _⟩ => [c]
  | .error ⟨.numeralOverflow lexeme, _⟩ => lexeme.toList

/-- What may be a piece in front of the given characters. -/
inductive Piece.Fits : Piece → List Char → Prop
  /-- A numeral whose value is finite. -/
  | number {lexeme rest : List Char} {l : Location} (hlexeme : LongestNumeral lexeme rest)
      (hfinite : (Decimal.ofNumeral lexeme).nearest.isFinite = true) :
      Fits (.ok ⟨.number, String.ofList lexeme,
        some (.signed false (Decimal.ofNumeral lexeme).nearest), l⟩) rest
  /-- A numeral whose value is too large. -/
  | overflow {lexeme rest : List Char} {l : Location} (hlexeme : LongestNumeral lexeme rest)
      (hinfinite : (Decimal.ofNumeral lexeme).nearest.isFinite = false) :
      Fits (.error ⟨.numeralOverflow (String.ofList lexeme), l⟩) rest
  /-- A symbol. -/
  | symbol {c : Char} {kind : Token.Kind} {rest : List Char} {l : Location}
      (hkind : Token.Kind.ofSymbol? c = some kind) : Fits (.ok ⟨kind, c.toString, none, l⟩) rest
  /-- A character that is neither white space nor the beginning of a token. -/
  | unexpected {c : Char} {rest : List Char} {l : Location} (hblank : isBlank c = false)
      (hdigit : c.isDigit = false) (hkind : Token.Kind.ofSymbol? c = none) :
      Fits (.error ⟨.unexpectedCharacter c, l⟩) rest

theorem Token.Kind.mem_symbols {c : Char} {kind : Token.Kind} (h : ofSymbol? c = some kind) :
    (c, kind) ∈ symbols := by
  obtain ⟨before, after, hsplit, -⟩ := List.lookup_eq_some_iff.1 h
  rw [hsplit]
  simp

theorem isBlank_of_ofSymbol? {c : Char} {kind : Token.Kind}
    (h : Token.Kind.ofSymbol? c = some kind) : isBlank c = false := by
  have hall : ∀ entry ∈ Token.Kind.symbols, isBlank entry.1 = false := by decide
  exact hall _ (Token.Kind.mem_symbols h)

theorem isDigit_of_ofSymbol? {c : Char} {kind : Token.Kind}
    (h : Token.Kind.ofSymbol? c = some kind) : c.isDigit = false := by
  have hall : ∀ entry ∈ Token.Kind.symbols, entry.1.isDigit = false := by decide
  exact hall _ (Token.Kind.mem_symbols h)

/-- In front of a character that is not white space there is a piece that fits. -/
theorem Piece.exists_fits {cs : List Char} (hne : cs ≠ [])
    (hblank : ∀ c ∈ cs.head?, isBlank c = false) (l : Location) :
    ∃ (piece : Piece) (rest : List Char),
      cs = piece.characters ++ rest ∧ piece.Fits rest ∧ piece.location = l := by
  obtain ⟨c, cs, rfl⟩ := List.exists_cons_of_ne_nil hne
  by_cases hdigit : c.isDigit = true
  · -- a numeral, and it depends on its value whether it is a token
    obtain ⟨lexeme, rest, hsplit, hlexeme⟩ := exists_longestNumeral hdigit cs
    by_cases hfinite : (Decimal.ofNumeral lexeme).nearest.isFinite = true
    · exact ⟨_, rest, by simp [characters, hsplit], .number hlexeme hfinite, rfl⟩
    · exact ⟨_, rest, by simp [characters, hsplit],
        .overflow hlexeme (Bool.not_eq_true _ ▸ hfinite), rfl⟩
  · cases hkind : Token.Kind.ofSymbol? c with
    | some kind => exact ⟨_, cs, by simp [characters], .symbol hkind, rfl⟩
    | none =>
      exact ⟨_, cs, by simp [characters],
        .unexpected (hblank c rfl) (Bool.not_eq_true _ ▸ hdigit) hkind, rfl⟩

namespace Scanner

/-! ### Moving on -/

theorem advanceBy_add (m n : Nat) (s : Scanner) :
    (s.advanceBy m).advanceBy n = s.advanceBy (m + n) := by
  induction n with
  | zero => rfl
  | succ n ih => rw [advanceBy_succ, ih, ← advanceBy_succ, Nat.add_assoc]

theorem advance_eq_advanceBy (s : Scanner) : s.advance = s.advanceBy 1 := by
  rw [advanceBy_succ, advanceBy_zero]

theorem offset_advanceBy {n : Nat} {s : Scanner} (h : n ≤ s.ahead.length) :
    (s.advanceBy n).position.offset = s.position.offset + n := by
  obtain ⟨p, cs⟩ := s
  induction n generalizing p cs with
  | zero => rfl
  | succ n ih =>
    cases cs with
    | nil => simp at h
    | cons c cs =>
      rw [advanceBy_cons, ih _ _ (by simpa using h)]
      show (p.next c).offset + n = p.offset + (n + 1)
      rw [Position.offset_next, Nat.add_assoc, Nat.add_comm 1 n]

/-! ### One step -/

/-- A piece that fits at the beginning of what is ahead is the one that a step takes. -/
theorem next?_of_fits {name : String} {s : Scanner} {piece : Piece} {rest : List Char}
    (hahead : s.ahead = piece.characters ++ rest) (hfits : piece.Fits rest)
    (hlocation : piece.location = s.location name) :
    ∃ after, s.next? name = some (piece, after) ∧
      resume piece after = s.advanceBy piece.characters.length := by
  -- the kind of the piece decides the branch that the scanner takes; `numeralLength_append` says
  -- that a numeral is taken as a whole
  cases hfits with
  | @number lexeme _ l hlexeme hfinite =>
    obtain ⟨c, cs, rfl, hc⟩ := hlexeme.numeral.exists_cons
    have hlength := numeralLength_append hlexeme
    obtain rfl : l = s.location name := hlocation
    simp only [Piece.characters, String.toList_ofList] at hahead
    refine ⟨s.advanceBy (c :: cs).length, ?_, by simp [Piece.characters, resume]⟩
    simp only [next?, numeral, hahead, hlength, List.take_left, hfinite]
    simp [hc]
  | @overflow lexeme _ l hlexeme hinfinite =>
    obtain ⟨c, cs, rfl, hc⟩ := hlexeme.numeral.exists_cons
    have hlength := numeralLength_append hlexeme
    obtain rfl : l = s.location name := hlocation
    simp only [Piece.characters, String.toList_ofList] at hahead
    -- the scanner is left before the last character of the numeral, which `resume` passes
    refine ⟨s.advanceBy cs.length, ?_, by simp [Piece.characters, resume, advanceBy_succ]⟩
    simp only [next?, numeral, hahead, hlength, List.take_left, hinfinite]
    simp [hc]
  | @symbol c kind _ l hkind =>
    obtain rfl : l = s.location name := hlocation
    have hc : c.isDigit = false := isDigit_of_ofSymbol? hkind
    simp only [Piece.characters, Char.toString_eq_singleton, String.toList_singleton] at hahead
    refine ⟨s.advance, ?_, by simp [Piece.characters, resume, advance_eq_advanceBy]⟩
    simp [next?, hahead, hc, hkind]
  | @unexpected c _ l hblank hdigit hkind =>
    obtain rfl : l = s.location name := hlocation
    simp only [Piece.characters] at hahead
    refine ⟨s, ?_, by simp [Piece.characters, resume, advance_eq_advanceBy]⟩
    simp [next?, hahead, hdigit, hkind]

/-- **One step of a scan**: it takes a piece that fits at the beginning of what is ahead, and the
scan goes on behind the characters of the piece. -/
theorem exists_fits_of_next? {name : String} {s after : Scanner} {piece : Piece}
    (hblank : ∀ c ∈ s.ahead.head?, isBlank c = false) (h : s.next? name = some (piece, after)) :
    ∃ rest, s.ahead = piece.characters ++ rest ∧ piece.Fits rest ∧
      piece.location = s.location name ∧
      resume piece after = s.advanceBy piece.characters.length := by
  have hne : s.ahead ≠ [] := by
    intro hnil
    simp [next?, hnil] at h
  obtain ⟨fitting, rest, hahead, hfits, hlocation⟩ :=
    Piece.exists_fits hne hblank (s.location name)
  obtain ⟨after', hnext, hresume⟩ := next?_of_fits hahead hfits hlocation
  -- the step takes one piece only, so that it is the fitting one
  obtain ⟨rfl, rfl⟩ := Prod.mk.inj (Option.some.inj (hnext.symm.trans h))
  exact ⟨rest, hahead, hfits, hlocation, hresume⟩

end Scanner

theorem Piece.Fits.isBlank_of_mem {piece : Piece} {rest : List Char} (h : piece.Fits rest)
    {c : Char} (hc : c ∈ piece.characters) : isBlank c = false := by
  cases h with
  | number hlexeme hfinite => exact hlexeme.numeral.isBlank_of_mem (by simpa [characters] using hc)
  | overflow hlexeme hinfinite =>
    exact hlexeme.numeral.isBlank_of_mem (by simpa [characters] using hc)
  | symbol hkind =>
    obtain rfl : c = _ := by simpa [characters] using hc
    exact isBlank_of_ofSymbol? hkind
  | unexpected hblank hdigit hkind =>
    obtain rfl : c = _ := by simpa [characters] using hc
    exact hblank

theorem Piece.Fits.characters_ne_nil {piece : Piece} {rest : List Char} (h : piece.Fits rest) :
    piece.characters ≠ [] := by
  cases h with
  | number hlexeme hfinite | overflow hlexeme hinfinite =>
    obtain ⟨c, cs, rfl, -⟩ := hlexeme.numeral.exists_cons
    simp [characters]
  | symbol hkind => simp [characters]
  | unexpected hblank hdigit hkind => simp [characters]

theorem Piece.Fits.length_pos {piece : Piece} {rest : List Char} (h : piece.Fits rest) :
    0 < piece.characters.length :=
  List.length_pos_iff.2 h.characters_ne_nil

namespace Scanner

/-! ### Tilings -/

/-- `Tiled name s pieces` says that the pieces, with white space before, between and behind them,
are what is ahead of the scanner, and stand where they say. -/
inductive Tiled (name : String) : Scanner → List Piece → Prop
  /-- Only white space is left. -/
  | finish {s : Scanner} (hblank : ∀ c ∈ s.ahead, isBlank c = true) : Tiled name s []
  /-- A piece behind white space. -/
  | piece {s : Scanner} {blanks rest : List Char} {piece : Piece} {pieces : List Piece}
      (hblank : ∀ c ∈ blanks, isBlank c = true)
      (hahead : s.ahead = blanks ++ (piece.characters ++ rest)) (hfits : piece.Fits rest)
      (hlocation : piece.location = (s.advanceBy blanks.length).location name)
      (hpieces : Tiled name (s.advanceBy (blanks.length + piece.characters.length)) pieces) :
      Tiled name s (piece :: pieces)

theorem Tiled.cons {name : String} {s : Scanner} {rest : List Char} {piece : Piece}
    {pieces : List Piece} (hahead : s.ahead = piece.characters ++ rest) (hfits : piece.Fits rest)
    (hlocation : piece.location = s.location name)
    (hpieces : Tiled name (s.advanceBy piece.characters.length) pieces) :
    Tiled name s (piece :: pieces) := by
  have hblank : ∀ c ∈ ([] : List Char), isBlank c = true := by simp
  refine .piece hblank hahead hfits hlocation ?_
  rw [List.length_nil, Nat.zero_add]
  exact hpieces

theorem skipBlanks_eq {s : Scanner} {blanks rest : List Char} (hahead : s.ahead = blanks ++ rest)
    (hblank : ∀ c ∈ blanks, isBlank c = true) (hrest : ∀ c ∈ rest.head?, isBlank c = false) :
    s.skipBlanks = s.advanceBy blanks.length := by
  rw [skipBlanks, hahead, takeWhile_append_of_head hblank hrest]

/-- Passing white space leaves something that does not begin with white space. -/
theorem exists_skipBlanks_eq (s : Scanner) :
    ∃ blanks, s.ahead = blanks ++ s.skipBlanks.ahead ∧ (∀ c ∈ blanks, isBlank c = true) ∧
      (∀ c ∈ s.skipBlanks.ahead.head?, isBlank c = false) ∧
      s.skipBlanks = s.advanceBy blanks.length := by
  obtain ⟨blanks, rest, hahead, hblank, hrest⟩ := exists_run_append isBlank s.ahead
  have hskip := skipBlanks_eq hahead hblank hrest
  have hleft : s.skipBlanks.ahead = rest := by
    rw [hskip, ahead_advanceBy, hahead, List.drop_left]
  rw [hleft]
  exact ⟨blanks, hahead, hblank, hrest, hskip⟩

theorem next?_eq_none {name : String} {s : Scanner} (h : s.next? name = none) : s.ahead = [] := by
  unfold next? at h
  split at h
  · assumption
  · split at h
    · cases h
    · split at h <;> cases h

theorem tiled_pieces (name : String) (s : Scanner) : Tiled name s (s.pieces name).1 := by
  obtain ⟨blanks, hahead, hblank, hhead, hskip⟩ := s.exists_skipBlanks_eq
  -- by the recursion of the scan: either nothing is left behind the white space or one piece is
  -- taken
  cases hnext : s.skipBlanks.next? name with
  | none =>
    rw [pieces_of_none hnext]
    rw [next?_eq_none hnext, List.append_nil] at hahead
    exact .finish (hahead ▸ hblank)
  | some found =>
    obtain ⟨piece, after⟩ := found
    obtain ⟨rest, hrest, hfits, hlocation, hresume⟩ := exists_fits_of_next? hhead hnext
    rw [pieces_of_some hnext]
    rw [hrest] at hahead
    rw [hskip] at hlocation
    -- the pieces behind the first one tile what is left, which is less
    refine .piece hblank hahead hfits hlocation ?_
    rw [← advanceBy_add, ← hskip, ← hresume]
    have hlt : (resume piece after).ahead.length < s.ahead.length :=
      Nat.lt_of_lt_of_le (length_after_lt hnext) (length_skipBlanks_le s)
    exact tiled_pieces name (resume piece after)
termination_by s.ahead.length

theorem Tiled.pieces_eq {name : String} {s : Scanner} {found : List Piece}
    (h : Tiled name s found) : (s.pieces name).1 = found := by
  induction h with
  | @finish s hblank =>
    have hskip : s.skipBlanks = s.advanceBy s.ahead.length :=
      skipBlanks_eq (List.append_nil s.ahead).symm hblank (by simp)
    rw [pieces_of_none]
    rw [hskip, next?, ahead_advanceBy, List.drop_length]
  | @piece s blanks rest piece pieces hblank hahead hfits hlocation hpieces ih =>
    -- a piece does not begin with white space, so that exactly `blanks` is passed over
    have hhead : ∀ c ∈ (piece.characters ++ rest).head?, isBlank c = false := by
      intro c hc
      obtain ⟨d, ds, hchars⟩ := List.exists_cons_of_ne_nil hfits.characters_ne_nil
      obtain rfl : d = c := by simpa [hchars] using hc
      exact hfits.isBlank_of_mem (by simp [hchars])
    have hskip := skipBlanks_eq hahead hblank hhead
    obtain ⟨after, hnext, hresume⟩ := next?_of_fits (s := s.advanceBy blanks.length)
      (by rw [ahead_advanceBy, hahead, List.drop_left]) hfits hlocation
    rw [← hskip] at hnext
    rw [pieces_of_some hnext, hresume, advanceBy_add, ih]

/-- **The pieces of a scan are the only tiling** of what is ahead of it. -/
theorem tiled_iff {name : String} {s : Scanner} {found : List Piece} :
    Tiled name s found ↔ (s.pieces name).1 = found := by
  constructor
  · intro h
    exact h.pieces_eq
  · rintro rfl
    exact tiled_pieces name s

theorem pieces_last (name : String) (s : Scanner) :
    (s.pieces name).2 = s.advanceBy s.ahead.length := by
  obtain ⟨blanks, hahead, hblank, hhead, hskip⟩ := s.exists_skipBlanks_eq
  cases hnext : s.skipBlanks.next? name with
  | none =>
    rw [pieces_of_none hnext, hskip]
    rw [next?_eq_none hnext, List.append_nil] at hahead
    rw [hahead]
  | some found =>
    obtain ⟨piece, after⟩ := found
    obtain ⟨rest, hrest, hfits, hlocation, hresume⟩ := exists_fits_of_next? hhead hnext
    have hlt : (resume piece after).ahead.length < s.ahead.length :=
      Nat.lt_of_lt_of_le (length_after_lt hnext) (length_skipBlanks_le s)
    rw [pieces_of_some hnext, pieces_last name (resume piece after), hresume, hskip, advanceBy_add,
      advanceBy_add]
    -- the white space, the first piece and what is left add up to what was ahead
    congr 1
    simp only [ahead_advanceBy, hahead, hrest, List.length_drop, List.length_append]
    omega
termination_by s.ahead.length

end Scanner

/-- A text that is tiled by tokens has these tokens. -/
theorem tokenize_of_tiled {name text : String} {tokens : List Token}
    (h : (Scanner.ofText text).Tiled name (tokens.map .ok)) :
    ∃ l, tokenize name text = .ok (tokens ++ [.finish l]) := by
  have hpieces := h.pieces_eq
  have htokens : pieceTokens (tokens.map .ok) = tokens := by
    rw [pieceTokens, List.filterMap_map]
    exact List.filterMap_some
  have hfaults : pieceFaults (tokens.map .ok) = [] := by
    rw [pieceFaults, List.filterMap_map]
    exact List.filterMap_eq_nil_iff.2 fun _ _ => rfl
  refine ⟨((Scanner.ofText text).pieces name).2.location name, ?_⟩
  simp only [tokenize, scan, hpieces, htokens, hfaults]

end Calculator
