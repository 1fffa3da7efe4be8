import Calculator.Proofs.Scan.Partition

/-!
# Places and excerpts of a text

Where a scanner stands is said by the characters it has passed: the line feeds among them, and the
characters behind the last of these.  Apart from their places, the pieces of a text depend on the
characters only: an excerpt that begins and ends with a piece has the pieces that the text has
there.

## Main definitions

* `placeAfter`, `Location.inText` — the place behind some characters, and that in a named text.
* `Token.moved`, `Piece.moved` — tokens and pieces in other places.
* `excerpt` — the stretch of a text from an offset to the end of a token.

## Main results

* `Scanner.location_ofText` — a scanner stands behind the characters it has passed.
* `Scanner.Tiled.exists_excerpt` — the first pieces of a tiling are a tiling of their own.
* `exists_tokenize_excerpt` — **an excerpt has the tokens of the text** in other places.
-/

namespace Calculator

/-! ### Places -/

/-- The place behind some characters.  The column counts what is behind the last line feed. -/
def placeAfter (before : List Char) : Position :=
  ⟨1 + before.count '\n', 1 + (before.reverse.takeWhile (· ≠ '\n')).length, before.length⟩

/-- The location behind that many characters of a text. -/
def Location.inText (name text : String) (n : Nat) : Location :=
  .ofPosition name (placeAfter (text.toList.take n))

theorem Location.offset_inText (name : String) {text : String} {n : Nat} (h : n ≤ text.length) :
    (inText name text n).offset = n := by
  rw [← String.length_toList] at h
  simp [inText, ofPosition, placeAfter, Nat.min_eq_left h]

theorem Location.eq_of_offset_inText {name text : String} {m n : Nat}
    (h : (inText name text m).offset = n) (hn : n < text.length) : m = n := by
  have hmin : (inText name text m).offset = (min m text.length : Nat) := by
    rw [← String.length_toList]
    simp [inText, ofPosition, placeAfter]
  omega

theorem placeAfter_concat (before : List Char) (c : Char) :
    placeAfter (before ++ [c]) = (placeAfter before).next c := by
  by_cases hc : c = '\n'
  · -- a line feed begins a new line, and nothing is behind it
    simp [placeAfter, Position.next, hc, Nat.add_assoc]
  · simp [placeAfter, Position.next, hc, Nat.add_assoc, Nat.add_comm 1]

namespace Scanner

theorem position_advanceBy {s : Scanner} {before : List Char} (h : s.position = placeAfter before)
    (n : Nat) : (s.advanceBy n).position = placeAfter (before ++ s.ahead.take n) := by
  obtain ⟨p, cs⟩ := s
  obtain rfl : p = placeAfter before := h
  induction n generalizing before cs with
  | zero => simp
  | succ n ih =>
    cases cs with
    | nil => simp
    | cons c cs =>
      rw [advanceBy_cons, ← placeAfter_concat, ih]
      simp

theorem length_ahead_ofText (text : String) : (ofText text).ahead.length = text.length :=
  String.length_toList

/-- A scanner stands behind the characters of the text that it has passed. -/
theorem location_ofText (name text : String) (n : Nat) :
    ((ofText text).advanceBy n).location name = .inText name text n := by
  have hstart : (ofText text).position = placeAfter [] := rfl
  rw [location, position_advanceBy hstart, List.nil_append]
  rfl

theorem location_last (name text : String) :
    ((ofText text).pieces name).2.location name = .inText name text text.length := by
  rw [pieces_last, location_ofText, ← String.length_toList]
  rfl

end Scanner

/-! ### Pieces in other places -/

/-- The token in another place. -/
def Token.moved (g : Location → Location) (t : Token) : Token := { t with location := g t.location }

@[simp] theorem Token.kind_moved (g : Location → Location) (t : Token) :
    (t.moved g).kind = t.kind := rfl

namespace Piece

/-- The piece in another place. -/
def moved (g : Location → Location) : Piece → Piece
  | .ok t => .ok (t.moved g)
  | .error f => .error { f with location := g f.location }

@[simp] theorem location_moved (g : Location → Location) (p : Piece) :
    (p.moved g).location = g p.location := by
  cases p <;> rfl

theorem moved_congr {g g' : Location → Location} {p : Piece} (h : g p.location = g' p.location) :
    p.moved g = p.moved g' := by
  cases p with
  | ok t => exact congrArg (fun l => Except.ok { t with location := l }) h
  | error f => exact congrArg (fun l => Except.error { f with location := l }) h

@[simp] theorem characters_moved (g : Location → Location) (p : Piece) :
    (p.moved g).characters = p.characters := by
  rcases p with ⟨_ | _, l⟩ | t <;> rfl

theorem map_ok_moved (g : Location → Location) (ts : List Token) :
    (ts.map Except.ok).map (moved g) = (ts.map (Token.moved g)).map Except.ok := by
  rw [List.map_map, List.map_map]
  rfl

end Piece

theorem LongestNumeral.take {lexeme rest : List Char} (h : LongestNumeral lexeme rest) (n : Nat) :
    LongestNumeral lexeme (rest.take n) := by
  cases n with
  | zero => exact ⟨h.numeral, by simp, by simp⟩
  | succ n =>
    -- what follows still begins with the same character, if with any
    have hhead : (rest.take (n + 1)).head? = rest.head? := by
      rw [List.head?_take, if_neg (Nat.succ_ne_zero n)]
    refine ⟨h.numeral, ?_, ?_⟩
    · rw [hhead]
      exact h.no_digit
    · rw [hhead]
      exact h.no_point

theorem Piece.Fits.moved_take {p : Piece} {rest : List Char} (h : p.Fits rest)
    (g : Location → Location) (n : Nat) : (p.moved g).Fits (rest.take n) := by
  cases h with
  | number hlexeme hfinite => exact .number (hlexeme.take n) hfinite
  | overflow hlexeme hinfinite => exact .overflow (hlexeme.take n) hinfinite
  | symbol hkind => exact .symbol hkind
  | unexpected hblank hdigit hkind => exact .unexpected hblank hdigit hkind

namespace Scanner

/-- **The first pieces of a tiling are a tiling of their own**: they cover the text up to the end of
the last of them, and every scanner that has this much ahead, and no more. -/
theorem Tiled.exists_excerpt {name : String} {s : Scanner} {ps qs : List Piece}
    (h : Tiled name s (ps ++ qs)) :
    ∃ n ≤ s.ahead.length, (ps = [] → n = 0) ∧ (∀ p ∈ ps.getLast?, p.stop = s.position.offset + n) ∧
      ∀ {name' : String} {s' : Scanner} {g : Location → Location}, s'.ahead = s.ahead.take n →
        (∀ k ≤ n, g ((s.advanceBy k).location name) = (s'.advanceBy k).location name') →
        Tiled name' s' (ps.map (Piece.moved g)) := by
  -- the tiling of the rest is for any scanner, and so is the induction on the pieces
  induction ps generalizing s with
  | nil =>
    refine ⟨0, Nat.zero_le _, fun _ => rfl, by simp, ?_⟩
    intro name' s' g hahead hplaces
    exact .finish (by simp [hahead])
  | cons p ps ih =>
    cases h with
    | @piece _ blanks rest _ _ hblank hahead hfits hlocation hpieces =>
      obtain ⟨n, hn, hnone, hlast, htiled⟩ := ih hpieces
      have hrest : (s.advanceBy (blanks.length + p.characters.length)).ahead = rest := by
        rw [ahead_advanceBy, hahead, ← List.append_assoc, ← List.length_append, List.drop_left]
      rw [hrest] at hn htiled
      refine ⟨blanks.length + (p.characters.length + n), ?_, by simp, ?_, ?_⟩
      · rw [hahead, List.length_append, List.length_append]
        omega
      · intro q hq
        cases ps with
        | nil =>
          obtain rfl : p = q := by simpa using hq
          rw [hnone rfl, Piece.stop, offset_piece hahead hlocation]
          omega
        | cons p' ps =>
          rw [hlast q (by simpa using hq), offset_behind hahead]
          omega
      · intro name' s' g hahead' hplaces
        rw [hahead, List.take_length_add_append, List.take_length_add_append] at hahead'
        have hcut : s'.ahead = blanks ++ ((p.moved g).characters ++ rest.take n) := by
          rwa [Piece.characters_moved]
        refine .piece hblank hcut (hfits.moved_take g n) ?_ ?_
        · rw [Piece.location_moved, hlocation]
          exact hplaces _ (Nat.le_add_right _ _)
        · -- the later pieces are tiled from behind this one
          rw [Piece.characters_moved]
          refine htiled ?_ ?_
          · rw [ahead_advanceBy, hahead', ← List.append_assoc, ← List.length_append, List.drop_left]
          · intro k hk
            rw [advanceBy_add, advanceBy_add]
            exact hplaces _ (by omega)

end Scanner

/-! ### Excerpts -/

/-- The stretch of a text from an offset to the end of a token. -/
def excerpt (text : String) (p : Nat) (last : Token) : String :=
  String.ofList ((text.toList.take last.after.offset.toNat).drop p)

theorem Token.offset_after (t : Token) : t.after.offset = Piece.stop (.ok t) := by
  rw [Piece.stop, Piece.characters, String.length_toList]
  rfl

theorem toList_excerpt (text : String) {p n : Nat} {last : Token}
    (h : last.after.offset = (p + n : Nat)) :
    (excerpt text p last).toList = (text.toList.drop p).take n := by
  rw [excerpt, String.toList_ofList, h, Int.toNat_natCast, List.drop_take, Nat.add_sub_cancel_left]

/-- The pieces of an excerpt keep their distance from the place where it begins. -/
theorem Scanner.Tiled.offset_excerpt {name name' text slice : String} {n : Nat} {ps qs : List Piece}
    (h : Tiled name ((ofText text).advanceBy n) (ps ++ qs)) (hn : n ≤ text.length)
    (hmoved : (ofText slice).Tiled name'
      (ps.map (Piece.moved fun l => .inText name' slice (l.offset.toNat - n))))
    {p : Piece} (hp : p ∈ ps) :
    (Location.inText name' slice (p.location.offset.toNat - n)).offset = p.location.offset - n := by
  obtain ⟨between, -, -, hoffset, -⟩ := h.stands (List.mem_append_left qs hp)
  obtain ⟨inside, after, hinside, hoffset', hfits⟩ := hmoved.stands (List.mem_map_of_mem hp)
  have hplace : p.location.offset = (n + between.length : Nat) := by
    have hle : n ≤ (ofText text).ahead.length := (length_ahead_ofText text).symm ▸ hn
    have hstart : (ofText text).position.offset = 0 := rfl
    rw [hoffset, offset_advanceBy hle, hstart, Nat.zero_add, Int.natCast_add]
  -- the piece has a character, so that it begins in front of the end of the excerpt
  have hshort : inside.length < slice.length := by
    have hpos := hfits.length_pos
    rw [← String.length_toList, show slice.toList = _ from hinside, List.length_append,
      List.length_append]
    omega
  -- in the excerpt the piece stands in front of the end, so that its location is no shorter
  rw [Piece.location_moved, hplace, Int.toNat_natCast, Nat.add_sub_cancel_left] at hoffset'
  rw [hplace, Int.toNat_natCast, Nat.add_sub_cancel_left]
  have hinText : (Location.inText name' slice between.length).offset = inside.length := by
    rw [hoffset']
    exact Int.zero_add _
  rw [hinText, Location.eq_of_offset_inText hinText hshort]
  omega

/-- The tokens of an excerpt from the beginning of a token to the end of another one are the tokens
of the text from the one to the other, in other places: their offsets count from the first of
them. -/
theorem exists_tokenize_excerpt {name text : String} {before word after : List Token}
    {first last : Token} {p : Nat}
    (h : (Scanner.ofText text).Tiled name ((before ++ word ++ after).map .ok))
    (hfirst : word.head? = some first) (hlast : word.getLast? = some last)
    (hp : first.location.offset = p) (name' : String) :
    ∃ g l, (∀ t ∈ word, (g t.location).offset = t.location.offset - p) ∧
      tokenize name' (excerpt text p last) = .ok (word.map (Token.moved g) ++ [.finish l]) := by
  obtain ⟨more, rfl⟩ := List.head?_eq_some_iff.1 hfirst
  rw [List.append_assoc, List.map_append, List.cons_append, List.map_cons] at h
  obtain ⟨front, behind, hahead, -, hlocation, htiled⟩ := h.exists_split
  have hfront : front.length ≤ text.length := by
    rw [← String.length_toList, show text.toList = front ++ _ from hahead, List.length_append]
    exact Nat.le_add_right _ _
  obtain rfl : front.length = p := by
    have hplace : first.location.offset = front.length := by
      rw [← Location.offset_inText name hfront, ← Scanner.location_ofText]
      exact congrArg Location.offset hlocation
    omega
  -- what is tiled from the first token on begins with a tiling of its own
  rw [← List.map_cons (f := Except.ok), ← List.cons_append, List.map_append] at htiled
  obtain ⟨n, hn, -, hstop, hexcerpt⟩ := htiled.exists_excerpt
  have hahead' : (Scanner.ofText text).ahead = text.toList := rfl
  rw [Scanner.ahead_advanceBy, hahead'] at hn hexcerpt
  rw [List.length_drop, String.length_toList] at hn
  have hend : last.after.offset = (front.length + n : Nat) := by
    have hlast' : ((first :: more).map Except.ok).getLast? = some (Except.ok last : Piece) := by
      rw [List.getLast?_map, hlast, Option.map_some]
    rw [Token.offset_after, hstop _ hlast', ← Scanner.offset_location name,
      Scanner.location_ofText, Location.offset_inText name hfront, Int.natCast_add]
  -- a place in the text is moved by the offset of the first token
  let slice := excerpt text front.length last
  let g : Location → Location := fun l => .inText name' slice (l.offset.toNat - front.length)
  have hplaces : ∀ k ≤ n,
      g ((((Scanner.ofText text).advanceBy front.length).advanceBy k).location name) =
        ((Scanner.ofText slice).advanceBy k).location name' := by
    intro k hk
    have hle : front.length + k ≤ text.length := by omega
    rw [Scanner.advanceBy_add, Scanner.location_ofText, Scanner.location_ofText]
    simp only [g, Location.offset_inText name hle, Int.toNat_natCast, Nat.add_sub_cancel_left]
  have hmoved : (Scanner.ofText slice).Tiled name' _ := hexcerpt (toList_excerpt text hend) hplaces
  obtain ⟨l, hslice⟩ := tokenize_of_tiled (Piece.map_ok_moved g (first :: more) ▸ hmoved)
  refine ⟨g, l, ?_, hslice⟩
  intro t ht
  have hoffset := htiled.offset_excerpt hfront hmoved (List.mem_map_of_mem (f := Except.ok) ht)
  exact hoffset

end Calculator
