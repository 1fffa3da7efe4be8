import Calculator.Proofs.Scan.Joining

/-!
# Tokens with other white space between them

A text can be written anew with other white space in front of, between and behind its tokens.  Two
numbers that follow each other need some, or they would be read as one; everywhere else there may be
none.  The tokens of the new text are the same in other places.

## Main definitions

* `Token.content` — what a token is, apart from its place.
* `spacedOut` — tokens written one after the other, each behind its white space.
* `Spacing` — white space that keeps tokens apart.

## Main results

* `Scanner.Tiled.inNumeral_head` — no numeral goes on behind a number.
* `Scanner.Tiled.exists_spacedOut` — **the text written anew has the same tokens.**
* `exists_moved` — the same tokens in other places are tokens that have been moved.
-/

namespace Calculator

/-! ### White space between tokens -/

/-- What a token is, apart from its place. -/
def Token.content (t : Token) : Token.Kind × String × Option Binary64 :=
  (t.kind, t.lexeme, t.value)

/-- The tokens written one after the other, each behind its white space. -/
def spacedOut (ws : List String) (tokens : List Token) : String :=
  String.join (List.zipWith (fun w t => w ++ t.lexeme) ws tokens)

/-- White space that keeps tokens apart: some for every token, which may be none at all, but not
between two numbers. -/
structure Spacing (tokens : List Token) (ws : List String) : Prop where
  /-- Every token has its white space in front of it. -/
  length : ws.length = tokens.length
  /-- There is nothing but white space. -/
  blank : ∀ w ∈ ws, ∀ c ∈ w.toList, isBlank c = true
  /-- There is some between two numbers. -/
  between : ∀ i t u, tokens[i]? = some t → tokens[i + 1]? = some u → t.kind = .number →
    u.kind = .number → ws[i + 1]? ≠ some ""

theorem toList_spacedOut (w : String) (ws : List String) (t : Token) (tokens : List Token) :
    (spacedOut (w :: ws) (t :: tokens)).toList =
      w.toList ++ (t.lexeme.toList ++ (spacedOut ws tokens).toList) := by
  rw [spacedOut, List.zipWith_cons_cons, String.join_cons, String.toList_append,
    String.toList_append, List.append_assoc]
  rfl

namespace Spacing

variable {t u : Token} {tokens : List Token} {w : String} {ws : List String}

theorem tail (h : Spacing (t :: tokens) (w :: ws)) : Spacing tokens ws := by
  refine ⟨?_, ?_, ?_⟩
  · have hlength := h.length
    rw [List.length_cons, List.length_cons] at hlength
    omega
  · intro w' hw'
    exact h.blank w' (List.mem_cons_of_mem w hw')
  · intro i t' u' ht' hu'
    exact h.between (i + 1) t' u' ht' hu'

theorem exists_cons (h : Spacing (t :: tokens) ws) : ∃ w ws', ws = w :: ws' := by
  cases ws with
  | nil =>
    have hlength := h.length
    rw [List.length_nil, List.length_cons] at hlength
    omega
  | cons w ws => exact ⟨w, ws, rfl⟩

/-- What is written behind the first token begins with white space, or with the second token if it
and the first are not both numbers. -/
theorem isBlank_head (h : Spacing (t :: u :: tokens) (w :: ws)) {c : Char}
    (hc : c ∈ (spacedOut ws (u :: tokens)).toList.head?) :
    isBlank c = true ∨ ((t.kind = .number → u.kind ≠ .number) ∧
      ∃ ws', c ∈ (u.lexeme.toList ++ (spacedOut ws' tokens).toList).head?) := by
  obtain ⟨w', ws', rfl⟩ := h.tail.exists_cons
  rw [toList_spacedOut] at hc
  cases hw : w'.toList with
  | nil =>
    -- without white space the second token begins, so that not both are numbers
    obtain rfl : w' = "" := String.toList_eq_nil_iff.1 hw
    refine Or.inr ⟨?_, ws', ?_⟩
    · intro ht hu
      exact h.between 0 t u rfl rfl ht hu rfl
    · rwa [hw, List.nil_append] at hc
  | cons d ds =>
    rw [hw, List.cons_append, List.head?_cons, Option.mem_some_iff] at hc
    left
    exact h.blank w' (by simp) c (by simp [hw, hc])

end Spacing

theorem Piece.Fits.inNumeral_of_mem {t : Token} {rest : List Char} (h : Fits (.ok t) rest)
    (ht : t.kind ≠ .number) {c : Char} (hc : c ∈ t.lexeme.toList) : inNumeral c = false := by
  cases h with
  | number hlexeme hfinite => exact absurd rfl ht
  | symbol hkind =>
    obtain rfl : c = _ := by simpa using hc
    exact inNumeral_of_ofSymbol? hkind

theorem Piece.Fits.moved_of_head {t : Token} {rest rest' : List Char} (h : Fits (.ok t) rest)
    (hrest' : t.kind = .number → ∀ c ∈ rest'.head?, inNumeral c = false)
    (g : Location → Location) : Fits (.ok (t.moved g)) rest' := by
  cases h with
  | number hlexeme hfinite => exact .number (hlexeme.numeral.longest (hrest' rfl)) hfinite
  | symbol hkind => exact .symbol hkind

namespace Scanner

/-- **No numeral goes on behind a number** of a text that is written anew. -/
theorem Tiled.inNumeral_head {name : String} {s : Scanner} {front : List Token} {t stop : Token}
    {w : String} {ws : List String} (h : Tiled name s (front.map .ok)) (hstop : stop.lexeme = "")
    (hws : Spacing (t :: (front ++ [stop])) (w :: ws)) (ht : t.kind = .number) :
    ∀ c ∈ (spacedOut ws (front ++ [stop])).toList.head?, inNumeral c = false := by
  intro c hc
  cases front with
  | nil =>
    -- only the end of the text follows
    rcases hws.isBlank_head hc with hblank | ⟨-, ws', hc⟩
    · exact inNumeral_of_isBlank hblank
    · simp [hstop, spacedOut] at hc
  | cons u front =>
    rcases hws.isBlank_head hc with hblank | ⟨hkinds, ws', hc⟩
    · exact inNumeral_of_isBlank hblank
    · cases h with
      | piece hblank hahead hfits hlocation hpieces =>
        obtain ⟨d, ds, hchars⟩ := List.exists_cons_of_ne_nil hfits.characters_ne_nil
        rw [Piece.characters] at hchars
        obtain rfl : d = c := by simpa [hchars] using hc
        exact hfits.inNumeral_of_mem (hkinds ht) (by simp [hchars])

/-- **A text written anew has the same tokens**, in the places where they are written now. -/
theorem Tiled.exists_spacedOut {name name' : String} {s s' : Scanner} {front : List Token}
    {stop : Token} {ws : List String} (h : Tiled name s (front.map .ok))
    (hstop : stop.lexeme = "") (hws : Spacing (front ++ [stop]) ws)
    (hahead : s'.ahead = (spacedOut ws (front ++ [stop])).toList) :
    ∃ front' : List Token, front'.map Token.content = front.map Token.content ∧
      Tiled name' s' (front'.map .ok) := by
  -- by induction on the tokens, in whatever places the rest of them are written
  induction front generalizing s s' ws with
  | nil =>
    obtain ⟨w, ws, rfl⟩ := hws.exists_cons
    refine ⟨[], rfl, .finish ?_⟩
    intro c hc
    rw [hahead, List.nil_append, toList_spacedOut, hstop] at hc
    exact hws.blank w (by simp) c (by simpa [spacedOut] using hc)
  | cons t front ih =>
    obtain ⟨w, ws, rfl⟩ := hws.exists_cons
    cases h with
    | piece hblank hbefore hfits hlocation hpieces =>
      have hhead := hpieces.inNumeral_head hstop hws
      rw [List.cons_append, toList_spacedOut] at hahead
      -- the token stands behind its own white space now
      let t' := t.moved fun _ => (s'.advanceBy w.toList.length).location name'
      have hbehind : (s'.advanceBy (w.toList.length + t.lexeme.toList.length)).ahead =
          (spacedOut ws (front ++ [stop])).toList := by
        rw [ahead_advanceBy, hahead, ← List.append_assoc, ← List.length_append, List.drop_left]
      obtain ⟨front', hfront', htiled⟩ := ih hpieces hws.tail hbehind
      refine ⟨t' :: front', ?_, ?_⟩
      · rw [List.map_cons, List.map_cons, hfront']
        rfl
      · exact .piece (hws.blank w (by simp)) hahead (hfits.moved_of_head hhead _) rfl htiled

end Scanner

/-! ### Tokens in other places -/

/-- **The same tokens in other places are tokens that have been moved**, if no two of them were in
the same place. -/
theorem exists_moved {tokens tokens' : List Token}
    (h : tokens'.map Token.content = tokens.map Token.content)
    (hplaces : tokens.Pairwise fun t u => t.location ≠ u.location) :
    ∃ g, tokens' = tokens.map (Token.moved g) := by
  induction tokens generalizing tokens' with
  | nil => exact ⟨id, List.map_eq_nil_iff.1 h⟩
  | cons t tokens ih =>
    obtain ⟨t', tokens', rfl, ht', htokens'⟩ := List.map_eq_cons_iff.1 h
    obtain ⟨hne, hplaces⟩ := List.pairwise_cons.1 hplaces
    obtain ⟨g, rfl⟩ := ih htokens' hplaces
    -- the first token alone is in its place
    refine ⟨fun l => if l = t.location then t'.location else g l, ?_⟩
    rw [List.map_cons]
    congr 1
    · obtain ⟨hkind, hlexeme, hvalue⟩ : t'.kind = t.kind ∧ t'.lexeme = t.lexeme ∧
          t'.value = t.value := by simpa [Token.content] using ht'
      cases t'
      simp_all [Token.moved]
    · refine List.map_congr_left ?_
      intro u hu
      rw [Token.moved, Token.moved, if_neg (Ne.symm (hne u hu))]

end Calculator
