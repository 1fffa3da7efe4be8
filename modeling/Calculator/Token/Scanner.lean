import Calculator.Text.Blank
import Calculator.Token
import Calculator.Token.Fault

/-!
# Scanning a text into tokens

A scanner is a place in a text together with the characters that follow it.  It moves on by single
characters, so that line, column and offset always agree with what it has passed.

A scan passes over white space and takes one piece after the other, a token or a fault, up to the
end of the text.  A numeral is as long as it can be: digits, and if a point follows them, the point
and the digits after it.

## Main definitions

* `Scanner`, `Scanner.advance`, `Scanner.advanceBy`, `Scanner.skipBlanks` — moving on.
* `numeralLength` — how many characters belong to the numeral at the beginning of a text.
* `Scanner.next?` — the next piece, and the scanner after it.
* `Scanner.pieces` — all pieces up to the end of the text.
* `Scan`, `scan`, `tokenize` — the tokens and faults of a text.

## Main results

* `Scanner.length_after_lt` — every piece uses up characters, so that a scan ends.
* `Scanner.pieces_of_none`, `Scanner.pieces_of_some` — the pieces by the first of them.
-/

namespace Calculator

/-- A place in a text and the characters from there on. -/
structure Scanner where
  position : Position
  ahead : List Char
  deriving DecidableEq, Repr

namespace Scanner

/-- The scanner at the beginning of a text. -/
def ofText (text : String) : Scanner := ⟨.start, text.toList⟩

/-- The scanner after the next character, if there is one. -/
def advance : Scanner → Scanner
  | ⟨p, []⟩ => ⟨p, []⟩
  | ⟨p, c :: cs⟩ => ⟨p.next c, cs⟩

/-- The scanner after the next `n` characters, or at the end of the text. -/
def advanceBy : Nat → Scanner → Scanner
  | n + 1, ⟨p, c :: cs⟩ => advanceBy n ⟨p.next c, cs⟩
  | _, s => s

/-- The scanner after the leading white space. -/
def skipBlanks (s : Scanner) : Scanner := s.advanceBy (s.ahead.takeWhile isBlank).length

@[simp] theorem advanceBy_zero (s : Scanner) : s.advanceBy 0 = s := rfl

@[simp] theorem advanceBy_nil (n : Nat) (p : Position) : advanceBy n ⟨p, []⟩ = ⟨p, []⟩ := by
  cases n <;> rfl

@[simp] theorem advanceBy_cons (n : Nat) (p : Position) (c : Char) (cs : List Char) :
    advanceBy (n + 1) ⟨p, c :: cs⟩ = advanceBy n ⟨p.next c, cs⟩ := rfl

@[simp] theorem ahead_advanceBy (n : Nat) (s : Scanner) :
    (s.advanceBy n).ahead = s.ahead.drop n := by
  obtain ⟨p, cs⟩ := s
  induction n generalizing p cs with
  | zero => rfl
  | succ n ih =>
    cases cs with
    | nil => rfl
    | cons c cs => exact ih _ _

@[simp] theorem ahead_advance (s : Scanner) : s.advance.ahead = s.ahead.drop 1 := by
  obtain ⟨p, cs⟩ := s
  cases cs <;> rfl

theorem advanceBy_succ (n : Nat) (s : Scanner) : s.advanceBy (n + 1) = (s.advanceBy n).advance := by
  obtain ⟨p, cs⟩ := s
  induction n generalizing p cs with
  | zero => cases cs <;> rfl
  | succ n ih =>
    cases cs with
    | nil => rfl
    | cons c cs => exact ih _ _

end Scanner

/-- How many characters belong to the numeral at the beginning of a text: its digits and, if a point
follows them, the point and the digits after it. -/
def numeralLength (cs : List Char) : Nat :=
  let whole := (cs.takeWhile Char.isDigit).length
  match cs.drop whole with
  | '.' :: rest => whole + 1 + (rest.takeWhile Char.isDigit).length
  | _ => whole

/-- A piece of a text that is not white space: a token or a fault. -/
abbrev Piece := Except LexicalFault Token

namespace Scanner

/-- The location of the scanner in the text with the given name. -/
def location (name : String) (s : Scanner) : Location := .ofPosition name s.position

/-- The numeral that the scanner stands before.  If its value is too large, the scanner is left
before the last character of it. -/
def numeral (name : String) (s : Scanner) : Piece × Scanner :=
  let n := numeralLength s.ahead
  let lexeme := s.ahead.take n
  let size := (Decimal.ofNumeral lexeme).nearest
  if size.isFinite then
    (.ok ⟨.number, String.ofList lexeme, some (.signed false size), s.location name⟩, s.advanceBy n)
  else
    (.error ⟨.numeralOverflow (String.ofList lexeme), s.location name⟩, s.advanceBy (n - 1))

/-- The piece that the scanner stands before, and the scanner after it; nothing at the end of the
text.  A character that no token begins with is not passed. -/
def next? (name : String) (s : Scanner) : Option (Piece × Scanner) :=
  match s.ahead with
  | [] => none
  | c :: _ =>
    if c.isDigit then some (s.numeral name)
    else
      match Token.Kind.ofSymbol? c with
      | some kind => some (.ok ⟨kind, c.toString, none, s.location name⟩, s.advance)
      | none => some (.error ⟨.unexpectedCharacter c, s.location name⟩, s)

/-- Where a scan goes on after a piece: a fault leaves one more character to be passed. -/
def resume (piece : Piece) (after : Scanner) : Scanner :=
  match piece with
  | .ok _ => after
  | .error _ => after.advance

theorem numeralLength_pos {c : Char} (h : c.isDigit = true) (cs : List Char) :
    0 < numeralLength (c :: cs) := by
  have hwhole : 0 < ((c :: cs).takeWhile Char.isDigit).length := by simp [h]
  unfold numeralLength
  dsimp only
  split <;> omega

/-- A scan that goes on after a piece has less left to read. -/
theorem length_after_lt {name : String} {s after : Scanner} {piece : Piece}
    (h : s.next? name = some (piece, after)) :
    (resume piece after).ahead.length < s.ahead.length := by
  unfold next? at h
  split at h
  · simp at h
  · rename_i c cs hahead
    rw [hahead]
    split at h
    · -- a numeral has at least one character
      rename_i hdigit
      have hpos := numeralLength_pos hdigit cs
      unfold numeral at h
      rw [hahead] at h
      dsimp only at h
      split at h <;> obtain ⟨rfl, rfl⟩ := Prod.mk.inj (Option.some.inj h)
      · -- the whole numeral is passed
        simp only [resume, ahead_advanceBy, hahead, List.length_drop, List.length_cons]
        omega
      · -- of a numeral that is too large the last character is left to `resume`
        simp only [resume, ahead_advance, ahead_advanceBy, hahead, List.length_drop,
          List.length_cons]
        omega
    · -- a symbol is passed, and a character that begins no token is left to `resume`
      split at h <;> obtain ⟨rfl, rfl⟩ := Prod.mk.inj (Option.some.inj h) <;>
        simp [resume, hahead]

theorem length_skipBlanks_le (s : Scanner) : s.skipBlanks.ahead.length ≤ s.ahead.length := by
  simp [skipBlanks]

/-- All pieces from the scanner on, and the scanner at the end of the text. -/
def pieces (name : String) (s : Scanner) : List Piece × Scanner :=
  match h : s.skipBlanks.next? name with
  | none => ([], s.skipBlanks)
  | some (piece, after) =>
    have : (resume piece after).ahead.length < s.ahead.length :=
      Nat.lt_of_lt_of_le (length_after_lt h) (length_skipBlanks_le s)
    let (rest, last) := pieces name (resume piece after)
    (piece :: rest, last)
termination_by s.ahead.length

theorem pieces_of_none {name : String} {s : Scanner} (h : s.skipBlanks.next? name = none) :
    s.pieces name = ([], s.skipBlanks) := by
  rw [pieces]
  -- the definition keeps the equation for its termination, which rules the other case out
  split
  · rfl
  · rename_i h'
    rw [h] at h'
    cases h'

/-- A scan takes the first piece and goes on after it. -/
theorem pieces_of_some {name : String} {s after : Scanner} {piece : Piece}
    (h : s.skipBlanks.next? name = some (piece, after)) :
    s.pieces name =
      (piece :: ((resume piece after).pieces name).1, ((resume piece after).pieces name).2) := by
  rw [pieces]
  split
  · rename_i h'
    rw [h] at h'
    cases h'
  · rename_i h'
    rw [h] at h'
    cases h'
    rfl

end Scanner

/-- What a scan has found in a text: the tokens with the end of the text as the last one, the
faults, and the scanner at the end. -/
structure Scan where
  tokens : List Token
  faults : List LexicalFault
  last : Scanner

/-- The tokens among some pieces. -/
def pieceTokens (pieces : List Piece) : List Token :=
  pieces.filterMap fun
    | .ok t => some t
    | .error _ => none

/-- The faults among some pieces. -/
def pieceFaults (pieces : List Piece) : List LexicalFault :=
  pieces.filterMap fun
    | .ok _ => none
    | .error f => some f

/-- The tokens and faults of the text with the given name. -/
def scan (name text : String) : Scan :=
  let (pieces, last) := (Scanner.ofText text).pieces name
  ⟨pieceTokens pieces ++ [.finish (last.location name)], pieceFaults pieces, last⟩

/-- The tokens of a text, or its first fault. -/
def tokenize (name text : String) : Except LexicalFault (List Token) :=
  let found := scan name text
  match found.faults with
  | [] => .ok found.tokens
  | fault :: _ => .error fault

end Calculator
