import Calculator.Text.Quoted

/-!
# Locations and spans

A location names a place in a text for a reader: the name of the text, the line and column counted
from one, and the offset, the number of characters before the place.  A span is the stretch of text
between two locations; its end is the start of the last token it covers.

## Main definitions

* `Position` — a place in a text that is being read, moved on character by character.
* `Location`, `Location.text` — a place with the name of its text.
* `Span`, `Span.text` — a stretch of text.
-/

namespace Calculator

/-- A place in a text: the line and column count from one, the offset from zero. -/
structure Position where
  line : Nat
  column : Nat
  offset : Nat
  deriving DecidableEq, Repr

namespace Position

/-- The beginning of a text. -/
def start : Position := ⟨1, 1, 0⟩

/-- The place after a character: only a line feed begins a new line. -/
def next (p : Position) (c : Char) : Position :=
  if c = '\n' then ⟨p.line + 1, 1, p.offset + 1⟩ else ⟨p.line, p.column + 1, p.offset + 1⟩

@[simp] theorem offset_next (p : Position) (c : Char) : (p.next c).offset = p.offset + 1 := by
  unfold next; split <;> rfl

end Position

/-- The name that a text has unless it is given another one. -/
def defaultName : String := "<input>"

/-- A place in a named text, as it is told to a reader. -/
structure Location where
  name : String
  line : Int
  column : Int
  offset : Int
  deriving DecidableEq, Repr

namespace Location

/-- The location of a place in the text with the given name. -/
def ofPosition (name : String) (p : Position) : Location := ⟨name, p.line, p.column, p.offset⟩

/-- The name, line and column. -/
def text (l : Location) : String :=
  l.name ++ ":" ++ toString l.line ++ ":" ++ toString l.column

/-- The location moved to the right on its line. -/
def moveRight (l : Location) (n : Nat) : Location :=
  { l with column := l.column + n, offset := l.offset + n }

/-- All parts of a location, for inspection. -/
def details (l : Location) : String :=
  "SourceLocation(" ++ quoted l.name ++ ", " ++ toString l.line ++ ", " ++ toString l.column ++ ", "
    ++ toString l.offset ++ ")"

end Location

/-- The stretch of text from the start of its first token to the start of its last. -/
structure Span where
  first : Location
  last : Location
  deriving DecidableEq, Repr

namespace Span

/-- The span of something that was not read from a text. -/
def nowhere : Span := ⟨⟨"<ast>", 0, 0, 0⟩, ⟨"<ast>", 0, 0, 0⟩⟩

/-- The name once and both places, or both locations in full if their names differ. -/
def text (s : Span) : String :=
  if s.first.name = s.last.name then
    s.first.text ++ "-" ++ toString s.last.line ++ ":" ++ toString s.last.column
  else s.first.text ++ "-" ++ s.last.text

end Span

end Calculator
