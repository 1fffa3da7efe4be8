import Calculator.Text.Blank
import Calculator.Text.Columns

/-!
# Writing to the console

Diagnostics in full and the notes of a calculation go through the console, which makes its own use
of some characters: a short code between colons becomes a symbol, and controls that move the cursor
are left out.  Notes are broken into lines that fit the console.

## Main definitions

* `replaceShortCodes` — a text with symbols in the place of short codes.
* `dropControls` — a text without controls.
* `paragraph` — a text as the console writes it.
* `fillLines` — words in lines that fit the console.
* `logLine` — a note, in two columns.

## Main results

* `flatten_fillLines` — filling lines loses nothing.
-/

namespace Calculator

/-- The short codes made of digits, such as a line number may happen to be. -/
def shortCodes : List (String × Char) := [("100", '💯'), ("1234", '🔢')]

/-- The characters up to a colon or white space. -/
def codeName (cs : List Char) : List Char := cs.takeWhile fun c => c != ':' && !isBlank c

/-- A text with symbols in the place of short codes between colons.  Two colons with no white space
between them belong together whether they hold a short code or not. -/
def replaceShortCodes : List Char → List Char
  | [] => []
  | c :: cs =>
    if c = ':' then
      let name := codeName cs
      match h : cs.drop name.length with
      | ':' :: rest =>
        have : rest.length < cs.length := by
          have := congrArg List.length h
          rw [List.length_drop, List.length_cons] at this
          omega
        match shortCodes.lookup (String.ofList name) with
        | some symbol => symbol :: replaceShortCodes rest
        | none => ':' :: name ++ ':' :: replaceShortCodes rest
      | _ => ':' :: replaceShortCodes cs
    else c :: replaceShortCodes cs
termination_by cs => cs.length
decreasing_by all_goals (rw [List.length_cons]; omega)

/-- The controls that the console leaves out: bell, backspace, vertical tab, form feed and carriage
return. -/
def isDropped (c : Char) : Bool := [0x07, 0x08, 0x0B, 0x0C, 0x0D].contains c.toNat

/-- A text without the controls that the console leaves out. -/
def dropControls (cs : List Char) : List Char := cs.filter fun c => !isDropped c

/-- A text as the console writes it, without white space at its end and as lines of their own. -/
def paragraph (text : String) : String :=
  String.ofList (dropControls (replaceShortCodes (trimEnd text.toList)) ++ ['\n'])

/-- How many columns the console has. -/
abbrev consoleWidth : Nat := 80

/-- The words of a text, each with the white space after it. -/
def wordsOf (cs : List Char) : List (List Char) :=
  cs.splitBy fun a b => !(isBlank a && !isBlank b)

/-- The pieces of a word that is longer than a line, after the piece that has been begun: each takes
as many characters as fit in `width` columns, and the last one may be continued. -/
def breakWord (width : Nat) : (begun : List Char) → List Char → List (List Char) × List Char
  | begun, [] => ([], begun)
  | begun, c :: cs =>
    if columns begun + columnsOf c ≤ width then breakWord width (begun ++ [c]) cs
    else
      let (full, last) := breakWord width [c] cs
      (begun :: full, last)

/-- The lines that words make, after the line that has been begun: each takes as many words as fit
in `width` columns, where the white space at its end does not count.  A word that is longer than a
line begins on a line of its own. -/
def fillLines (width : Nat) : (begun : List Char) → List (List Char) → List (List Char)
  | begun, [] => [begun]
  | begun, word :: words =>
    let size := columns (trimEnd word)
    if columns begun + size ≤ width then fillLines width (begun ++ word) words
    else if size ≤ width then begun :: fillLines width word words
    else
      let (full, last) := breakWord width [] word
      (if begun.isEmpty then [] else [begun]) ++ full ++ fillLines width last words

theorem flatten_breakWord (width : Nat) (begun cs : List Char) :
    (breakWord width begun cs).1.flatten ++ (breakWord width begun cs).2 = begun ++ cs := by
  induction cs generalizing begun with
  | nil => simp [breakWord]
  | cons c cs ih =>
    rw [breakWord]
    -- the line has room for the character, or is full and the character begins the next one
    split
    · simp [ih]
    · simp [ih, List.append_assoc]

/-- Filling lines loses nothing. -/
theorem flatten_fillLines (width : Nat) (begun : List Char) (words : List (List Char)) :
    (fillLines width begun words).flatten = begun ++ words.flatten := by
  induction words generalizing begun with
  | nil => simp [fillLines]
  | cons word words ih =>
    rw [fillLines]
    dsimp only
    split
    · simp [ih]
    · split
      · simp [ih]
      · -- a line that has not been begun is left out
        have hword := flatten_breakWord width [] word
        have hbegun : (if begun.isEmpty then [] else [begun]).flatten = begun := by
          cases begun <;> simp
        simp only [List.flatten_append, hbegun, ih, List.append_assoc, List.flatten_cons]
        rw [← List.append_assoc _ _ words.flatten, hword, List.nil_append]

/-- A text filled up with spaces to the given number of columns. -/
def padded (width : Nat) (cs : List Char) : List Char :=
  cs ++ List.replicate (width - columns cs) ' '

/-- A note in two columns, eight wide for its severity and the rest of the console for its text,
with a space between them. -/
def logLine (text : String) : String :=
  let width := consoleWidth - 9
  let lines := (fillLines width [] (wordsOf (dropControls text.toList))).map trimEnd
  let labels := "DEBUG".toList :: List.replicate (lines.length - 1) []
  String.ofList ((labels.zip lines).flatMap fun (label, line) =>
    padded 9 label ++ padded width line ++ ['\n'])

end Calculator
