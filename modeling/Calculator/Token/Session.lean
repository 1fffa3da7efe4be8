import Calculator.Token.Scanner

/-!
# Reading a text step by step

A session holds a text, a scanner in it, and what the last full scan has found.  Its calls move the
scanner; a full scan starts again from the beginning of the text, whatever went before.

## Main definitions

* `ScanSession` — a text that is being read.
* `ScanSession.Call`, `ScanSession.perform` — the steps of a session and their answers.
-/

namespace Calculator

/-- A text that is being read, with what its last full scan has found. -/
structure ScanSession where
  name : String
  text : String
  scanner : Scanner
  tokens : List Token
  faults : List LexicalFault

namespace ScanSession

/-- A session at the beginning of a text. -/
def start (name text : String) : ScanSession := ⟨name, text, .ofText text, [], []⟩

/-- A step of a session. -/
inductive Call
  /-- Scan the whole text. -/
  | scanAll
  /-- Take the piece that the scanner stands before; white space is not passed over. -/
  | next
  /-- Pass over white space. -/
  | skipBlanks
  /-- Pass one character. -/
  | advance
  /-- Pass some characters, none if the number is negative. -/
  | advanceBy (n : Int)
  deriving DecidableEq, Repr

/-- The answer of a step. -/
inductive Answer
  /-- The tokens of the whole text. -/
  | tokens (found : List Token)
  /-- The piece taken, nothing at the end of the text. -/
  | piece (found : Option Piece)
  /-- Only the scanner has moved. -/
  | moved

/-- Where the session stands. -/
def location (s : ScanSession) : Location := s.scanner.location s.name

/-- Takes a step. -/
def perform (s : ScanSession) : Call → Answer × ScanSession
  | .scanAll =>
    let found := scan s.name s.text
    (.tokens found.tokens,
      { s with scanner := found.last, tokens := found.tokens, faults := found.faults })
  | .next =>
    match s.scanner.next? s.name with
    | some (piece, after) => (.piece (some piece), { s with scanner := after })
    | none => (.piece none, s)
  | .skipBlanks => (.moved, { s with scanner := s.scanner.skipBlanks })
  | .advance => (.moved, { s with scanner := s.scanner.advance })
  | .advanceBy n => (.moved, { s with scanner := s.scanner.advanceBy n.toNat })

end ScanSession

end Calculator
