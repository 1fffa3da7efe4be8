import Calculator.Diagnostic
import Calculator.Text.Printable

/-!
# Lexical faults

What can be wrong with the characters of a text: a character that no token begins with, or a numeral
that is too large for any finite number.

## Main definitions

* `LexicalFault` — a fault and its location.
* `LexicalFault.alternative?` — what was probably meant by a character that looks like a symbol.
* `LexicalFault.diagnostic` — the fault as it is told to a reader.
-/

namespace Calculator

/-- The code of a character that no token begins with. -/
def FaultCode.unexpectedCharacter : FaultCode := ⟨"L001", "Unexpected character"⟩

/-- The code of a numeral that is too large. -/
def FaultCode.numeralOverflow : FaultCode := ⟨"L007", "Number literal overflow"⟩

/-- What is wrong with some characters. -/
inductive LexicalFault.Cause
  /-- No token begins with this character. -/
  | unexpectedCharacter (c : Char)
  /-- No finite number is near the value of this numeral. -/
  | numeralOverflow (lexeme : String)
  deriving DecidableEq, Repr

/-- A fault in the characters of a text. -/
structure LexicalFault where
  cause : LexicalFault.Cause
  location : Location
  deriving DecidableEq, Repr

namespace LexicalFault

/-- All codes of lexical faults. -/
def codes : List FaultCode := [.unexpectedCharacter, .numeralOverflow]

/-- Characters that look like a symbol or are used like one elsewhere, and what to write instead. -/
def alternatives : List (Char × String) :=
  [('×', "*"), ('·', "*"), ('⋅', "*"), ('÷', "/"), ('∕', "/"), ('−', "-"), ('–', "-"), ('＋', "+"),
    ('[', "("), (']', ")"), ('\x7b', "("), ('\x7d', ")"), (',', "."), ('%', "/ 100")]

/-- What was probably meant by a character. -/
def alternative? (c : Char) : Option String := alternatives.lookup c

/-- A numeral as it is shown: in full up to 20 characters, and of a longer one the first 17. -/
def shownLexeme (lexeme : String) : String :=
  if lexeme.length ≤ 20 then lexeme else String.ofList (lexeme.toList.take 17) ++ "..."

/-- A code point in base sixteen with at least four digits. -/
def codePoint (c : Char) : String :=
  "U+" ++ String.ofList ((hexDigits 4 c.toNat).map Char.toUpper)

namespace Cause

/-- What is wrong, in one sentence. -/
def message : Cause → String
  | unexpectedCharacter c => "Unexpected character: '" ++ c.toString ++ "'"
  | numeralOverflow lexeme => "Number literal overflow: '" ++ shownLexeme lexeme ++ "'"

/-- The code of the fault. -/
def code : Cause → FaultCode
  | unexpectedCharacter _ => .unexpectedCharacter
  | numeralOverflow _ => .numeralOverflow

/-- Why it is wrong. -/
def help : Cause → String
  | unexpectedCharacter c =>
    match alternative? c with
    | some meant => "Did you mean " ++ quoted meant ++ "?"
    | none =>
      if isPrintable c then "Expressions may only contain numbers, + - * / ^ and parentheses."
      else "Non-printable character (Unicode: " ++ codePoint c ++ ") is not allowed."
  | numeralOverflow _ => "Numeric literals must be finite double precision values."

/-- What to do about it. -/
def suggestions : Cause → List String
  | unexpectedCharacter c =>
    match alternative? c with
    | some meant => ["Replace '" ++ c.toString ++ "' with '" ++ meant ++ "'"]
    | none => []
  | numeralOverflow _ => ["Use a smaller number"]

end Cause

/-- The fault as it is told to a reader. -/
def diagnostic (f : LexicalFault) : Diagnostic where
  message := f.cause.message
  location := f.location
  severity := "error"
  code := some f.cause.code.id
  help := some f.cause.help
  suggestions := some f.cause.suggestions

end LexicalFault

end Calculator
