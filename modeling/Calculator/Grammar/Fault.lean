import Calculator.Diagnostic
import Calculator.Token

/-!
# Syntax faults

What can be wrong with the order of tokens: one that cannot stand where it stands, a parenthesis
that is never closed, and tokens after the end of an expression.

## Main definitions

* `SyntaxFault` — what is wrong, with the token that was found.
* `SyntaxFault.diagnostic` — the fault as it is told to a reader.
-/

namespace Calculator

/-- The code of a token that cannot stand where it stands. -/
def FaultCode.unexpectedToken : FaultCode := ⟨"P001", "Unexpected token"⟩

/-- The code of a parenthesis that is never closed. -/
def FaultCode.unclosedDelimiter : FaultCode := ⟨"P004", "Unclosed delimiter"⟩

/-- The code of tokens after the end of an expression. -/
def FaultCode.trailingInput : FaultCode := ⟨"P013", "Trailing input"⟩

/-- What is wrong with the order of tokens. -/
inductive SyntaxFault
  /-- Another kind of token is expected than the one found. -/
  | unexpectedToken (expected : List Token.Kind) (found : Token)
  /-- What follows an opening parenthesis ends without the closing one. -/
  | unclosedParen (opener found : Token)
  /-- A token is left after a complete expression. -/
  | trailingInput (found : Token)
  deriving DecidableEq, Repr

namespace SyntaxFault

/-- All codes of syntax faults. -/
def codes : List FaultCode := [.unexpectedToken, .unclosedDelimiter, .trailingInput]

/-- The token at which the fault was noticed. -/
def found : SyntaxFault → Token
  | unexpectedToken _ found => found
  | unclosedParen _ found => found
  | trailingInput found => found

/-- Where the fault is: at the parenthesis that is not closed, or else at the token found. -/
def location : SyntaxFault → Location
  | unexpectedToken _ found => found.location
  | unclosedParen opener _ => opener.location
  | trailingInput found => found.location

/-- The code of the fault. -/
def code : SyntaxFault → FaultCode
  | unexpectedToken _ _ => .unexpectedToken
  | unclosedParen _ _ => .unclosedDelimiter
  | trailingInput _ => .trailingInput

/-- The kinds of tokens that may stand here. -/
def expectedText (expected : List Token.Kind) : String :=
  " or ".intercalate (expected.map Token.Kind.description)

/-- The token found, by its lexeme. -/
def foundText (found : Token) : String :=
  if found.kind = .finish then found.kind.description else "'" ++ found.lexeme ++ "'"

/-- What is wrong, in one sentence. -/
def message : SyntaxFault → String
  | unexpectedToken expected found =>
    "Expected " ++ expectedText expected ++ ", found " ++ foundText found
  | unclosedParen _ _ => "Unclosed parenthesis"
  | trailingInput found => "Unexpected trailing input '" ++ found.lexeme ++ "'"

/-- Why it is wrong. -/
def help : SyntaxFault → String
  | unexpectedToken expected found =>
    "The parser expected to see " ++ expectedText expected ++ " at this position, but found "
      ++ foundText found ++ " instead."
  | unclosedParen opener found =>
    "The '(' at " ++ opener.location.text ++ " was never closed; found " ++ found.text
      ++ " instead of ')'."
  | trailingInput _ => "A complete expression was parsed but more input follows it."

/-- What to do about a token that stands in the place of an operand. -/
def operandSuggestions (found : Token) : List String :=
  match found.kind with
  | .finish => ["Add the missing operand at the end of the expression"]
  | .rightParen => ["Remove the ')'", "Put an expression inside the parentheses"]
  | .plus => ["Remove the '+'; unary plus is not supported"]
  | _ =>
    if found.isSymbol then
      ["Add an operand before '" ++ found.lexeme ++ "'", "Check for two operators in a row"]
    else []

/-- What to do about a token after a complete expression. -/
def trailingSuggestions (found : Token) : List String :=
  match found.kind with
  | .number => ["Insert an operator between the numbers"]
  | .leftParen => ["Insert '*' before '(' to multiply"]
  | .rightParen => ["Remove the unmatched ')'"]
  | _ => ["Remove the trailing input"]

/-- What to do about it. -/
def suggestions : SyntaxFault → List String
  | unexpectedToken _ found => operandSuggestions found
  | unclosedParen _ _ => ["Add a closing ')'", "Check for missing delimiters"]
  | trailingInput found => trailingSuggestions found

/-- The fault as it is told to a reader. -/
def diagnostic (f : SyntaxFault) : Diagnostic where
  message := f.message
  location := f.location
  severity := "error"
  code := some f.code.id
  help := some f.help
  suggestions := some f.suggestions

end SyntaxFault

end Calculator
