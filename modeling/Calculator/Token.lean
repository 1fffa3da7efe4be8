import Calculator.Location
import Calculator.Number.Shortest

/-!
# Tokens

An expression is written with numbers, five operators and parentheses; the end of the text counts as
a token of its own.

## Main definitions

* `Token.Kind` — the kinds of tokens.
* `Token.Kind.ofSymbol?` — the kind of a token that is one symbol.
* `Token` — a token with its lexeme, its value if it is a number, and its location.
-/

namespace Calculator

/-- The kind of a token. -/
inductive Token.Kind
  /-- The end of the text. -/
  | finish
  | number
  | plus
  | minus
  | star
  | slash
  | caret
  | leftParen
  | rightParen
  deriving DecidableEq, Repr, Inhabited

/-- A token: its kind, the characters it was written with, and where they stand.  A number also has
a value. -/
structure Token where
  kind : Token.Kind
  lexeme : String
  value : Option Binary64
  location : Location
  deriving DecidableEq, Repr

namespace Token

namespace Kind

/-- All kinds of tokens. -/
def all : List Kind :=
  [.finish, .number, .plus, .minus, .star, .slash, .caret, .leftParen, .rightParen]

/-- The symbols that are tokens of their own. -/
def symbols : List (Char × Kind) :=
  [('+', .plus), ('-', .minus), ('*', .star), ('/', .slash), ('^', .caret), ('(', .leftParen),
    (')', .rightParen)]

/-- The kind of the token that a symbol is. -/
def ofSymbol? (c : Char) : Option Kind := symbols.lookup c

/-- The name of a kind. -/
def name : Kind → String
  | .finish => "EOF"
  | .number => "NUMBER"
  | .plus => "PLUS"
  | .minus => "MINUS"
  | .star => "STAR"
  | .slash => "SLASH"
  | .caret => "CARET"
  | .leftParen => "LEFT_PAREN"
  | .rightParen => "RIGHT_PAREN"

/-- How a kind of token is called in a diagnostic. -/
def description : Kind → String
  | .finish => "end of input"
  | .number => "a number"
  | .plus => "'+'"
  | .minus => "'-'"
  | .star => "'*'"
  | .slash => "'/'"
  | .caret => "'^'"
  | .leftParen => "'('"
  | .rightParen => "')'"

end Kind

/-- The token at the end of a text. -/
def finish (l : Location) : Token := ⟨.finish, "", none, l⟩

/-- Whether the lexeme is one of the symbols. -/
def isSymbol (t : Token) : Bool :=
  match t.lexeme.toList with
  | [c] => (Kind.ofSymbol? c).isSome
  | _ => false

/-- A token as it is named in a text about it. -/
def text (t : Token) : String :=
  if t.kind = .finish then "end of input" else t.kind.name ++ "(" ++ quoted t.lexeme ++ ")"

/-- All parts of a token, for inspection. -/
def details (t : Token) : String :=
  "Token(" ++ t.kind.name ++ ", " ++ quoted t.lexeme ++ ", "
    ++ (t.value.map Binary64.text).getD "None" ++ ", " ++ t.location.details ++ ")"

/-- Where a text that ends with this token ends. -/
def after (t : Token) : Location := t.location.moveRight t.lexeme.length

end Token

end Calculator
