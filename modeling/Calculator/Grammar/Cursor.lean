import Calculator.Grammar.Parse

/-!
# A cursor in a list of tokens

A cursor stands in a list of tokens at the next one that is to be read and never passes the end of
the text.  Only the tokens up to the first end of the text matter; a list without one is taken to
end right after its last token.  A rule that succeeds moves the cursor past what it has read, and a
rule that fails moves it to the token it has refused.

## Main definitions

* `Cursor`, `Cursor.ofTokens` — the cursor at the beginning of some tokens.
* `Cursor.apply` — reading by a rule.
* `SyntaxFault.ofRefusal` — a refusal as a fault.
* `Cursor.parse`, `parse` — reading one expression that is everything.
* `Phrase`, `Cursor.Call`, `Cursor.perform` — the steps of reading bit by bit, and their answers.
-/

namespace Calculator

/-- A place in a list of tokens. -/
structure Cursor where
  /-- How many tokens have been passed. -/
  passed : Nat
  /-- The tokens from here on, up to the end of the text. -/
  ahead : List Token
  /-- The end of the text. -/
  stop : Token
  deriving DecidableEq, Repr

/-- The end that a list of tokens has if none is given: right after the last token, or at the
beginning of an empty text. -/
def impliedEnd (ts : List Token) : Token :=
  match ts.getLast? with
  | some last => .finish last.after
  | none => .finish (.ofPosition defaultName .start)

/-- A refusal as a fault, in a text that ends with `stop`. -/
def SyntaxFault.ofRefusal (stop : Token) (r : Refusal) : SyntaxFault :=
  let found := r.rest.headD stop
  match r.cause with
  | .operandExpected => .unexpectedToken [.number, .leftParen] found
  | .unclosed opener => .unclosedParen opener found
  | .trailing => .trailingInput found

namespace Cursor

/-- Whether a token is in front of the end of the text. -/
def inText (t : Token) : Bool := t.kind != .finish

/-- The cursor at the beginning of some tokens. -/
def ofTokens (ts : List Token) : Cursor :=
  ⟨0, ts.takeWhile inText, (ts.dropWhile inText).headD (impliedEnd ts)⟩

/-- The token that the cursor stands at. -/
def peek (c : Cursor) : Token := c.ahead.headD c.stop

/-- The cursor moved to where only `rest` is left to be read. -/
def moveTo (c : Cursor) (rest : List Token) : Cursor :=
  ⟨c.passed + (c.ahead.length - rest.length), rest, c.stop⟩

/-- The cursor after the token that it stands at; it stays at the end of the text. -/
def advance (c : Cursor) : Cursor := c.moveTo (c.ahead.drop 1)

/-- Whether the cursor stands at a token of the given kind. -/
def check (c : Cursor) (kind : Token.Kind) : Bool := c.peek.kind == kind

/-- Whether the cursor stands at a token of the given kind, which is then passed. -/
def take (c : Cursor) (kind : Token.Kind) : Bool × Cursor :=
  if c.check kind then (true, c.advance) else (false, c)

/-- Reads an expression by a rule.  The cursor stays where it is if the nesting is too deep. -/
def apply (c : Cursor) (rule : Rule) : Except (Halt SyntaxFault) Draft × Cursor :=
  match rule c.ahead with
  | .ok (e, rest) => (.ok e, c.moveTo rest)
  | .error (.fault r) => (.error (.fault (.ofRefusal c.stop r)), c.moveTo r.rest)
  | .error .tooDeep => (.error .tooDeep, c)

/-- Reads one expression up to the end of the text. -/
def parse (c : Cursor) : Except (Halt SyntaxFault) Draft × Cursor :=
  c.apply (wholeExpression allowance)

end Cursor

/-- The expression that some tokens are. -/
def parse (ts : List Token) : Except (Halt SyntaxFault) (Expr Binary64) :=
  (Cursor.ofTokens ts).parse.1.map Draft.complete

/-! ### Reading bit by bit -/

/-- What a rule reads. -/
inductive Phrase
  | whole
  | expression
  | term
  | power
  | unary
  | primary
  | grouping
  deriving DecidableEq, Repr

/-- The rule that reads a phrase. -/
def Phrase.rule : Phrase → Rule
  | whole => wholeExpression allowance
  | expression => Calculator.expression allowance
  | term => Calculator.term allowance
  | power => Calculator.power allowance
  | unary => Calculator.unary allowance
  | primary => Calculator.primary allowance
  | grouping => Calculator.grouping allowance

namespace Cursor

/-- A step with a cursor. -/
inductive Call
  /-- Read a phrase. -/
  | read (phrase : Phrase)
  /-- Look at the token that the cursor stands at. -/
  | peek
  /-- Pass the token that the cursor stands at. -/
  | advance
  /-- Ask for the kind of the token that the cursor stands at. -/
  | check (kind : Token.Kind)
  /-- Pass the token that the cursor stands at if it has the given kind. -/
  | take (kind : Token.Kind)
  deriving DecidableEq, Repr

/-- The answer of a step. -/
inductive Answer
  | reading (result : Except (Halt SyntaxFault) Draft)
  | token (t : Token)
  | truth (b : Bool)

/-- Takes a step. -/
def perform (c : Cursor) : Call → Answer × Cursor
  | .read phrase =>
    let (result, after) := c.apply phrase.rule
    (.reading result, after)
  | .peek => (.token c.peek, c)
  | .advance => (.token c.peek, c.advance)
  | .check kind => (.truth (c.check kind), c)
  | .take kind =>
    let (found, after) := c.take kind
    (.truth found, after)

end Cursor

end Calculator
