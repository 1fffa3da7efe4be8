import Calculator.Expr.Value
import Calculator.Grammar.Cursor
import Calculator.Token.Scanner

/-!
# Calculations

A calculation takes a text through three stages: it is scanned, parsed and evaluated, and the first
stage that finds a fault ends it.  A calculation may be watched: then it leaves a note after every
stage, and the note after parsing holds the expression in writing, which has to fit the allowance.

## Main definitions

* `Failure` — the fault of one of the stages.
* `Calculation` — the outcome of a calculation: how far it came, and its value or failure.
* `Note` — what a watched calculation tells about a stage.
* `Trace` — the notes of a calculation and its outcome.
* `calculate` — the calculation of a text.
-/

namespace Calculator

/-- Why a calculation has no value. -/
inductive Failure
  | lexical (fault : LexicalFault)
  | syntactic (fault : SyntaxFault)
  | arithmetic (fault : ArithmeticFault)
  deriving DecidableEq, Repr

/-- The failure as it is told to a reader. -/
def Failure.diagnostic : Failure → Diagnostic
  | lexical fault => fault.diagnostic
  | syntactic fault => fault.diagnostic
  | arithmetic fault => fault.diagnostic

/-- The outcome of a calculation. -/
structure Calculation where
  /-- What was calculated. -/
  text : String
  /-- The tokens of the text, none if it has a lexical fault. -/
  tokens : List Token
  /-- The expression, if the tokens are one. -/
  tree : Option (Expr Binary64)
  /-- The value, or the fault that ended the calculation. -/
  result : Except Failure Binary64

/-- What is told about a stage of a calculation. -/
inductive Note
  /-- The text has so many tokens. -/
  | scanned (count : Nat)
  /-- The tokens are this expression. -/
  | parsed (tree : Expr Binary64)
  /-- The expression has this value. -/
  | evaluated (value : Binary64)
  /-- The calculation of a text has ended with this failure. -/
  | failed (text : String) (failure : Failure)
  /-- The calculation of a text was given up. -/
  | abandoned (text : String)

/-- The note in one line. -/
def Note.text : Note → String
  | scanned count => "Generated " ++ toString count ++ " tokens"
  | parsed tree => "Generated AST: " ++ tree.text
  | evaluated value => "Computed value: " ++ value.text
  | failed text failure =>
    "Evaluation of " ++ quoted text ++ " failed: " ++ failure.diagnostic.summary
  | abandoned text => "Recursion limit hit on " ++ quoted text

/-- What a calculation leaves: notes, and an outcome unless the text is nested too deeply. -/
structure Trace where
  notes : List Note
  outcome : Option Calculation

namespace Trace

/-- A calculation that was given up. -/
def abandon (notes : List Note) : Trace := ⟨notes, none⟩

/-- A calculation that has ended with a failure. -/
def fail (notes : List Note) (text : String) (tokens : List Token) (tree : Option (Expr Binary64))
    (failure : Failure) : Trace :=
  ⟨notes ++ [.failed text failure], some ⟨text, tokens, tree, .error failure⟩⟩

/-- A calculation that has found a value. -/
def succeed (notes : List Note) (text : String) (tokens : List Token) (tree : Expr Binary64)
    (value : Binary64) : Trace :=
  ⟨notes ++ [.evaluated value], some ⟨text, tokens, some tree, .ok value⟩⟩

end Trace

/-- The calculation of an expression that was read from some tokens. -/
def calculateTree (watched : Bool) (text : String) (tokens : List Token) (tree : Expr Binary64) :
    Trace :=
  let notes := [.scanned tokens.length]
  if watched && (tree.textWithin allowance).isNone then .abandon notes
  else
    let notes := notes ++ [.parsed tree]
    match tree.value with
    | .ok value => .succeed notes text tokens tree value
    | .error (.fault fault) => .fail notes text tokens (some tree) (.arithmetic fault)
    | .error .tooDeep => .abandon notes

/-- The calculation of the text with the given name. -/
def calculate (watched : Bool) (name text : String) : Trace :=
  match tokenize name text with
  | .error fault => .fail [] text [] none (.lexical fault)
  | .ok tokens =>
    match parse tokens with
    | .ok tree => calculateTree watched text tokens tree
    | .error (.fault fault) =>
      .fail [.scanned tokens.length] text tokens none (.syntactic fault)
    | .error .tooDeep => .abandon [.scanned tokens.length]

end Calculator
