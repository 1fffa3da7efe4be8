import Calculator.Location
import Calculator.Text.Uppercase

/-!
# Diagnostics

A diagnostic tells a reader what is wrong, where, and what may be done about it.

## Main definitions

* `Diagnostic` — a message with its severity, code, location, help and suggestions.
* `Diagnostic.summary` — the diagnostic in one line.
* `Diagnostic.text` — the diagnostic in full, one part a line.
-/

namespace Calculator

/-- A message about a place in a text. -/
structure Diagnostic where
  message : String
  location : Location
  severity : String
  code : Option String
  help : Option String
  suggestions : Option (List String)
  deriving DecidableEq, Repr

namespace Diagnostic

/-- A part that is left out if it is missing or empty. -/
def given (part : Option String) (write : String → String) : String :=
  match part with
  | some s => if s.isEmpty then "" else write s
  | none => ""

/-- The severity, code and message in one line, with the offset of the place. -/
def summary (d : Diagnostic) : String :=
  d.severity ++ given d.code (fun code => "[" ++ code ++ "]") ++ ": " ++ d.message
    ++ " (at offset " ++ toString d.location.offset ++ ")"

/-- The list of suggestions under its heading, unless there is none. -/
def suggestionLines : Option (List String) → String
  | none | some [] => ""
  | some list => "  suggestions:\n" ++ String.join (list.map fun s => "    - " ++ s ++ "\n")

/-- The diagnostic in full: message, place, help and suggestions. -/
def text (d : Diagnostic) : String :=
  uppercase d.severity ++ ": " ++ d.message ++ "\n  --> " ++ d.location.text ++ "\n"
    ++ given d.help (fun help => "  help: " ++ help ++ "\n")
    ++ suggestionLines d.suggestions

end Diagnostic

/-- An entry in the list of what can go wrong. -/
structure FaultCode where
  /-- The code that a diagnostic shows. -/
  id : String
  /-- What the code stands for. -/
  title : String
  deriving DecidableEq, Repr

end Calculator
