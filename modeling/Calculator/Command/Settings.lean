import Calculator.Command.Arguments
import Calculator.Text.Blank

/-!
# Settings of the command

A switch that is not given on the command line may be turned on by a setting in the environment.  A
setting is a word for yes or no, in upper or lower case and with white space around it.

## Main definitions

* `Switch.variable` — the environment variable that holds the setting of a switch.
* `truth?` — the meaning of a setting.
* `Preferences`, `Request`, `Request.read` — what the command is asked to do.
-/

namespace Calculator

/-- The environment variable that holds the setting of a switch, if it may have one. -/
def Switch.variable? : Switch → Option String
  | .showTree => some "PARSEMATH_SHOW_AST"
  | .explain => some "PARSEMATH_EXPLAIN"
  | .verbose => some "PARSEMATH_VERBOSE"
  | .version | .help => none

/-- The settings for yes. -/
def yesWords : List String := ["1", "on", "t", "true", "y", "yes"]

/-- The settings for no; a setting that holds only white space is one of them. -/
def noWords : List String := ["", "0", "f", "false", "n", "no", "off"]

/-- Whether a setting means yes or no, if it means either. -/
def truth? (setting : String) : Option Bool :=
  let word := String.ofList ((trim setting.toList).map Char.toLower)
  if yesWords.contains word then some true
  else if noWords.contains word then some false
  else none

/-- Whether a switch is on: it is among those given, or its setting says so. -/
def Switch.isOn (given : List Switch) (environment : String → Option String) (switch : Switch) :
    Except Misuse Bool :=
  if given.contains switch then .ok true
  else
    match switch.variable?.bind environment with
    | none | some "" => .ok false
    | some setting =>
      match truth? setting with
      | some on => .ok on
      | none => .error (.badSetting switch setting)

/-- How the outcome of a calculation is to be shown. -/
structure Preferences where
  /-- Show the expression before its value. -/
  showTree : Bool
  /-- Show diagnostics in full. -/
  explain : Bool
  /-- Show what happens at every stage. -/
  verbose : Bool
  deriving DecidableEq, Repr

/-- What the command is asked to do. -/
inductive Request
  /-- Tell the version. -/
  | version
  /-- Tell how the command is used. -/
  | help
  /-- Calculate the words as one expression, or each line of the input if there are none. -/
  | calculate (preferences : Preferences) (words : List String)
  deriving DecidableEq, Repr

namespace Request

/-- The request that the arguments and the environment make.  Questions about the command itself
come first. -/
def read (environment : String → Option String) (arguments : List String) :
    Except Misuse Request := do
  let a ← Arguments.read arguments
  match a.switches.find? Switch.isQuestion with
  | some .version => .ok version
  | some _ => .ok help
  | none =>
    let showTree ← Switch.showTree.isOn a.switches environment
    let explain ← Switch.explain.isOn a.switches environment
    let verbose ← Switch.verbose.isOn a.switches environment
    .ok (calculate ⟨showTree, explain, verbose⟩ a.words)

end Request

end Calculator
