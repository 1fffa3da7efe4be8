import Calculator.Calculation
import Calculator.Command.Console
import Calculator.Command.Usage

/-!
# Reports of the command

The command calculates one line after the other.  Values go to the standard output, diagnostics to
the standard error output, and the status tells what went wrong in the last line that failed.  A
line that is nested too deeply for its calculation is a failure like others; if only showing the
expression goes too deep, the command breaks off.

## Main definitions

* `Failure.status` — the status of a failed calculation.
* `Ending`, `Report` — what the command has written, and how it ended.
* `Report.ofLine`, `Report.ofLines` — the reports of a line and of several lines.
* `runCommand` — the report of the whole command.
-/

namespace Calculator

/-- The status of a failure: one for each stage. -/
def Failure.status : Failure → Nat
  | lexical _ => 1
  | syntactic _ => 2
  | arithmetic _ => 3

/-- The status that is asked for, or what is told where there is no failure. -/
def statusOf : Option Failure → Except String Nat
  | some failure => .ok failure.status
  | none => .error "Not a pipeline error: None"

/-- The status of a line that is nested too deeply. -/
abbrev tooDeepStatus : Nat := 4

/-- The status of wrong arguments or settings. -/
abbrev misuseStatus : Nat := 2

/-- How a command or a part of it ends. -/
inductive Ending
  /-- With a status, zero if nothing failed. -/
  | status (n : Nat)
  /-- An expression to be shown is nested too deeply, and the command breaks off. -/
  | brokenOff
  deriving DecidableEq, Repr

/-- The ending of two parts: the later failure counts. -/
def Ending.andThen : Ending → Ending → Ending
  | first, status 0 => first
  | _, later => later

/-- What a command or a part of it has written, and how it ended. -/
structure Report where
  out : String
  err : String
  ending : Ending
  deriving DecidableEq, Repr

namespace Report

/-- Nothing is written and nothing has failed. -/
def empty : Report := ⟨"", "", .status 0⟩

/-- A report followed by another one. -/
def andThen (first later : Report) : Report :=
  ⟨first.out ++ later.out, first.err ++ later.err, first.ending.andThen later.ending⟩

/-- The notes of a watched calculation. -/
def ofNotes (notes : List Note) : Report :=
  ⟨"", String.join (notes.map fun note => logLine note.text), .status 0⟩

/-- A diagnostic in one line, or in full. -/
def ofFailure (explain : Bool) (failure : Failure) : Report :=
  let d := failure.diagnostic
  ⟨"", if explain then paragraph d.text else d.summary ++ "\n", .status failure.status⟩

/-- A value, or why there is none. -/
def ofResult (explain : Bool) : Except Failure Binary64 → Report
  | .ok value => ⟨value.display ++ "\n", "", .status 0⟩
  | .error failure => ofFailure explain failure

/-- The outcome of a calculation, after its expression if that is to be shown. -/
def ofCalculation (preferences : Preferences) (c : Calculation) : Report :=
  let result := ofResult preferences.explain c.result
  match c.tree with
  | some tree =>
    if preferences.showTree then
      match tree.textWithin allowance with
      | some text => andThen ⟨text ++ "\n", "", .status 0⟩ result
      | none => ⟨"", "", .brokenOff⟩
    else result
  | none => result

/-- The outcome of a calculation that was given up. -/
def tooDeep : Report := ⟨"", "error: expression nested too deeply\n", .status tooDeepStatus⟩

/-- The report of a text that is not blank. -/
def ofText (preferences : Preferences) (text : String) : Report :=
  let trace := calculate preferences.verbose defaultName text
  let (lastNote, result) :=
    match trace.outcome with
    | some c => ([], ofCalculation preferences c)
    | none => ([.abandoned text], tooDeep)
  if preferences.verbose then andThen (ofNotes (trace.notes ++ lastNote)) result else result

/-- The report of a line: white space around the expression does not count, and a blank line is
passed over. -/
def ofLine (preferences : Preferences) (line : String) : Report :=
  let text := trim line.toList
  if text.isEmpty then empty else ofText preferences (String.ofList text)

/-- The report of several lines, up to one that makes the command break off. -/
def ofLines (preferences : Preferences) : List String → Report
  | [] => empty
  | line :: rest =>
    let first := ofLine preferences line
    if first.ending = .brokenOff then first else first.andThen (ofLines preferences rest)

end Report

/-- The lines of a text, which line feeds and carriage returns end; an end of line made of both only
adds a blank line. -/
def linesOf (input : String) : List String :=
  (input.toList.splitBy fun c _ => c != '\n' && c != '\r').map String.ofList

/-- The report of the command, from its arguments, environment and standard input. -/
def runCommand (arguments : List String) (environment : String → Option String) (input : String) :
    Report :=
  match Request.read environment arguments with
  | .error misuse => ⟨"", misuse.text, .status misuseStatus⟩
  | .ok .version => ⟨versionText, "", .status 0⟩
  | .ok .help => ⟨helpText, "", .status 0⟩
  | .ok (.calculate preferences words) =>
    Report.ofLines preferences
      (if words.isEmpty then linesOf input else [" ".intercalate words])

end Calculator
