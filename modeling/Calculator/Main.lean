import Calculator.Command.Report

/-!
# The command

The arguments, the settings in the environment and, if there is no expression among the arguments,
the standard input are handed to `runCommand`, and its report is written out.
-/

namespace Calculator

/-- Everything that can still be read. -/
partial def readAll (stream : IO.FS.Stream) (sofar : String) : IO String := do
  let line ← stream.getLine
  if line.isEmpty then pure sofar else readAll stream (sofar ++ line)

/-- The settings of the switches in the environment. -/
def readSettings : IO (List (String × String)) := do
  let found ← (Switch.all.filterMap Switch.variable?).mapM fun name => do
    pure ((← IO.getEnv name).map fun setting => (name, setting))
  pure (found.filterMap id)

/-- Whether the standard input is asked for. -/
def needsInput (arguments : List String) (environment : String → Option String) : Bool :=
  match Request.read environment arguments with
  | .ok (.calculate _ []) => true
  | _ => false

end Calculator

open Calculator in
/-- Runs the command. -/
def main (arguments : List String) : IO UInt32 := do
  let settings ← readSettings
  let environment := fun name => settings.lookup name
  let input ← if needsInput arguments environment then readAll (← IO.getStdin) "" else pure ""
  let report := runCommand arguments environment input
  IO.print report.out
  IO.eprint report.err
  match report.ending with
  | .status n => pure n.toUInt32
  | .brokenOff => pure 1
