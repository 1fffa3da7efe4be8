import Calculator.Command.Settings
import Calculator.Text.Quoted

/-!
# What the command tells about itself

## Main definitions

* `programName`, `programVersion` — how the command is called.
* `versionText`, `helpText` — the answers to questions about the command.
* `Misuse.text` — what is told about wrong arguments or settings.
-/

namespace Calculator

/-- The name of the command. -/
def programName : String := "parsemath"

/-- The version of the command. -/
def programVersion : String := "0.1.0"

/-- The version in a line. -/
def versionText : String := programName ++ ", version " ++ programVersion ++ "\n"

/-- How the command is called, in a line. -/
def usageLine : String := "Usage: " ++ programName ++ " [OPTIONS] [EXPRESSION]...\n"

/-- What the command does, line by line. -/
def descriptionLines : List String :=
  ["Evaluate arithmetic expressions.",
    "",
    "EXPRESSION is evaluated once; its words are joined with spaces. With no",
    "EXPRESSION, every line of standard input is evaluated.",
    "",
    "Supported: numbers such as 42 and 3.5, + - * / ^ and parentheses.",
    "",
    "Examples:",
    "",
    "    " ++ programName ++ " \"1 + 2 * 3\"",
    "",
    "    " ++ programName ++ " -- -2^2",
    "",
    "    echo \"(1 + 2) * 3\" | " ++ programName ++ " --show-ast"]

/-- How each switch is written, and what it is for. -/
def optionLines : List (String × String) :=
  [("--show-ast", "Print the parsed syntax tree before the result"),
    ("--explain", "Print full diagnostics with help text and suggestions"),
    ("-v, --verbose", "Log every pipeline stage"),
    ("--version", "Show the version and exit."),
    ("--help", "Show this message and exit.")]

/-- A line that is indented unless it is empty. -/
def indented (line : String) : String := if line.isEmpty then "\n" else "  " ++ line ++ "\n"

/-- A switch and what it is for, in two columns. -/
def optionLine : String × String → String
  | (switch, purpose) =>
    indented (switch ++ String.ofList (List.replicate (15 - switch.length) ' ') ++ purpose)

/-- How the command is used. -/
def helpText : String :=
  usageLine ++ "\n" ++ String.join (descriptionLines.map indented) ++ "\nOptions:\n"
    ++ String.join (optionLines.map optionLine)

namespace Misuse

/-- What is wrong, in one sentence. -/
def message : Misuse → String
  | valueGiven switch => "Option '" ++ switch.name ++ "' does not take a value."
  | badSetting switch setting =>
    "Invalid value for " ++ switch.hint ++ ": " ++ quoted setting
      ++ " is not a valid boolean. Recognized values: "
      ++ ", ".intercalate
        ["", "0", "1", "f", "false", "n", "no", "off", "on", "t", "true", "y", "yes"]

/-- Where to find out how the command is called.  A bad setting is noticed when the arguments have
been read and is told about with the usage; a switch with a value ends the reading before that. -/
def usageHint : Misuse → String
  | valueGiven _ => ""
  | badSetting _ _ => usageLine ++ "Try '" ++ programName ++ " --help' for help.\n\n"

/-- What is wrong, after the hint at the usage if there is one. -/
def text (m : Misuse) : String := m.usageHint ++ "Error: " ++ m.message ++ "\n"

end Misuse

end Calculator
