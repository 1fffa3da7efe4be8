/-!
# Command line arguments

An argument is a switch or a word of the expression.  Whatever looks like a switch and is none is
taken as a word, so that expressions may begin with a minus sign: of a cluster of one-letter
switches the letters that are known are taken out, and the others stay together as a word.  After
`--` all arguments are words.

## Main definitions

* `Switch` — the switches of the command.
* `Misuse` — what can be wrong with the arguments or settings.
* `Arguments`, `Arguments.read` — the switches and words among some arguments.
-/

namespace Calculator

/-- A switch of the command. -/
inductive Switch
  /-- Show the expression before its value. -/
  | showTree
  /-- Show diagnostics in full. -/
  | explain
  /-- Show what happens at every stage. -/
  | verbose
  /-- Only tell the version. -/
  | version
  /-- Only tell how the command is used. -/
  | help
  deriving DecidableEq, Repr

namespace Switch

/-- All switches. -/
def all : List Switch := [showTree, explain, verbose, version, help]

/-- The name of a switch on the command line. -/
def name : Switch → String
  | showTree => "--show-ast"
  | explain => "--explain"
  | verbose => "--verbose"
  | version => "--version"
  | help => "--help"

/-- The letter that stands for a switch in a cluster, if it has one. -/
def letter? : Switch → Option Char
  | verbose => some 'v'
  | _ => none

/-- The switch with the given name. -/
def ofName? (s : String) : Option Switch := all.find? (·.name == s)

/-- The switch with the given letter. -/
def ofLetter? (c : Char) : Option Switch := all.find? (·.letter? == some c)

/-- Whether the command only tells something about itself. -/
def isQuestion : Switch → Bool
  | version | help => true
  | _ => false

/-- The switch as a message refers to it. -/
def hint : Switch → String
  | verbose => "'--verbose' / '-v'"
  | switch => "'" ++ switch.name ++ "'"

end Switch

/-- What is wrong with the arguments or settings of the command. -/
inductive Misuse
  /-- A value was given to a switch, which takes none. -/
  | valueGiven (switch : Switch)
  /-- The setting for a switch is neither on nor off. -/
  | badSetting (switch : Switch) (setting : String)
  deriving DecidableEq, Repr

/-- The switches, in the order in which they were given, and the words of the expression. -/
structure Arguments where
  switches : List Switch
  words : List String
  deriving DecidableEq, Repr

namespace Arguments

/-- A word alone. -/
def word (w : String) : Arguments := ⟨[], [w]⟩

/-- Arguments followed by others. -/
def append (a b : Arguments) : Arguments := ⟨a.switches ++ b.switches, a.words ++ b.words⟩

/-- The name in an argument of the form `name=value`, and whether there is a value. -/
def splitName (cs : List Char) : String × Bool :=
  (String.ofList (cs.takeWhile (· != '=')), cs.contains '=')

/-- A cluster of letters after a dash: the known ones are switches, and the others stay together as
a word behind a dash. -/
def readCluster (letters : List Char) : Arguments :=
  let unknown := letters.filter fun c => (Switch.ofLetter? c).isNone
  ⟨letters.filterMap Switch.ofLetter?,
    if unknown.isEmpty then [] else [String.ofList ('-' :: unknown)]⟩

/-- What one argument gives. -/
def readOne (argument : String) : Except Misuse Arguments :=
  match argument.toList with
  | '-' :: letter :: letters =>
    match Switch.ofName? (splitName argument.toList).1 with
    | some switch =>
      if (splitName argument.toList).2 then .error (.valueGiven switch) else .ok ⟨[switch], []⟩
    | none =>
      .ok (if letter = '-' then word argument else readCluster (letter :: letters))
  | _ => .ok (word argument)

/-- The switches and words among some arguments, or the first misuse. -/
def read : List String → Except Misuse Arguments
  | [] => .ok ⟨[], []⟩
  | "--" :: words => .ok ⟨[], words⟩
  | argument :: rest => do
    let first ← readOne argument
    let others ← read rest
    .ok (first.append others)

end Arguments

end Calculator
