import ScopeMetrics.Text.Quoted
import ScopeMetrics.Text.Similarity

/-!
# Command-line arguments

An argument that starts with a dash is an option, or several short ones in a row; the others are
operands.  Two dashes alone end the options.  A command may stop at its first operand and leave the
rest to a command inside it.
-/

namespace ScopeMetrics.Command

/-- Why the arguments of a command are refused. -/
inductive Refusal where
  /-- An option that there is not, and those that are like it. -/
  | noSuchOption (name : String) (similar : List String := [])
  /-- A command that there is not, and those that are like it. -/
  | noSuchCommand (name : String) (similar : List String := [])
  | needsValue (option : String)
  | takesNoValue (option : String)
  | missingCommand
  | missingOperand (name : String)
  | extraOperands (values : List String)
  /-- A parameter, as messages show it, and what is wrong with its value. -/
  | invalidValue (parameter problem : String)
  /-- A failure of the program's work. -/
  | failed (text : String)

namespace Refusal

/-- What is said about names that are like a wrong one. -/
def hint : List String → String
  | [] => ""
  | [name] => " Did you mean " ++ Text.quoted name ++ "?"
  | names => " (Did you mean one of: " ++ ", ".intercalate (names.map Text.quoted) ++ "?)"

def message : Refusal → String
  | .noSuchOption name similar => "No such option " ++ Text.quoted name ++ "." ++ hint similar
  | .noSuchCommand name similar => "No such command " ++ Text.quoted name ++ "." ++ hint similar
  | .needsValue option => "Option " ++ Text.quoted option ++ " requires an argument."
  | .takesNoValue option => "Option " ++ Text.quoted option ++ " does not take a value."
  | .missingCommand => "Missing command."
  | .missingOperand name => "Missing argument '" ++ name ++ "'."
  | .extraOperands values =>
    (if values.length = 1 then "Got unexpected extra argument ("
      else "Got unexpected extra arguments (") ++ " ".intercalate values ++ ")"
  | .invalidValue parameter problem => "Invalid value for " ++ parameter ++ ": " ++ problem
  | .failed text => text

/-- The exit code: one for a failure of the work, two for wrong usage. -/
def exitCode : Refusal → Int
  | .failed _ => 1
  | _ => 2

end Refusal

/-- An option: its spellings with their dashes, whether a value follows it, and what it is for. -/
structure Switch where
  spellings : List String
  takesValue : Bool
  purpose : String

/-- An option that was given: its first spelling, and its value if it takes one. -/
structure Given where
  option : String
  value : String := ""

/-- What a command accepts. -/
structure Grammar where
  /-- How the command is called. -/
  usage : String
  purpose : String
  options : List Switch
  /-- Whether options may follow operands. -/
  interspersed : Bool := true

/-- What was read so far. -/
structure Seen where
  given : List Given := []
  operands : List String := []

namespace Grammar

/-- The option with a spelling. -/
def find? (g : Grammar) (spelling : String) : Option Switch :=
  g.options.find? fun f => f.spellings.contains spelling

/-- Whether a spelling is a short one: a dash and one more character. -/
def isShort (spelling : String) : Bool := spelling.length == 2

/-- The spellings that are not short. -/
def longSpellings (g : Grammar) : List String :=
  (g.options.flatMap Switch.spellings).filter fun s => !isShort s

/-- The lines that explain a command. -/
def help (g : Grammar) : List String :=
  ["Usage: " ++ g.usage, "", "  " ++ g.purpose, "", "Options:"] ++
    g.options.map fun o => "  " ++ ", ".intercalate o.spellings ++ "  " ++ o.purpose

/-- Records an option. -/
def note (seen : Seen) (f : Switch) (value : String) : Seen :=
  { seen with given := seen.given ++ [⟨f.spellings.headD "", value⟩] }

/-- Reads the value of an option from the arguments that follow, or from what is attached to it. -/
def takeValue (spelling : String) (attached : Option String) (rest : List String) :
    Except Refusal (String × List String) :=
  match attached, rest with
  | some v, rest => .ok (v, rest)
  | none, v :: rest => .ok (v, rest)
  | none, [] => .error (.needsValue spelling)

/-- Reads an option given by a spelling that is not short; nothing if there is none. -/
def readLong? (g : Grammar) (seen : Seen) (argument : String) (rest : List String) :
    Option (Except Refusal (Seen × List String)) :=
  let cs := argument.toList
  let spelling := String.ofList (cs.takeWhile (· != '='))
  let attached := match cs.dropWhile (· != '=') with
    | [] => none
    | _ :: value => some (String.ofList value)
  if isShort spelling then none
  else (g.find? spelling).map fun f =>
    if f.takesValue then do
      let (value, rest) ← takeValue spelling attached rest
      return (note seen f value, rest)
    else
      match attached with
      | some _ => .error (.takesNoValue spelling)
      | none => .ok (note seen f "", rest)

/-- Reads short options in a row; the first that takes a value takes the rest of the row. -/
def readShort (g : Grammar) (seen : Seen) (row : List Char) (rest : List String) :
    Except Refusal (Seen × List String) :=
  match row with
  | [] => .ok (seen, rest)
  | c :: row =>
    let spelling := String.ofList ['-', c]
    match g.find? spelling with
    | none => .error (.noSuchOption spelling)
    | some f =>
      if f.takesValue then do
        let attached := if row.isEmpty then none else some (String.ofList row)
        let (value, rest) ← takeValue spelling attached rest
        return (note seen f value, rest)
      else readShort g (note seen f "") row rest

/-- Reads one argument that is an option. -/
def readOption (g : Grammar) (seen : Seen) (argument : String) (rest : List String) :
    Except Refusal (Seen × List String) :=
  match g.readLong? seen argument rest with
  | some result => result
  | none =>
    match argument.toList with
    | '-' :: '-' :: cs =>
      let name := String.ofList ('-' :: '-' :: cs.takeWhile (· != '='))
      .error (.noSuchOption name (Text.closeTo name g.longSpellings))
    | _ :: row => readShort g seen row rest
    | [] => .ok (seen, rest)

/-- Whether an argument is read as an option. -/
def isOption (argument : String) : Bool :=
  match argument.toList with
  | '-' :: _ :: _ => true
  | _ => false

/-- Reads arguments; the fuel bounds their number. -/
def readFrom (g : Grammar) (seen : Seen) : Nat → List String → Except Refusal Seen
  | 0, rest => .ok { seen with operands := seen.operands ++ rest }
  | _ + 1, [] => .ok seen
  | fuel + 1, argument :: rest =>
    if argument == "--" then .ok { seen with operands := seen.operands ++ rest }
    else if isOption argument then do
      let (seen, rest) ← g.readOption seen argument rest
      readFrom g seen fuel rest
    else if g.interspersed then
      readFrom g { seen with operands := seen.operands ++ [argument] } fuel rest
    else .ok { seen with operands := seen.operands ++ argument :: rest }

/-- Reads the arguments of a command. -/
def read (g : Grammar) (arguments : List String) : Except Refusal Seen :=
  g.readFrom {} arguments.length arguments

end Grammar

namespace Seen

def has (s : Seen) (option : String) : Bool := s.given.any fun g => g.option == option

/-- The value of an option; the last one given counts. -/
def value? (s : Seen) (option : String) : Option String :=
  ((s.given.filter fun g => g.option == option).getLast?).map Given.value

/-- The options that were given, each once, in the order of their first appearance. -/
def options (s : Seen) : List String := (s.given.map Given.option).eraseDups

end Seen

end ScopeMetrics.Command
