/-!
# Command line arguments

A command is named by the first argument that is no option. Each command has its
own options, and every option of a command takes a value: the rest of its own
argument, or the next argument unless that begins with a hyphen. Help and the
version are shown as soon as they are asked for, so only what comes before them
can be wrong.
-/
namespace BrokerCluster.CommandLine

structure CommandOption where
  long : String
  short : Option Char := none
  required : Bool := false
  default : Option String := none
  deriving DecidableEq, Repr

structure CommandShape where
  name : String
  options : List CommandOption
  deriving DecidableEq, Repr

def commands : List CommandShape := [
  ⟨"broker", [⟨"config", some 'c', true, none⟩, ⟨"log-level", some 'l', false, none⟩]⟩,
  ⟨"nameserver", [⟨"port", some 'p', true, none⟩, ⟨"host", none, false, some "0.0.0.0"⟩]⟩,
  ⟨"monitor", [⟨"port", some 'p', true, none⟩, ⟨"host", none, false, some "0.0.0.0"⟩,
    ⟨"report-interval-secs", some 'r', false, some "10"⟩]⟩]

def CommandOption.usage (option : CommandOption) : String :=
  let value := option.long.toUpper
  let shown := "--" ++ option.long ++ " <" ++ value ++ ">"
  if option.required then shown else "[" ++ shown ++ "]"

def CommandShape.usage (shape : CommandShape) : String :=
  "    clusterq " ++ " ".intercalate (shape.name :: shape.options.map (·.usage)) ++ "\n"

/-- How the program is used. -/
def usage : String := "USAGE:\n" ++ String.join (commands.map (·.usage))

/-- What arguments ask for. -/
inductive Wish where
  /-- Help or the version. -/
  | information
  /-- There is no command. -/
  | nothing
  /-- The arguments are wrong. -/
  | misuse
  /-- A command, with the values of its options. -/
  | run (command : String) (values : List (String × String))
  deriving DecidableEq, Repr

/-- What one argument is. -/
inductive Part where
  | information
  | misuse
  /-- An option, with its value if that is part of the argument. -/
  | option (name : String) (value : Option String)
  /-- Neither an option nor the mark that no more options follow. -/
  | plain (text : String)
  /-- The mark that no more options follow. -/
  | lastMark
  deriving DecidableEq, Repr

/-- The name and, if there is an equals sign, the value of a long option. -/
def splitLong (text : List Char) : List Char × Option (List Char) :=
  match text.span (· ≠ '=') with
  | (name, _ :: value) => (name, some value)
  | (name, []) => (name, none)

/-- A long option, after its hyphens. -/
def longPart (options : List CommandOption) (hasVersion : Bool) (text : List Char) : Part :=
  let (name, value) := splitLong text
  let name := String.ofList name
  match options.find? fun option => option.long == name with
  | some option => .option option.long (value.map String.ofList)
  | none =>
    if (name = "help" ∨ (hasVersion ∧ name = "version")) ∧ value = none then .information
    else .misuse

/-- Short options, after their hyphen. An equals sign before a value is not part of the value. -/
def shortPart (options : List CommandOption) (hasVersion : Bool) : List Char → Part
  | [] => .plain "-"
  | c :: rest =>
    match options.find? fun option => option.short == some c with
    | some option =>
      match rest with
      | [] => .option option.long none
      | '=' :: value => .option option.long (some (String.ofList value))
      | value => .option option.long (some (String.ofList value))
    | none => if c = 'h' ∨ (hasVersion ∧ c = 'V') then .information else .misuse

/-- What an argument is, given the options that are known. -/
def partOf (options : List CommandOption) (hasVersion : Bool) (argument : String) : Part :=
  match argument.toList with
  | ['-', '-'] => .lastMark
  | '-' :: '-' :: text => longPart options hasVersion text
  | '-' :: text => shortPart options hasVersion text
  | _ => .plain argument

/-- The values with one more; an option may have only one. -/
def addValue? (values : List (String × String)) (name value : String) :
    Option (List (String × String)) :=
  if (values.lookup name).isSome then none else some ((name, value) :: values)

/-- A command with the values that were given and, for the other options, their defaults. -/
def complete (shape : CommandShape) (values : List (String × String)) : Wish :=
  let missing := shape.options.any fun option =>
    option.required && (values.lookup option.long).isNone
  let defaults := shape.options.filterMap fun option =>
    if (values.lookup option.long).isSome then none
    else option.default.map fun value => (option.long, value)
  if missing then .misuse else .run shape.name (values ++ defaults)

/-- The arguments of a command, given the values read so far and the option that waits for its value. -/
def readCommand (shape : CommandShape) (values : List (String × String)) :
    (waiting : Option String) → List String → Wish
  | none, [] => complete shape values
  | some _, [] => .misuse
  | waiting, argument :: rest =>
    match partOf shape.options false argument, waiting with
    | .information, _ => .information
    | .plain text, some name =>
      match addValue? values name text with
      | some values => readCommand shape values none rest
      | none => .misuse
    | .option name (some value), none =>
      match addValue? values name value with
      | some values => readCommand shape values none rest
      | none => .misuse
    | .option name none, none => readCommand shape values (some name) rest
    | .lastMark, none => if rest = [] then complete shape values else .misuse
    | _, _ => .misuse

def readArguments : List String → Wish
  | [] => .nothing
  | argument :: rest =>
    match partOf [] true argument with
    | .information => .information
    | .plain "help" =>
      match rest with
      | [] | ["help"] => .information
      | [name] => if commands.any (·.name == name) then .information else .misuse
      | _ => .misuse
    | .plain name =>
      match commands.find? (·.name == name) with
      | some shape => readCommand shape [] none rest
      | none => .misuse
    | .lastMark => if rest = [] then .nothing else .misuse
    | _ => .misuse

end BrokerCluster.CommandLine
