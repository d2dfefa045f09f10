import KeepAlive.Text.Digits

/-!
# Arguments

A command line is read level by level.  Each level has options, with or without a value, and either
operands or commands; a command begins the next level.  An argument with a dash in front is an option
unless `--` has come before it, and no option may be given twice on one level.
-/

namespace KeepAlive.CommandLine

/-- Why a command line gives nothing to do. -/
inductive Stop
  | help
  | version
  | misuse
  deriving DecidableEq, Repr

/-- What a value has to be. -/
inductive Kind
  | text
  /-- A path is not empty. -/
  | path
  /-- A whole number with or without a sign, from the first bound up to below the second. -/
  | integer (low high : Int)
  /-- A whole number without a minus sign, below the bound. -/
  | natural (bound : Nat)
  deriving Repr

/-- Whether a value is of a kind. -/
def Kind.accepts (value : String) : Kind → Bool
  | .text => true
  | .path => !value.isEmpty
  | .integer low high => (Text.readInteger value.toList).any fun n => low ≤ n && n < high
  | .natural bound => (Text.readNatural value.toList).any (· < bound)

/-- What can stand on one level of a command line. -/
structure Level where
  /-- The options with a value. -/
  valued : List (String × Kind) := []
  /-- The options without a value. -/
  flags : List String := []
  /-- The kinds of the operands, all of which have to be there. -/
  operands : List Kind := []
  /-- The commands, each with those of the level it begins. -/
  commands : List (String × List String) := []
  /-- Whether the level answers the question for the version. -/
  tellsVersion : Bool := false

/-- What is found on one level. -/
structure Given where
  values : List (String × String) := []
  flags : List String := []
  operands : List String := []
  /-- The command, with the arguments that follow it. -/
  command : Option (String × List String) := none
  deriving Repr

namespace Given

/-- The value of an option. -/
def value? (given : Given) (name : String) : Option String :=
  given.values.lookup name

/-- The number that is the value of an option. -/
def natural? (given : Given) (name : String) : Option Nat :=
  (given.value? name).bind fun value => (Text.readInteger value.toList).map Int.toNat

/-- Whether an option without a value is given. -/
def has (given : Given) (name : String) : Bool :=
  given.flags.contains name

/-- The number that is the first operand. -/
def integer (given : Given) : Int :=
  ((given.operands.head?).bind fun value => Text.readInteger value.toList).getD 0

end Given

/-- Whether an argument is taken for an option: a dash alone is not. -/
def isOption (argument : String) : Bool :=
  argument.startsWith "-" && argument ≠ "-"

/-- The name of a long option and the value that is attached to it. -/
def longOption (argument : String) : String × Option String :=
  let body := argument.toList.drop 2
  (String.ofList (body.takeWhile (· ≠ '=')),
    match body.dropWhile (· ≠ '=') with
    | [] => none
    | _ :: value => some (String.ofList value))

namespace Level

variable (level : Level)

/-- Takes a value for an option. -/
def withValue (given : Given) (name value : String) : Except Stop Given :=
  if (given.value? name).isSome then .error .misuse
  else if (level.valued.lookup name).any (Kind.accepts value) then
    .ok { given with values := (name, value) :: given.values }
  else .error .misuse

/-- Takes an operand. -/
def withOperand (given : Given) (value : String) : Except Stop Given :=
  if (level.operands[given.operands.length]?).any (Kind.accepts value) then
    .ok { given with operands := given.operands ++ [value] }
  else .error .misuse

/-- Takes an option that has no value. -/
def withFlag (given : Given) (name : String) : Except Stop Given :=
  if name = "help" then .error .help
  else if name = "version" && level.tellsVersion then .error .version
  else if level.flags.contains name && !given.has name then
    .ok { given with flags := name :: given.flags }
  else .error .misuse

/-- Whether there is a command with the name. -/
def hasCommand (name : String) : Bool :=
  (level.commands.lookup name).isSome

/-- Whether some arguments name a command that help can be given on, level by level; help itself is
one where there are commands. -/
def canHelpOn : List String → Bool
  | [] => true
  | [name] => name = "help" || level.hasCommand name
  | [name, inner] =>
    (level.commands.lookup name).any fun names =>
      names.contains inner || (inner = "help" && !names.isEmpty)
  | _ => false

/-- The name behind the first letter of an option with one dash. -/
def shortName (argument : String) : String :=
  match argument.toList with
  | _ :: 'h' :: _ => "help"
  | _ :: 'V' :: _ => "version"
  | _ => ""

/-- Reads the operands that are left. -/
def readOperands (given : Given) (arguments : List String) : Except Stop Given :=
  arguments.foldlM level.withOperand given

/-- Reads arguments up to a command. -/
def readFrom (given : Given) : List String → Except Stop Given
  | [] => .ok given
  | argument :: rest =>
    if level.hasCommand argument then .ok { given with command := some (argument, rest) }
    else if argument = "help" && !level.commands.isEmpty then
      .error (if level.canHelpOn rest then .help else .misuse)
    else if argument = "--" then level.readOperands given rest
    else if argument.startsWith "--" then
      match longOption argument with
      | (name, some value) => do readFrom (← level.withValue given name value) rest
      | (name, none) =>
        if (level.valued.lookup name).isSome then
          match rest with
          | [] => .error .misuse
          | value :: rest =>
            if isOption value then .error .misuse
            else do readFrom (← level.withValue given name value) rest
        else do readFrom (← level.withFlag given name) rest
    else if isOption argument then do
      readFrom (← level.withFlag given (shortName argument)) rest
    else do readFrom (← level.withOperand given argument) rest

/-- Reads a level; what it needs has to be there. -/
def read (required : List String) (arguments : List String) : Except Stop Given := do
  let given ← level.readFrom {} arguments
  if given.operands.length < level.operands.length || (!level.commands.isEmpty && given.command.isNone)
      || required.any fun name => (given.value? name).isNone then
    throw .misuse
  else return given

end Level

end KeepAlive.CommandLine
