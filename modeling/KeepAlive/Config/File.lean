import KeepAlive.Config
import KeepAlive.Toml.Reader

/-!
# Configuration files

A file that is asked for by name has to be there and to be sound.  Without one, the file that the
environment names is tried, then that of the system, and then the defaults hold.
-/

namespace KeepAlive.Config

/-- The variable of the environment that names a configuration file. -/
def pathVariable : String :=
  "SESSIONKEEPER_CONFIG"

/-- The configuration file of the system. -/
def systemPath : String :=
  "/etc/sessionkeeper/sessionkeeper.toml"

/-- Why a configuration file is no good. -/
inductive FileError
  | unreadable (path : String)
  | malformed (path : String)
  deriving DecidableEq, Repr

/-- The sentence for a configuration file that is no good. -/
def FileError.message : FileError → String
  | .unreadable path => "failed to read config file: " ++ path
  | .malformed path => "failed to parse config file: " ++ path

/-- The configuration that a text describes. -/
def parse? (source : String) : Option Config :=
  (Toml.read? source).bind ofJson?

/-- The configuration in the file at `path`. -/
def load (read : String → Option String) (path : String) : Except FileError Config :=
  match read path with
  | none => .error (.unreadable path)
  | some source =>
    match parse? source with
    | none => .error (.malformed path)
    | some config => .ok config

/-- The configuration in the file at `path`, if it is sound. -/
def load? (read : String → Option String) (path : String) : Option Config :=
  (load read path).toOption

/-- The configuration that is found without being asked for by name. -/
def search (read : String → Option String) (fromEnvironment : Option String) : Config :=
  ((fromEnvironment.bind (load? read)) <|> load? read systemPath).getD {}

/-- The configuration to run with. -/
def resolve (read : String → Option String) (asked fromEnvironment : Option String) :
    Except FileError Config :=
  match asked with
  | some path => load read path
  | none => .ok (search read fromEnvironment)

end KeepAlive.Config
