import Lockstep.Config.Json
import Lockstep.File
import Lockstep.Json.Bytes

/-!
# Configuration files

A configuration file holds the JSON text of a configuration.  A configuration that is read from a
file is valid.
-/

namespace Lockstep.Config

/-- Why a file gives no configuration. -/
inductive FileError where
  /-- The file cannot be opened. -/
  | unopened (path : String) (fault : File.Fault)
  /-- The file can be opened but not read. -/
  | unread (path : String) (fault : File.Fault)
  /-- The file holds no JSON text of a configuration. -/
  | unreadable (path : String) (failure : Json.Failure)
  /-- The configuration is refused. -/
  | invalid (cause : Invalid)

/-- The sentence shown for a file that gives no configuration. -/
def FileError.message : FileError → String
  | .unopened path fault => "cannot open configuration " ++ path ++ ": " ++ fault.text
  | .unread path fault => "invalid configuration " ++ path ++ ": " ++ fault.text
  | .unreadable path failure => "invalid configuration " ++ path ++ ": " ++ failure.message
  | .invalid cause => cause.message

/-- Reads and checks the configuration that a file holds. -/
def ofFile (path : String) (file : File) : Except FileError Config :=
  match file with
  | .absent fault => .error (.unopened path fault)
  | .directory => .error (.unread path .isDirectory)
  | .bytes bytes =>
    match Json.ofBytes layout.reader bytes with
    | .error failure => .error (.unreadable path failure)
    | .ok c =>
      match c.validate with
      | .error cause => .error (.invalid cause)
      | .ok _ => .ok c

end Lockstep.Config
