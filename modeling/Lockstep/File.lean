/-!
# Files

What stands under a path: bytes, a directory, or nothing that can be opened.  A fault is shown in
two forms, as a sentence and with all its parts; those that the system reports have a number.
-/

namespace Lockstep

/-- Why a file cannot be used. -/
inductive File.Fault where
  | notFound
  | notDirectory
  | isDirectory
  | denied
  /-- The name of a file, or a path to it, is longer than the system allows. -/
  | nameTooLong
  /-- The bytes of the file are no text. -/
  | notText
  deriving DecidableEq, Repr

/-- What stands under a path. -/
inductive File where
  | absent (fault : File.Fault)
  | directory
  | bytes (content : ByteArray)

namespace File.Fault

/-- The number of a fault that the system reports. -/
def code? : File.Fault → Option Nat
  | notFound => some 2
  | notDirectory => some 20
  | isDirectory => some 21
  | denied => some 13
  | nameTooLong => some 36
  | notText => none

/-- The kind of a fault. -/
def kind : File.Fault → String
  | notFound => "NotFound"
  | notDirectory => "NotADirectory"
  | isDirectory => "IsADirectory"
  | denied => "PermissionDenied"
  | nameTooLong => "InvalidFilename"
  | notText => "InvalidData"

/-- What a fault says. -/
def message : File.Fault → String
  | notFound => "No such file or directory"
  | notDirectory => "Not a directory"
  | isDirectory => "Is a directory"
  | denied => "Permission denied"
  | nameTooLong => "File name too long"
  | notText => "stream did not contain valid UTF-8"

/-- A fault as a sentence. -/
def text (fault : File.Fault) : String :=
  match fault.code? with
  | some code => fault.message ++ " (os error " ++ code.repr ++ ")"
  | none => fault.message

/-- A fault with all its parts. -/
def parts (fault : File.Fault) : String :=
  (match fault.code? with
    | some code => "Os \x7b code: " ++ code.repr ++ ", "
    | none => "Error \x7b ") ++
    "kind: " ++ fault.kind ++ ", message: \"" ++ fault.message ++ "\" \x7d"

end File.Fault

namespace File

/-- The bytes of a file. -/
def content : File → Except File.Fault ByteArray
  | absent fault => .error fault
  | directory => .error .isDirectory
  | bytes content => .ok content

end File

end Lockstep
