import Lockstep.File

/-!
# Folders

A folder in memory: the files and directories below one place, each under the names that lead to it.
A directory is there as soon as something is below it.  Paths are relative to the folder and
followed name by name, so all names but the last one have to lead to directories.  A path from the
root of the system, or to the parent of the folder, leads outside, where nothing is known but the
file that swallows everything.
-/

namespace Lockstep

/-- The names that lead to something. -/
abbrev Trail : Type := List String

/-- What is below a place. -/
structure Folder where
  /-- The bytes of files, and nothing for directories. -/
  entries : List (Trail × Option ByteArray)

/-- Where a path can lead. -/
inductive Place where
  /-- Into the folder. -/
  | inside (t : Trail)
  /-- To somewhere else in the system. -/
  | outside (t : Trail)
  deriving DecidableEq, Repr

namespace Place

/-- What has a name in a directory. -/
def below (name : String) : Place → Place
  | inside t => inside (t ++ [name])
  | outside t => outside (t ++ [name])

/-- The directory around a place.  The root of the system is its own parent. -/
def parent : Place → Place
  | inside [] => outside []
  | inside t => inside t.dropLast
  | outside t => outside t.dropLast

end Place

namespace Folder

/-- The names of a path that stays in the folder. -/
def trail (path : String) : Trail :=
  (path.splitOn "/").filter fun name => name ≠ "" ∧ name ≠ "."

/-- A trail leads further than another one, through the same names. -/
def isBelow (above : Trail) (t : Trail) : Bool :=
  above.isPrefixOf t && decide (above.length < t.length)

/-- What stands at a place. -/
def find (f : Folder) : Place → File
  | .outside [] => .directory
  | .outside ["dev"] => .directory
  | .outside ["dev", "null"] => .bytes ByteArray.empty
  | .outside _ => .absent .notFound
  | .inside t =>
    match f.entries.lookup t with
    | some (some content) => .bytes content
    | some none => .directory
    | none =>
      if t = [] ∨ f.entries.any fun e => isBelow t e.1 then .directory else .absent .notFound

/-- The bytes that a name may have. -/
def nameLimit : Nat := 255

/-- The bytes that a path may have. -/
def pathLimit : Nat := 4095

/-- Follows a name from a place, which has to be a directory. -/
def enter (f : Folder) (place : Place) (name : String) : Except File.Fault Place :=
  match f.find place with
  | .absent fault => .error fault
  | .bytes _ => .error .notDirectory
  | .directory =>
    if name = "" ∨ name = "." then .ok place
    else if name = ".." then .ok place.parent
    else if nameLimit < name.utf8ByteSize then .error .nameTooLong
    else .ok (place.below name)

/-- Where a path begins. -/
def start (path : String) : Place :=
  if path.startsWith "/" then .outside [] else .inside []

/-- Follows a path to its end. -/
def follow (f : Folder) (path : String) : Except File.Fault Place :=
  if pathLimit < path.utf8ByteSize then .error .nameTooLong
  else (path.splitOn "/").foldlM f.enter (start path)

/-- What stands under a path. -/
def look (f : Folder) (path : String) : File :=
  match f.follow path with
  | .error fault => .absent fault
  | .ok place => f.find place

/-- The names in a directory, each of them once. -/
def names (f : Folder) (path : String) : Except File.Fault (List String) := do
  let place ← f.follow path
  match f.find place, place with
  | .absent fault, _ => .error fault
  | .bytes _, _ => .error .notDirectory
  | .directory, .outside _ => .ok []
  | .directory, .inside t =>
    .ok (f.entries.filterMap fun e =>
      if isBelow t e.1 then e.1[t.length]? else none).eraseDups

/-- Puts a file at a place that is no directory, instead of a file that may be there.  What is put
outside of the folder is not seen again. -/
def putAt (f : Folder) (place : Place) (content : ByteArray) : Except File.Fault Folder :=
  match f.find place, place with
  | .directory, _ => .error .isDirectory
  | _, .inside t => .ok ⟨(t, some content) :: f.entries.filter (·.1 ≠ t)⟩
  | _, .outside _ => .ok f

/-- Puts a file under a path, in a directory that is already there.  A path with a slash at its end
leads to no file, and neither do points. -/
def put (f : Folder) (path : String) (content : ByteArray) : Except File.Fault Folder :=
  if pathLimit < path.utf8ByteSize then .error .nameTooLong
  else
    let names := path.splitOn "/"
    match names.reverse.dropWhile (· = "") with
    | [] => .error .isDirectory
    | name :: above => do
      let place ← (above.reverse ++ [""]).foldlM f.enter (start path)
      if names.getLast? = some "" ∨ name = "." ∨ name = ".." then .error .isDirectory
      else f.putAt (← f.enter place name) content

end Folder

end Lockstep
