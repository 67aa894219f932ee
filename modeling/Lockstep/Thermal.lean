import Lockstep.Decimal.Fixed
import Lockstep.File
import Lockstep.Notice
import Lockstep.Text.Blank
import Lockstep.Text.Numeral

/-!
# Temperatures

The system has a directory for each of its thermal zones, in which a file holds the temperature in
thousandths of a degree.  The temperatures are told after every few iterations, so that runs on a
processor that was too hot can be recognised.
-/

namespace Lockstep

/-- The thermal zones, and how often their temperatures are told. -/
structure Thermal where
  /-- The directory of the zones. -/
  root : String
  /-- The names of the zones in ascending order. -/
  zones : List String
  /-- Temperatures are told after every so many iterations, or never if that is zero. -/
  every : UInt64
  deriving DecidableEq, Repr

namespace Thermal

/-- Where the system keeps its thermal zones. -/
def systemRoot : String := "/sys/class/thermal"

/-- The topic of temperatures. -/
def topic : String := "corun::thermal"

/-- The path to something below a directory. -/
def below (root path : String) : String :=
  if root = "" ∨ root.endsWith "/" then root ++ path else root ++ "/" ++ path

/-- The file that holds the temperature of a zone. -/
def path (root zone : String) : String :=
  below root (zone ++ "/temp")

/-- A name in the directory of the zones is a zone if it is called so and has a temperature. -/
def isZone (root : String) (look : String → File) (name : String) : Bool :=
  name.startsWith "thermal_zone" &&
    match look (path root name) with
    | .bytes _ => true
    | _ => false

/-- The zones among the names in a directory. -/
def discover (root : String) (names : List String) (look : String → File) (every : UInt64) :
    Thermal where
  root := root
  zones := (names.filter (isZone root look)).mergeSort
  every := every

/-- What is said about the zones that were found. -/
def notices (t : Thermal) : List Notice :=
  if t.zones.isEmpty then [⟨.warn, topic, "no thermal zones below " ++ t.root⟩] else []

/-- The temperature in degrees that a file tells, or why it tells none. -/
def celsius (file : File) : Except String Float :=
  match file.content with
  | .error fault => .error fault.text
  | .ok content =>
    match String.fromUTF8? content with
    | none => .error File.Fault.notText.text
    | some s =>
      match Text.Numeral.signed (UInt64.size / 2) (Text.trim s.toList) with
      | .error e => .error e.message
      | .ok n => .ok ((Int64.ofInt n).toFloat / 1000)

/-- The temperature of each zone, or why there is none. -/
def readings (look : String → File) (t : Thermal) : List (String × Except String Float) :=
  t.zones.map fun zone => (zone, celsius (look (path t.root zone)))

/-- The temperatures that can be read. -/
def read (look : String → File) (t : Thermal) : List (String × Float) :=
  (t.readings look).filterMap fun (zone, reading) => reading.toOption.map fun x => (zone, x)

/-- What is said about zones whose temperature cannot be read. -/
def unreadable (look : String → File) (t : Thermal) : List Notice :=
  (t.readings look).filterMap fun (zone, reading) =>
    match reading with
    | .ok _ => none
    | .error reason => some ⟨.debug, topic, "reading " ++ path t.root zone ++ ": " ++ reason⟩

/-- What is said after an iteration: first which temperatures cannot be read, then the others. -/
def afterIteration (look : String → File) (iteration : UInt64) (t : Thermal) : List Notice :=
  if t.every = 0 ∨ iteration % t.every ≠ 0 then []
  else
    t.unreadable look ++ (t.read look).map fun (zone, x) =>
      ⟨.info, topic, "iteration: " ++ iteration.toNat.repr ++ " " ++ zone ++ ": " ++
        Decimal.fixed 1 false x ++ " C"⟩

end Thermal

end Lockstep
