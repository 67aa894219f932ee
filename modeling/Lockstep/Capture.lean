import Lockstep.File
import Lockstep.Record.Json
import Lockstep.Record.Line
import Lockstep.Text.Lines

/-!
# Captures

A capture is what a run has left behind: its log, a file with one JSON text of a record on each
line, or a mix of both.  A line that starts with a brace or mentions the marker of a record is meant
to hold a record; all other lines are passed over.
-/

namespace Lockstep

/-- The records of a capture. -/
structure Capture where
  records : List Record
  /-- How many lines are meant to hold a record but cannot be read. -/
  malformed : Nat
  deriving DecidableEq, Repr

namespace Capture

/-! ### Lines -/

/-- The byte that ends a line. -/
def lineBreak : UInt8 := 0x0a

/-- The lines of a capture. -/
def lines (bytes : List UInt8) : List (List UInt8) :=
  Text.linesBy (· == lineBreak) bytes

/-- The characters of a line, if it is a text. -/
def characters (line : List UInt8) : Except File.Fault (List Char) :=
  match String.fromUTF8? ⟨line.toArray⟩ with
  | some s => .ok s.toList
  | none => .error .notText

/-- What a line holds: a record, something that was meant to be one, or neither. -/
def record? (line : List Char) : Option (Option Record) :=
  let line := Text.trim line
  if line.head? = some '\x7b' then some (Json.ofChars Record.layout.reader line).toOption
  else if Record.isMarked line then some (Record.ofLine (String.ofList line)).toOption
  else none

/-! ### Captures -/

/-- The capture that lines make up. -/
def ofLines (ls : List (List Char)) : Capture :=
  let found := ls.filterMap record?
  ⟨found.filterMap id, found.countP (·.isNone)⟩

/-- Reads a capture.  Every line has to be a text. -/
def ofBytes (bytes : ByteArray) : Except File.Fault Capture :=
  ((lines bytes.data.toList).mapM characters).map ofLines

/-- The capture without the first iterations of every core. -/
def skipWarmup (warmup : UInt64) (c : Capture) : Capture :=
  { c with records := c.records.filter fun r => decide (warmup < r.iteration) }

end Capture

end Lockstep
