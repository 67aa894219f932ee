import Lockstep.Json.Pieces
import Lockstep.Notice
import Lockstep.Record.Json
import Lockstep.Sink.Buffered

/-!
# Lines of JSON

A record is written as its JSON text and a line break, piece by piece.  When a piece fails the rest
of the line is left out and somebody is told; measuring goes on.
-/

namespace Lockstep

/-- Characters as bytes. -/
def Text.encode (cs : List Char) : List UInt8 :=
  cs.flatMap String.utf8EncodeChar

namespace Record

/-- The pieces in which a record is written on a line of its own. -/
def linePieces (r : Record) : List (List Char) :=
  r.json.pieces ++ [['\n']]

/-- The pieces of a record make up its JSON text and a line break. -/
theorem flatten_linePieces (r : Record) : r.linePieces.flatten = r.json.compact ++ ['\n'] := by
  simp [linePieces, Json.Value.flatten_pieces]

end Record

namespace Buffered

variable {D : Type} [Device D]

/-- Writes a record on a line of its own. -/
def writeRecord (r : Record) (w : Buffered D) : Except String Unit × Buffered D :=
  w.putAll (r.linePieces.map Text.encode)

/-- What is said when writing fails. -/
def notices (what : String) : Except String Unit → List Notice
  | .ok () => []
  | .error reason => [.internal .error ("JsonLinesSink: failed to " ++ what ++ ": " ++ reason)]

/-- Takes a record; a failure is only told. -/
def emit (r : Record) (w : Buffered D) : List Notice × Buffered D :=
  let written := w.writeRecord r
  (notices "write record" written.1, written.2)

/-- Makes sure of the records so far; a failure is only told. -/
def settle (w : Buffered D) : List Notice × Buffered D :=
  let flushed := w.flush
  (notices "flush" flushed.1, flushed.2)

end Buffered

end Lockstep
