import Lockstep.Sink.JsonLines

/-!
# Fanning out

Records go to several sinks, one after the other: into memory, into a file as lines of JSON, and
into the notices.
-/

namespace Lockstep

/-- Where a record can go. -/
inductive Sink where
  | memory
  | jsonLines
  | log
  deriving DecidableEq, Repr

/-- What the sinks have become. -/
structure FanOut (D : Type) where
  /-- Where each record goes, in this order. -/
  sinks : List Sink
  /-- The records in memory, the first one first. -/
  memory : Array Record
  /-- The file. -/
  file : Buffered D

namespace FanOut

variable {D : Type} [Device D]

/-- No record has been handed out yet. -/
def start (sinks : List Sink) (device : D) : FanOut D :=
  ⟨sinks, #[], .start device⟩

/-- The notice that a measured iteration is. -/
def recordNotice (r : Record) : Notice :=
  ⟨.info, Notice.resultsTopic, r.text⟩

/-- Hands a record to one sink. -/
def emitTo (r : Record) (sink : Sink) (f : FanOut D) : List Notice × FanOut D :=
  match sink with
  | .memory => ([], { f with memory := f.memory.push r })
  | .jsonLines =>
    let written := f.file.emit r
    (written.1, { f with file := written.2 })
  | .log => ([recordNotice r], f)

/-- Makes sure of what one sink has. -/
def settleAt (sink : Sink) (f : FanOut D) : List Notice × FanOut D :=
  match sink with
  | .jsonLines =>
    let settled := f.file.settle
    (settled.1, { f with file := settled.2 })
  | _ => ([], f)

/-- Does something with one sink after the other. -/
def forSinks (act : Sink → FanOut D → List Notice × FanOut D) :
    List Sink → FanOut D → List Notice × FanOut D
  | [], f => ([], f)
  | sink :: sinks, f =>
    let first := act sink f
    let others := forSinks act sinks first.2
    (first.1 ++ others.1, others.2)

/-- Hands a record to all sinks. -/
def emit (r : Record) (f : FanOut D) : List Notice × FanOut D :=
  forSinks (emitTo r) f.sinks f

/-- Makes sure of what all sinks have. -/
def settle (f : FanOut D) : List Notice × FanOut D :=
  forSinks settleAt f.sinks f

/-- The records of a core in memory. -/
def recordsOf (core : UInt64) (f : FanOut D) : List Record :=
  f.memory.toList.filter (·.core = core)

end FanOut

end Lockstep
