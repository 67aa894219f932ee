import Lockstep.Json.Reader
import Lockstep.Json.Value
import Lockstep.Record

/-!
# Records in JSON

A record is written as an object on one line, with its members in the order of their declaration.
Readings of event counters may name any slot of eight bits.  A record is read from an object with
further members as well, which are skipped, and the readings may be left out.
-/

namespace Lockstep

/-- A reading of an event counter in JSON. -/
def Event.Reading.layout : Json.Layout Event.Reading where
  title := "struct EventReading"
  strict := false
  members :=
    [.needed "slot" Json.Reader.uint8 fun index r => { r with slot := ⟨index⟩ },
      .needed "code" Json.Reader.uint32 fun number r => { r with code := ⟨number⟩ },
      .needed "count" Json.Reader.uint32 fun count r => { r with count := count }]
  blank := ⟨⟨0⟩, ⟨0⟩, 0⟩

/-- A reading of an event counter as a JSON value. -/
def Event.Reading.json (r : Event.Reading) : Json.Value :=
  .object [("slot", .natural r.slot.index.toNat), ("code", .natural r.code.number.toNat),
    ("count", .natural r.count.toNat)]

namespace Record

/-- A record in JSON. -/
def layout : Json.Layout Record where
  title := "struct ResultRecord"
  strict := false
  members :=
    [.needed "label" Json.Reader.string fun label r => { r with label := label },
      .needed "workload" Json.Reader.string fun workload r => { r with workload := workload },
      .needed "cores" Json.Reader.count fun cores r => { r with cores := cores },
      .needed "core" Json.Reader.count fun core r => { r with core := core },
      .needed "iteration" Json.Reader.uint64 fun iteration r => { r with iteration := iteration },
      .needed "offset" Json.Reader.uint64 fun offset r => { r with offset := offset },
      .needed "cycles" Json.Reader.uint64 fun cycles r => { r with cycles := cycles },
      .defaulted "events" (Json.Reader.array Event.Reading.layout.reader)
        fun events r => { r with events := events }]
  blank := ⟨"", "", 0, 0, 0, 0, 0, []⟩

/-- Reads a record from a JSON text. -/
def ofJson (s : String) : Except Json.Failure Record :=
  Json.ofString layout.reader s

/-- A record as a JSON value. -/
def json (r : Record) : Json.Value :=
  .object [("label", .string r.label), ("workload", .string r.workload),
    ("cores", .natural r.cores.toNat), ("core", .natural r.core.toNat),
    ("iteration", .natural r.iteration.toNat), ("offset", .natural r.offset.toNat),
    ("cycles", .natural r.cycles.toNat), ("events", .array (r.events.map (·.json)))]

/-- The JSON text of a record, on one line. -/
def jsonText (r : Record) : String :=
  r.json.text

end Record

end Lockstep
