import Lockstep.Record
import Lockstep.Text.Blank

/-!
# Reading a record from a line

What follows the first marker of a line is cut into words.  The fields come in a fixed order, each
as a key with a colon and a value, and after them up to four event readings.  `Record.ofLine`
returns the record or the first reason against the line, looking from the left.
-/

namespace Lockstep.Record

/-- Why a line holds no readable record. -/
inductive LineError where
  /-- The marker does not occur. -/
  | noMarker (line : String)
  /-- Another word stands where a key should be, or the key has no value. -/
  | unexpectedKey (key : String) (found : List Char)
  /-- The line ends where a key should be. -/
  | endsBefore (key : String)
  /-- The value of a key is not a number that fits. -/
  | badValue (key : String) (value : List Char) (reason : Text.Numeral.Error)
  /-- A word behind the fields does not name an event slot. -/
  | unexpectedSlot (found : List Char)
  /-- The line ends where an event code should be. -/
  | missingCode (slot : Event.Slot)
  /-- The code of a reading is no event. -/
  | unknownEvent (found : List Char)
  /-- There are more readings than a record can hold. -/
  | tooManyReadings
  deriving DecidableEq, Repr

/-- The sentence shown for a line that cannot be read. -/
def LineError.message : LineError → String
  | .noMarker line => "no `" ++ marker ++ "` marker in " ++ Text.quoted line
  | .unexpectedKey key found =>
    "expected `" ++ key ++ ":`, found " ++ Text.quoted (String.ofList found)
  | .endsBefore key => "record ends before `" ++ key ++ ":`"
  | .badValue key value reason =>
    "bad `" ++ key ++ "` value " ++ Text.quoted (String.ofList value) ++ ": " ++ reason.message
  | .unexpectedSlot found =>
    "expected `event<slot>:`, found " ++ Text.quoted (String.ofList found)
  | .missingCode slot => "missing event code for slot " ++ slot.text
  | .unknownEvent found => Event.Code.unknownMessage (String.ofList found)
  | .tooManyReadings => "more than 4 event readings in one record"

/-- What follows the first occurrence of a text, if it occurs. -/
def afterFirst? (sought : List Char) : List Char → Option (List Char)
  | [] => if sought.isEmpty then some [] else none
  | c :: cs =>
    match sought.isPrefixOf? (c :: cs) with
    | some rest => some rest
    | none => afterFirst? sought cs

/-- A line that mentions the marker is meant to hold a record. -/
def isMarked (line : List Char) : Bool :=
  (afterFirst? marker.toList line).isSome

/-- The word by which a key is written. -/
def keyWord (key : String) : List Char :=
  key.toList ++ [':']

/-- Takes a key and its value off the words of a line. -/
def takeValue (key : String) : List (List Char) → Except LineError (List Char × List (List Char))
  | [] => .error (.endsBefore key)
  | [k] => .error (.unexpectedKey key k)
  | k :: value :: rest =>
    if k = keyWord key then .ok (value, rest) else .error (.unexpectedKey key k)

/-- Takes a key and a numeral of 64 bits off the words of a line. -/
def takeNumber (key : String) (ws : List (List Char)) :
    Except LineError (UInt64 × List (List Char)) :=
  match takeValue key ws with
  | .error e => .error e
  | .ok (value, rest) =>
    match Text.Numeral.uint64 value with
    | .error e => .error (.badValue key value e)
    | .ok n => .ok (n, rest)

/-- The slot that a word such as `event2:` names. -/
def slotOfWord? (word : List Char) : Option Event.Slot := do
  let behind ← "event".toList.isPrefixOf? word
  guard (behind.getLast? = some ':')
  let index ← (Text.Numeral.uint64 behind.dropLast).toOption
  Event.Slot.ofIndex? index

/-- The event readings behind the fields of a record, of which some have been seen before.  A
reading that is one too many is still read before it is refused. -/
def readings (seen : Nat) : List (List Char) → Except LineError (List Event.Reading)
  | [] => .ok []
  | key :: rest =>
    match slotOfWord? key with
    | none => .error (.unexpectedSlot key)
    | some slot =>
      match rest with
      | [] => .error (.missingCode slot)
      | word :: rest =>
        match Event.Code.ofChars? word with
        | none => .error (.unknownEvent word)
        | some code =>
          match rest with
          | [] => .error (.endsBefore "count")
          | [k] => .error (.unexpectedKey "count" k)
          | k :: value :: rest =>
            if k = keyWord "count" then
              match Text.Numeral.uint32 value with
              | .error e => .error (.badValue "count" value e)
              | .ok count =>
                if seen < Event.slotLimit then
                  (readings (seen + 1) rest).map (⟨slot, code, count⟩ :: ·)
                else .error .tooManyReadings
            else .error (.unexpectedKey "count" k)

/-- The record that the words behind the marker spell. -/
def ofWords (ws : List (List Char)) : Except LineError Record := do
  let (label, ws) ← takeValue "label" ws
  let (workload, ws) ← takeValue "benchmark" ws
  let (cores, ws) ← takeNumber "cores" ws
  let (core, ws) ← takeNumber "core" ws
  let (cycles, ws) ← takeNumber "cycle_count" ws
  let (iteration, ws) ← takeNumber "iteration" ws
  let (offset, ws) ← takeNumber "offset" ws
  let events ← readings 0 ws
  return { label := String.ofList label, workload := String.ofList workload,
           cores, core, iteration, offset, cycles, events }

/-- The record that a line holds behind its first marker. -/
def ofLine (line : String) : Except LineError Record :=
  match afterFirst? marker.toList line.toList with
  | none => .error (.noMarker line)
  | some rest => ofWords (Text.words rest)

end Lockstep.Record
