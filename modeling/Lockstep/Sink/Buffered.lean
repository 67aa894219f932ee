/-!
# Buffered writing

Bytes are collected and handed on to a device when the next ones do not fit any more, when somebody
asks for it, and when the writer is given up.  A device may take a part of the bytes, or fail; what
it has not taken stays collected.  Bytes that would fill the buffer alone are handed on at once,
after those that were collected before.
-/

namespace Lockstep

/-- Something that bytes are written to. -/
class Device (D : Type) where
  /-- Takes some of the given bytes, from the first one on, and says how many, or fails for a
  reason. -/
  write : List UInt8 → D → Except String Nat × D
  /-- Makes sure of the bytes that were taken, or fails for a reason. -/
  flush : D → Except String Unit × D

/-- A device whose bytes are collected first. -/
structure Buffered (D : Type) where
  /-- The bytes that the device has not taken yet. -/
  pending : Array UInt8
  device : D

namespace Buffered

variable {D : Type} [Device D]

/-- How many bytes are collected at most. -/
def capacity : Nat := 8192

/-- Nothing is collected yet. -/
def start (device : D) : Buffered D :=
  ⟨#[], device⟩

/-- Hands bytes on until none is left or the device fails.  A device that takes none of them fails
with the given reason.  The bytes that it has not taken are left over. -/
def handOn (stuck : String) (device : D) (bytes : List UInt8) :
    Except String Unit × List UInt8 × D :=
  match bytes with
  | [] => (.ok (), [], device)
  | b :: rest =>
    match Device.write (b :: rest) device with
    | (.error reason, device) => (.error reason, b :: rest, device)
    | (.ok 0, device) => (.error stuck, b :: rest, device)
    | (.ok (n + 1), device) => handOn stuck device (rest.drop n)
termination_by bytes.length
decreasing_by
  simp only [List.length_drop, List.length_cons]
  omega

/-- Hands on what is collected. -/
def drain (w : Buffered D) : Except String Unit × Buffered D :=
  let r := handOn "failed to write the buffered data" w.device w.pending.toList
  (r.1, ⟨r.2.1.toArray, r.2.2⟩)

/-- Writes bytes. -/
def put (bytes : List UInt8) (w : Buffered D) : Except String Unit × Buffered D :=
  if w.pending.size + bytes.length ≤ capacity ∧ bytes.length < capacity then
    (.ok (), { w with pending := w.pending ++ bytes })
  else
    match w.drain with
    | (.error reason, w) => (.error reason, w)
    | (.ok (), w) =>
      if bytes.length < capacity then (.ok (), { w with pending := w.pending ++ bytes })
      else
        let r := handOn "failed to write whole buffer" w.device bytes
        (r.1, { w with device := r.2.2 })

/-- Writes pieces one after the other, until one of them fails. -/
def putAll : List (List UInt8) → Buffered D → Except String Unit × Buffered D
  | [], w => (.ok (), w)
  | piece :: pieces, w =>
    match w.put piece with
    | (.error reason, w) => (.error reason, w)
    | (.ok (), w) => putAll pieces w

/-- Hands on what is collected, and has the device make sure of it. -/
def flush (w : Buffered D) : Except String Unit × Buffered D :=
  match w.drain with
  | (.error reason, w) => (.error reason, w)
  | (.ok (), w) =>
    let r := Device.flush w.device
    (r.1, { w with device := r.2 })

/-- Gives the writer up after handing on what is collected.  If that fails it is tried once more,
but the failure stands. -/
def close (w : Buffered D) : Except String Unit × D :=
  match w.drain with
  | (.ok (), w) => (.ok (), w.device)
  | (.error reason, w) => (.error reason, w.drain.2.device)

end Buffered

end Lockstep
