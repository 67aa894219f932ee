import Lockstep.Text.Numeral
import Lockstep.Text.Quoted

/-!
# Events

A core has a few event counters besides its cycle counter.  Each of them is a *slot*, and each slot
counts the event whose *code* it is bound to.  A *reading* is the value of one slot after a measured
run.

Codes are written in hexadecimal and read by name, in hexadecimal or in decimal; the case of the
letters does not matter.
-/

namespace Lockstep.Event

/-! ### Slots -/

/-- The number of event counters that can be bound at once. -/
def slotLimit : Nat := 4

/-- The number of an event counter.  Captured readings may name any slot of eight bits; only those
below `slotLimit` can be bound. -/
structure Slot where
  index : UInt8
  deriving DecidableEq, Repr, Inhabited

namespace Slot

/-- The slot of that number, if there is one. -/
def ofIndex? (index : UInt64) : Option Slot :=
  if index.toNat < slotLimit then some ⟨index.toUInt8⟩ else none

/-- The number of the slot in decimal. -/
def text (slot : Slot) : String :=
  slot.index.toNat.repr

theorem ofIndex?_eq_some_iff {i : UInt64} {slot : Slot} :
    ofIndex? i = some slot ↔ i.toNat < slotLimit ∧ slot = ⟨i.toUInt8⟩ := by
  simp [ofIndex?, eq_comm]

end Slot

/-! ### Codes -/

/-- The number by which the hardware knows an event. -/
structure Code where
  number : UInt32
  deriving DecidableEq, Repr, Inhabited, Ord, Hashable

namespace Code

/-- The architectural events that have a name, with their numbers. -/
def named : List (String × Code) :=
  [("l1i_tlb_refill", ⟨0x02⟩), ("l1d_cache_refill", ⟨0x03⟩), ("l1d_cache", ⟨0x04⟩),
    ("l1d_tlb_refill", ⟨0x05⟩), ("mem_access", ⟨0x13⟩), ("l1d_cache_wb", ⟨0x15⟩),
    ("l2d_cache", ⟨0x16⟩), ("l2d_cache_refill", ⟨0x17⟩), ("l2d_cache_wb", ⟨0x18⟩),
    ("bus_access", ⟨0x19⟩)]

/-- The name of an event, if it has one. -/
def name? (code : Code) : Option String :=
  (named.find? fun entry => entry.2 == code).map (·.1)

/-- The code in hexadecimal with at least two digits. -/
def text (code : Code) : String :=
  let digits := Nat.toDigits 16 code.number.toNat
  "0x" ++ String.ofList (List.replicate (2 - digits.length) '0' ++ digits)

/-- Reads an event by its name or by its number, decimal or after `0x` hexadecimal. -/
def ofChars? (cs : List Char) : Option Code :=
  let lower := cs.map Char.toLower
  match named.find? fun entry => entry.1.toList == lower with
  | some entry => some entry.2
  | none =>
    let number :=
      match lower with
      | '0' :: 'x' :: digits => Text.Numeral.unsigned 16 UInt32.size digits
      | digits => Text.Numeral.unsigned 10 UInt32.size digits
    number.toOption.map fun n => ⟨UInt32.ofNat n⟩

/-- Reads an event given as a string. -/
def ofString? (s : String) : Option Code :=
  ofChars? s.toList

/-- The sentence shown for a text that is no event. -/
def unknownMessage (s : String) : String :=
  Text.quoted s ++ " is neither a known event name nor a number"

example : ofString? "L2D_CACHE_REFILL" = some ⟨0x17⟩ := by decide +kernel
example : ofString? "0x+17" = some ⟨0x17⟩ := by decide +kernel
example : ofString? "cache-ish" = none := by decide +kernel
example : text ⟨0x3⟩ = "0x03" := by decide +kernel

end Code

/-! ### Readings -/

/-- The value of one event counter after a measured run. -/
structure Reading where
  slot : Slot
  code : Code
  count : UInt32
  deriving DecidableEq, Repr, Inhabited

end Lockstep.Event
