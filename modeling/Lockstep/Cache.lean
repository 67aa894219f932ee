import Lockstep.Config
import Lockstep.Memory

/-!
# Conditioning caches

Before an iteration each core walks through a buffer of its own and stores to every cache line of
it, so that whatever the last iteration has left in the caches is displaced.  What is stored is a
counter of eight bits that grows with every walk.
-/

namespace Lockstep

/-- The bytes of a cache line. -/
def cacheLine : Nat := 64

/-- How a core conditions its caches. -/
inductive CacheSweep where
  | none
  | evict (buffer : Array UInt8) (generation : UInt8)
  deriving DecidableEq, Repr, Inhabited

namespace CacheSweep

/-- A sweep over a buffer of that many bytes. -/
def evicting (bytes : UInt64) : Except Fault CacheSweep :=
  if bytes = 0 then .ok .none
  else if isAddressable bytes.toNat then .ok (.evict (Array.replicate bytes.toNat 0) 0)
  else .error .capacity

/-- The sweep that a configuration asks of a core. -/
def ofConfig (config : CacheConfig) (role : Role) : Except Fault CacheSweep :=
  match config.mode with
  | .none => .ok .none
  | .evict => evicting (if role = .leader then config.fullBytes else config.privateBytes)

/-- Where the lines of a buffer of that many bytes begin; the last line may be cut off. -/
def lineStarts (size : Nat) : List Nat :=
  (List.range ((size + cacheLine - 1) / cacheLine)).map (cacheLine * ·)

/-- Stores to the first byte of every cache line. -/
def touch (generation : UInt8) (buffer : Array UInt8) : Array UInt8 :=
  (lineStarts buffer.size).foldl (fun b place => b.setIfInBounds place generation) buffer

/-- Walks through the buffer once. -/
def condition : CacheSweep → CacheSweep
  | .none => .none
  | .evict buffer generation => .evict (touch (generation + 1) buffer) (generation + 1)

/-- The bytes of the buffer. -/
def bytes : CacheSweep → Nat
  | .none => 0
  | .evict buffer _ => buffer.size

end CacheSweep

end Lockstep
