import Lockstep.Sink.Buffered

/-!
# Stores

A store keeps what is written to it, up to a limit.  It takes bytes as a whole or not at all.
-/

namespace Lockstep

/-- Bytes that were written, and how many there may be. -/
structure Store where
  content : Array UInt8 := #[]
  limit : Option Nat := none
  deriving DecidableEq, Repr, Inhabited

namespace Store

/-- That many bytes more are too many. -/
def isFull (more : Nat) (s : Store) : Bool :=
  match s.limit with
  | none => false
  | some limit => limit < s.content.size + more

instance : Device Store where
  write bytes s :=
    if s.isFull bytes.length then (.error "disk full", s)
    else (.ok bytes.length, { s with content := s.content ++ bytes })
  flush s := (.ok (), s)

end Store

end Lockstep
