import Lockstep.Rendezvous.Channel

/-!
# Barriers

A barrier is one channel, or two of them that take turns, so that consecutive rounds use separate
flags and locks.
-/

namespace Lockstep

/-- How many cores meet on how many channels. -/
structure Shape where
  cores : Nat
  channels : Nat
  cores_pos : 0 < cores
  cores_le : cores ≤ coreLimit
  channels_pos : 0 < channels
  channels_le : channels ≤ channelLimit
  deriving DecidableEq, Repr

namespace Shape

/-- The shape of that many cores and channels. -/
def ofCounts (cores channels : Nat) : Except Fault Shape :=
  if hc : 0 < channels ∧ channels ≤ channelLimit then
    if hn : 0 < cores ∧ cores ≤ coreLimit then
      .ok ⟨cores, channels, hn.1, hn.2, hc.1, hc.2⟩
    else .error (FlagBoard.countFault cores)
  else .error (.stopped ("a barrier has 1 or " ++ channelLimit.repr ++ " channels, not " ++
    channels.repr))

/-- The core that leads. -/
def leader (s : Shape) : Fin s.cores :=
  ⟨0, s.cores_pos⟩

/-- The channel of that number, counted from zero. -/
def channel? (s : Shape) (index : Nat) : Except Fault (Fin s.channels) :=
  if h : index < s.channels then .ok ⟨index, h⟩ else .error .outOfBounds

/-- The channel of a round, counted from one. -/
def channelFor (s : Shape) (round : Nat) : Fin s.channels :=
  ⟨(round - 1) % s.channels, Nat.mod_lt _ s.channels_pos⟩

end Shape

/-- The channels that cores meet on. -/
abbrev Barrier (s : Shape) := Vector (Channel s.cores) s.channels

namespace Barrier

variable {s : Shape}

/-- A barrier before its first round. -/
def idle (s : Shape) : Barrier s :=
  Vector.replicate s.channels (Channel.idle s.cores)

/-- All channels are between two rounds. -/
def isQuiescent (b : Barrier s) : Bool :=
  b.toList.all Channel.isQuiescent

theorem isQuiescent_idle (s : Shape) : (idle s).isQuiescent = true := by
  simp [isQuiescent, idle, Channel.isQuiescent_idle]

end Barrier

end Lockstep
