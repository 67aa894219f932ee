import Lockstep.Attempt
import Lockstep.Config

/-!
# Staggered starts

After every few iterations the offset of the followers grows by a step, and the followers start
later by a delay that is proportional to the offset.  Both stop growing at the largest number of
sixty-four bits.
-/

namespace Lockstep

/-- The product of two numbers, or the largest number if it is out of range. -/
def saturatingMul (a b : UInt64) : UInt64 :=
  if a.toNat * b.toNat < UInt64.size then a * b else UInt64.ofNat (UInt64.size - 1)

/-- The difference of two numbers, or zero if it is out of range. -/
def saturatingSub (a b : UInt64) : UInt64 :=
  if b ≤ a then a - b else 0

theorem toNat_saturatingMul (a b : UInt64) :
    (saturatingMul a b).toNat = min (UInt64.size - 1) (a.toNat * b.toNat) := by
  unfold saturatingMul
  split
  · rw [UInt64.toNat_mul, Nat.mod_eq_of_lt (by simpa using ‹_›)]
    omega
  · have : (UInt64.ofNat (UInt64.size - 1)).toNat = UInt64.size - 1 := by decide
    omega

theorem toNat_saturatingSub (a b : UInt64) :
    (saturatingSub a b).toNat = a.toNat - b.toNat := by
  unfold saturatingSub
  split
  · exact UInt64.toNat_sub_of_le _ _ ‹_›
  · have : ¬ b.toNat ≤ a.toNat := ‹_›
    simp; omega

/-- A stagger whose steps take at least one iteration. -/
structure Stagger where
  config : StaggerConfig
  positive : config.iterationsPerStep ≠ 0

namespace Stagger

/-- The stagger of a configuration. -/
def ofConfig (config : StaggerConfig) : Except Fault Stagger :=
  if h : config.iterationsPerStep ≠ 0 then .ok ⟨config, h⟩ else .error .assertion

/-- All cores start together. -/
def none : Stagger :=
  ⟨{}, by decide⟩

/-- The offset of an iteration, counted from one. -/
def offset (s : Stagger) (iteration : UInt64) : UInt64 :=
  saturatingMul (saturatingSub iteration 1 / s.config.iterationsPerStep) s.config.offsetStep

/-- The steps that a follower counts down before an iteration. -/
def delay (s : Stagger) (iteration : UInt64) : UInt64 :=
  saturatingMul (s.offset iteration) s.config.delayStepCountdown

end Stagger

end Lockstep
