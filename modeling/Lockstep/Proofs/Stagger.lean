import Lockstep.Stagger
import Mathlib.Algebra.Order.Ring.Nat
import Mathlib.Tactic.Lemma

/-!
# Offsets and delays

An offset is a product that is cut off at the largest number of sixty-four bits, and a delay is a
product of that one, cut off again.  Cutting off twice comes to cutting the exact product off once
(`min_min_mul`): a product that was too large stays too large, unless the second factor is zero, and
then both are zero.  So offsets and delays are functions of the step that an iteration is in, and
everything else that is said of them follows from what is known of steps.

The main statement is `Stagger.rises_in_steps`.
-/

namespace Lockstep

/-- Cutting a factor off at a bound does not matter if the product is cut off there, too. -/
lemma min_min_mul (bound a b : Nat) : min bound (min bound a * b) = min bound (a * b) := by
  rcases Nat.le_total a bound with hle | hle
  · rw [Nat.min_eq_right hle]
  · rw [Nat.min_eq_left hle]
    rcases Nat.eq_zero_or_pos b with rfl | hb
    · rw [Nat.mul_zero, Nat.mul_zero]
    · have hcut : bound ≤ bound * b := Nat.le_mul_of_pos_right bound hb
      rw [Nat.min_eq_left hcut, Nat.min_eq_left (hcut.trans (Nat.mul_le_mul_right b hle))]

namespace Stagger

variable (s : Stagger)

/-- The step that an iteration is in, counted from zero.  Iterations count from one. -/
def stepOf (iteration : UInt64) : Nat :=
  (iteration.toNat - 1) / s.config.iterationsPerStep.toNat

/-- The iteration is one of those that make up a step. -/
def IsInStep (j : Nat) (iteration : UInt64) : Prop :=
  j * s.config.iterationsPerStep.toNat + 1 ≤ iteration.toNat ∧
    iteration.toNat ≤ (j + 1) * s.config.iterationsPerStep.toNat

/-- Offsets and delays are exact as long as they are in range, they never fall, and they change from
one step to the next only. -/
structure RisesInSteps : Prop where
  offset_eq : ∀ n, (s.offset n).toNat =
    min (2 ^ 64 - 1) (s.stepOf n * s.config.offsetStep.toNat)
  delay_eq : ∀ n, (s.delay n).toNat =
    min (2 ^ 64 - 1) (s.stepOf n * s.config.offsetStep.toNat * s.config.delayStepCountdown.toNat)
  offset_le : ∀ m n, m ≤ n → s.offset m ≤ s.offset n
  delay_le : ∀ m n, m ≤ n → s.delay m ≤ s.delay n
  offset_const : ∀ j m n, s.IsInStep j m → s.IsInStep j n → s.offset m = s.offset n
  delay_const : ∀ j m n, s.IsInStep j m → s.IsInStep j n → s.delay m = s.delay n
  /-- The offset grows by the same number from step to step until it would leave its range. -/
  offset_succ : ∀ j m n, s.IsInStep j m → s.IsInStep (j + 1) n →
    (j + 1) * s.config.offsetStep.toNat ≤ 2 ^ 64 - 1 →
      (s.offset n).toNat = (s.offset m).toNat + s.config.offsetStep.toNat

variable {s} {j : Nat} {m n : UInt64}

/-! ### Steps -/

/-- A later iteration is not in an earlier step. -/
lemma stepOf_le (s : Stagger) (h : m ≤ n) : s.stepOf m ≤ s.stepOf n :=
  Nat.div_le_div_right (Nat.sub_le_sub_right (UInt64.le_iff_toNat_le.mp h) 1)

/-- The iterations that make up a step are in it. -/
lemma IsInStep.stepOf_eq (h : s.IsInStep j n) : s.stepOf n = j := by
  obtain ⟨hfirst, hlast⟩ := h
  rw [Nat.succ_mul] at hlast
  refine Nat.div_eq_of_lt_le (Nat.le_sub_one_of_lt hfirst) ?_
  rw [Nat.succ_mul]
  omega

/-! ### Offsets and delays by their steps -/

/-- The offset of an iteration is the exact one, cut off. -/
lemma toNat_offset (s : Stagger) (n : UInt64) :
    (s.offset n).toNat = min (2 ^ 64 - 1) (s.stepOf n * s.config.offsetStep.toNat) := by
  rw [offset, toNat_saturatingMul, UInt64.toNat_div, toNat_saturatingSub]
  rfl

/-- The delay before an iteration is the exact one, cut off. -/
lemma toNat_delay (s : Stagger) (n : UInt64) :
    (s.delay n).toNat = min (2 ^ 64 - 1)
      (s.stepOf n * s.config.offsetStep.toNat * s.config.delayStepCountdown.toNat) := by
  rw [delay, toNat_saturatingMul, toNat_offset]
  exact min_min_mul _ _ _

/-- Iterations of one step have one offset and one delay. -/
lemma eq_of_stepOf_eq (h : s.stepOf m = s.stepOf n) :
    s.offset m = s.offset n ∧ s.delay m = s.delay n := by
  have hoffset : s.offset m = s.offset n := by
    rw [← UInt64.toNat_inj, toNat_offset, toNat_offset, h]
  exact ⟨hoffset, congrArg (saturatingMul · _) hoffset⟩

/-- The offset does not fall. -/
lemma offset_le_offset (h : m ≤ n) : s.offset m ≤ s.offset n := by
  rw [UInt64.le_iff_toNat_le, toNat_offset, toNat_offset]
  exact min_le_min_left _ (Nat.mul_le_mul_right _ (s.stepOf_le h))

/-- The delay does not fall. -/
lemma delay_le_delay (h : m ≤ n) : s.delay m ≤ s.delay n := by
  rw [UInt64.le_iff_toNat_le, toNat_delay, toNat_delay]
  have hoffset := Nat.mul_le_mul_right s.config.offsetStep.toNat (s.stepOf_le h)
  exact min_le_min_left _ (Nat.mul_le_mul_right _ hoffset)

/-- The offset in a step that does not leave the range is exact. -/
lemma IsInStep.toNat_offset (h : s.IsInStep j n)
    (hfits : j * s.config.offsetStep.toNat ≤ 2 ^ 64 - 1) :
    (s.offset n).toNat = j * s.config.offsetStep.toNat := by
  rw [Stagger.toNat_offset, h.stepOf_eq, Nat.min_eq_right hfits]

/-- **Staggers rise in steps.**  A configuration whose steps take at least one iteration makes a
stagger.  The offset of an iteration is the exact product of its step and the offset of one step,
and its delay the exact product of that and the delay of one unit, each cut off once at the largest
number of sixty-four bits.  Neither ever falls, both stay the same in all iterations of a step, and
as long as it stays in its range the offset grows by the offset of one step from step to step. -/
theorem rises_in_steps (config : StaggerConfig) (hpositive : 1 ≤ config.iterationsPerStep) :
    ∃ s, ofConfig config = .ok s ∧ s.config = config ∧ s.RisesInSteps := by
  have hne : config.iterationsPerStep ≠ 0 := by
    rintro h
    rw [h] at hpositive
    exact absurd hpositive (by decide)
  refine ⟨⟨config, hne⟩, dif_pos hne, rfl, ?_⟩
  refine {
    offset_eq := Stagger.toNat_offset _
    delay_eq := toNat_delay _
    offset_le := fun m n => offset_le_offset
    delay_le := fun m n => delay_le_delay
    offset_const := fun j m n hm hn => (eq_of_stepOf_eq (hm.stepOf_eq.trans hn.stepOf_eq.symm)).1
    delay_const := fun j m n hm hn => (eq_of_stepOf_eq (hm.stepOf_eq.trans hn.stepOf_eq.symm)).2
    offset_succ := ?_ }
  intro j m n hm hn hfits
  have hbefore : j * config.offsetStep.toNat ≤ 2 ^ 64 - 1 :=
    (Nat.mul_le_mul_right _ (Nat.le_succ j)).trans hfits
  rw [hn.toNat_offset hfits, hm.toNat_offset hbefore, Nat.succ_mul]

/-- Steps of two iterations whose offset leaves its range in the third step, without any delay. -/
def steep : StaggerConfig where
  iterationsPerStep := 2
  offsetStep := 9223372036854775808
  delayStepCountdown := 0

/-- The offset of the fifth iteration is cut off, and yet there is no delay before it. -/
theorem rises_in_steps_of_steep :
    1 ≤ steep.iterationsPerStep ∧ ∃ s, ofConfig steep = .ok s ∧
      (s.offset 4).toNat = 2 ^ 63 ∧ (s.offset 5).toNat = 2 ^ 64 - 1 ∧ (s.delay 5).toNat = 0 := by
  obtain ⟨s, hs, hconfig, hrises⟩ := rises_in_steps steep (by decide)
  refine ⟨by decide, s, hs, ?_, ?_, ?_⟩
  · rw [hrises.offset_eq, stepOf, hconfig]
    decide
  · rw [hrises.offset_eq, stepOf, hconfig]
    decide
  · rw [hrises.delay_eq, stepOf, hconfig]
    decide

end Stagger

end Lockstep
