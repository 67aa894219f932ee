import Lockstep.Attempt
import Lockstep.Random.Shuffle
import Mathlib.Data.Nat.Factorial.Basic
import Mathlib.Tactic.Lemma

/-!
# No place outside of what is shuffled

The places of a group come from one random number below the product `m (m + 1) ⋯ (m + k - 1)` of
their numbers of choices.  A place is the rest of that number modulo the first factor, and what is
left is below the product of the other factors (`Places.IsWithin`); the last place is what is left
in the end.  The number itself is below the product even if it was corrected by one
(`Generator.below_lt`).

So no place lies behind the element that it is drawn for.  A shuffle that checks this at each swap
does the same as one that does not: that is the main statement, `checkedShuffle_eq`.
-/

namespace Lockstep.Random

/-- A random number is below its bound, corrected or not. -/
lemma Generator.below_lt {bound : Nat} (hbound : 0 < bound) (g : Generator) :
    (g.below bound).1 < bound := by
  have hproduct : ∀ x : UInt32, x.toNat * bound / UInt32.size < bound := by
    intro x
    apply Nat.div_lt_of_lt_mul
    exact Nat.mul_lt_mul_of_pos_right x.toNat_lt hbound
  unfold below
  dsimp only
  split_ifs with hlow
  · -- The correction divides the two products together, as far as the second one counts.
    generalize g.next32.1 = x
    generalize g.next32.2.next32.1 = y
    have hx : (x.toNat + 1) * bound ≤ UInt32.size * bound :=
      Nat.mul_le_mul_right bound x.toNat_lt
    have hy := hproduct y
    have hsplit := Nat.mod_add_div' (x.toNat * bound) UInt32.size
    rw [Nat.add_mul, Nat.one_mul] at hx
    rw [Nat.add_comm, ← Nat.add_mul_div_right _ _ (by decide : 0 < UInt32.size)]
    apply Nat.div_lt_of_lt_mul
    omega
  · exact hproduct _

namespace Places

/-! ### Groups -/

/-- The first factor of an ascending product in front of the other ones. -/
lemma ascFactorial_succ_left (m k : Nat) :
    m.ascFactorial (k + 1) = m * (m + 1).ascFactorial k := by
  rw [Nat.ascFactorial_succ, Nat.succ_ascFactorial]

/-- Factors are multiplied onto the product of those before them. -/
lemma exists_grow_eq (tries m factors : Nat) :
    ∃ k, factors ≤ k ∧
      grow tries (m.ascFactorial factors) (m + factors) factors = (m.ascFactorial k, k) := by
  induction tries generalizing factors with
  | zero => exact ⟨factors, Nat.le_refl _, rfl⟩
  | succ tries ih =>
    unfold grow
    split_ifs with hfits
    · obtain ⟨k, hk, hgrow⟩ := ih (factors + 1)
      rw [Nat.ascFactorial_succ, Nat.mul_comm] at hgrow
      exact ⟨k, Nat.le_of_succ_le hk, hgrow⟩
    · exact ⟨factors, Nat.le_refl _, rfl⟩

/-- The bound of a group is the product of the factors that it starts with. -/
lemma exists_group_eq (m : Nat) : ∃ k, group m = (m.ascFactorial (k + 1), k + 1) := by
  obtain ⟨k, hk, hgrow⟩ := exists_grow_eq 32 m 1
  rw [Nat.ascFactorial_succ, Nat.ascFactorial_zero, Nat.add_zero, Nat.mul_one] at hgrow
  obtain ⟨j, rfl⟩ := Nat.exists_eq_add_of_le' hk
  exact ⟨j, hgrow⟩

/-! ### Single places -/

/-- What is left of the number of a group is below the product of the factors that are left. -/
def IsWithin (s : Places) : Prop :=
  0 < s.left → s.chunk < (s.position + 1).ascFactorial s.left

/-- The first element can only stay where it is. -/
lemma isWithin_start : IsWithin {} := by
  intro _
  decide

/-- A number below a product of factors gives a place for the first one, and the rest of it is below
the product of the other ones. -/
lemma split_chunk {m chunk left : Nat} (h : chunk < m.ascFactorial (left + 1)) :
    (if left = 0 then chunk else chunk % m) < m ∧
      (0 < left → chunk / m < (m + 1).ascFactorial left) := by
  rw [ascFactorial_succ_left] at h
  have hm : 0 < m := Nat.pos_of_mul_pos_right (Nat.zero_lt_of_lt h)
  constructor
  · split_ifs with hlast
    · rwa [hlast, Nat.ascFactorial_zero, Nat.mul_one] at h
    · exact Nat.mod_lt _ hm
  · intro _
    exact Nat.div_lt_of_lt_mul h

/-- **A place is not behind the element that it is drawn for.** -/
lemma IsWithin.next {s : Places} (h : s.IsWithin) (g : Generator) :
    (s.next g).1 ≤ s.position ∧ (s.next g).2.1.position = s.position + 1 ∧
      (s.next g).2.1.IsWithin := by
  -- Wherever the number comes from, it is below the product of the factors from here on.
  have hgive : ∀ (chunk left : Nat) (g' : Generator),
      chunk < (s.position + 1).ascFactorial (left + 1) →
      let r : Nat × Places × Generator :=
        if left = 0 then (chunk, ⟨s.position + 1, chunk, left⟩, g')
        else (chunk % (s.position + 1), ⟨s.position + 1, chunk / (s.position + 1), left⟩, g')
      r.1 ≤ s.position ∧ r.2.1.position = s.position + 1 ∧ r.2.1.IsWithin := by
    intro chunk left g' hchunk
    obtain ⟨hplace, hrest⟩ := split_chunk hchunk
    dsimp only
    split_ifs with hlast
    · rw [if_pos hlast] at hplace
      exact ⟨Nat.le_of_lt_succ hplace, rfl, fun hpos => absurd hlast (Nat.ne_of_gt hpos)⟩
    · rw [if_neg hlast] at hplace
      exact ⟨Nat.le_of_lt_succ hplace, rfl, hrest⟩
  unfold Places.next
  cases hleft : s.left with
  | zero =>
    obtain ⟨k, hgroup⟩ := exists_group_eq (s.position + 1)
    have hbelow := g.below_lt (Nat.ascFactorial_pos s.position (k + 1))
    simp only [hgroup]
    exact hgive _ k _ hbelow
  | succ left =>
    have hchunk := h (by omega)
    rw [hleft] at hchunk
    exact hgive s.chunk left g hchunk

end Places

/-! ### Shuffles that check -/

variable {α : Type}

/-- An array with two of its elements swapped, unless the second place is behind the first one or
the first one is outside of the array. -/
def checkedSwap (a : Array α) (i j : Nat) : Except Fault (Array α) :=
  if h : j ≤ i ∧ i < a.size then .ok (a.swap i j h.2 (Nat.lt_of_le_of_lt h.1 h.2))
  else .error .outOfBounds

/-- Swaps the elements from a place on, of which there are that many, and checks each swap. -/
def checkedShuffleFrom : Nat → Places → Generator → Array α →
    Except Fault (Array α × Generator)
  | 0, _, g, a => .ok (a, g)
  | n + 1, s, g, a => do
    let (place, s', g) := s.next g
    checkedShuffleFrom n s' g (← checkedSwap a s.position place)

/-- Shuffles an array and checks each swap. -/
def checkedShuffle (a : Array α) (g : Generator) : Except Fault (Array α × Generator) :=
  if a.size ≤ 1 then .ok (a, g) else checkedShuffleFrom a.size {} g a

/-- A swap that passes its check is one within the array. -/
lemma checkedSwap_eq {a : Array α} {i j : Nat} (hle : j ≤ i) (hi : i < a.size) :
    checkedSwap a i j = .ok (a.swapIfInBounds i j) := by
  unfold checkedSwap Array.swapIfInBounds
  rw [dif_pos ⟨hle, hi⟩, dif_pos hi, dif_pos (Nat.lt_of_le_of_lt hle hi)]

/-- No swap fails its check. -/
lemma checkedShuffleFrom_eq {n : Nat} {s : Places} {a : Array α} (hs : s.IsWithin)
    (hsize : s.position + n = a.size) (g : Generator) :
    checkedShuffleFrom n s g a = .ok (shuffleFrom n s g a) := by
  induction n generalizing s g a with
  | zero => rfl
  | succ n ih =>
    obtain ⟨hplace, hposition, hwithin⟩ := hs.next g
    have hswap : checkedSwap a s.position (s.next g).1 =
        .ok (a.swapIfInBounds s.position (s.next g).1) := checkedSwap_eq hplace (by omega)
    have hrest : (s.next g).2.1.position + n =
        (a.swapIfInBounds s.position (s.next g).1).size := by
      rw [hposition, Array.size_swapIfInBounds]
      omega
    unfold checkedShuffleFrom shuffleFrom
    change (checkedSwap a s.position (s.next g).1 >>=
      fun a' => checkedShuffleFrom n (s.next g).2.1 (s.next g).2.2 a') = _
    rw [hswap]
    exact ih hwithin hrest _

/-- **Nothing is swapped with a place behind it or outside of the array.** -/
theorem checkedShuffle_eq (a : Array α) (g : Generator) :
    checkedShuffle a g = .ok (shuffle a g) := by
  unfold checkedShuffle shuffle
  split_ifs
  · rfl
  · exact checkedShuffleFrom_eq Places.isWithin_start (Nat.zero_add _) g

end Lockstep.Random
