import Lockstep.Random.Generator

/-!
# Shuffling

Every element is swapped with one at a random place up to its own.  The places are taken from random
numbers in groups: one number below a product of consecutive integers gives a place for each factor.

The main statement, `shuffle_perm`, says that a shuffled array holds the same elements.
-/

namespace Lockstep.Random

/-- How far places have been drawn. -/
structure Places where
  /-- The element that is next. -/
  position : Nat := 0
  /-- The random number that the places of the group are taken from. -/
  chunk : Nat := 0
  /-- The places that are left in the group. -/
  left : Nat := 1
  deriving DecidableEq, Repr

namespace Places

/-- Multiplies consecutive integers onto a product as long as it fits thirty-two bits; answers the
product and the number of its factors.  Every factor at least doubles the product, so no more than
thirty-two are tried. -/
def grow : Nat → Nat → Nat → Nat → Nat × Nat
  | 0, product, _, factors => (product, factors)
  | tries + 1, product, next, factors =>
    if product * next < UInt32.size then grow tries (product * next) (next + 1) (factors + 1)
    else (product, factors)

/-- The bound of a group that starts with a factor, and how many places the group gives. -/
def group (m : Nat) : Nat × Nat :=
  grow 32 m (m + 1) 1

/-- The place for the next element, which is not behind it. -/
def next (s : Places) (g : Generator) : Nat × Places × Generator :=
  let m := s.position + 1
  let (chunk, left, g) :=
    match s.left with
    | 0 =>
      let (bound, factors) := group m
      let (chunk, g) := g.below bound
      (chunk, factors - 1, g)
    | left + 1 => (s.chunk, left, g)
  if left = 0 then (chunk, ⟨m, chunk, left⟩, g) else (chunk % m, ⟨m, chunk / m, left⟩, g)

end Places

/-- Swaps the elements from a place on, of which there are that many. -/
def shuffleFrom {α : Type} : Nat → Places → Generator → Array α → Array α × Generator
  | 0, _, g, a => (a, g)
  | n + 1, s, g, a =>
    let (place, s', g) := s.next g
    shuffleFrom n s' g (a.swapIfInBounds s.position place)

/-- Shuffles an array.  Nothing is drawn for an array that has no two elements.  Drawing places in
groups is meant for arrays of less than `2 ^ 32 - 1` elements; how the place of each element of a
longer one would be drawn, by itself, is not told here. -/
def shuffle {α : Type} (a : Array α) (g : Generator) : Array α × Generator :=
  if a.size ≤ 1 then (a, g) else shuffleFrom a.size {} g a

theorem swapIfInBounds_perm {α : Type} (a : Array α) (i j : Nat) :
    (a.swapIfInBounds i j).Perm a := by
  unfold Array.swapIfInBounds
  split
  · split
    · exact Array.swap_perm _ _
    · exact Array.Perm.refl _
  · exact Array.Perm.refl _

theorem shuffleFrom_perm {α : Type} (n : Nat) (s : Places) (g : Generator) (a : Array α) :
    (shuffleFrom n s g a).1.Perm a := by
  induction n generalizing s g a with
  | zero => exact Array.Perm.refl _
  | succ n ih => exact (ih _ _ _).trans (swapIfInBounds_perm _ _ _)

/-- A shuffled array holds the same elements. -/
theorem shuffle_perm {α : Type} (a : Array α) (g : Generator) : (shuffle a g).1.Perm a := by
  unfold shuffle
  split
  · exact Array.Perm.refl _
  · exact shuffleFrom_perm _ _ _ _

end Lockstep.Random
