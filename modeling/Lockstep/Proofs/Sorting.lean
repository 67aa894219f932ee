import Mathlib.Data.List.Nodup
import Mathlib.Tactic.Lemma

/-!
# Sorted lists

Things that an order tells apart have one place each when they are sorted.  So a sorted list of them
does not depend on the order that they came in: two lists that are strictly ascending are the same
if they hold the same things.
-/

namespace Lockstep

variable {α β : Type} {cmp : α → α → Ordering}

/-- Things are in an order by what they are compared by. -/
instance transCmp_key [Ord β] [Std.TransOrd β] (key : α → β) :
    Std.TransCmp fun a b => compare (key a) (key b) :=
  inferInstanceAs (Std.TransCmp (compareOn key))

/-- Sorting leaves each thing before those that do not come before it. -/
lemma pairwise_isLE_mergeSort [Std.TransCmp cmp] (as : List α) :
    (as.mergeSort fun a b => (cmp a b).isLE).Pairwise fun a b => (cmp a b).isLE := by
  refine List.pairwise_mergeSort (fun a b c hab hbc => ?_) (fun a b => ?_) as
  · exact Std.TransCmp.isLE_trans hab hbc
  · have hswap : cmp b a = (cmp a b).swap := Std.OrientedCmp.eq_swap
    rw [Bool.or_eq_true, hswap]
    cases cmp a b <;> decide

/-- Things that an order tells apart are strictly ascending when they are sorted. -/
theorem pairwise_lt_mergeSort [Std.TransCmp cmp] {as : List α}
    (h : as.Pairwise fun a b => cmp a b ≠ .eq) :
    (as.mergeSort fun a b => (cmp a b).isLE).Pairwise fun a b => cmp a b = .lt := by
  have hsymm : ∀ {a b : α}, cmp a b ≠ .eq → cmp b a ≠ .eq := by
    intro a b hab hba
    exact hab (Std.OrientedCmp.eq_symm hba)
  have hapart : (as.mergeSort fun a b => (cmp a b).isLE).Pairwise fun a b => cmp a b ≠ .eq :=
    (List.mergeSort_perm as _).symm.pairwise h hsymm
  refine (pairwise_isLE_mergeSort as).imp₂ ?_ hapart
  intro a b hle hne
  cases hcmp : cmp a b with
  | lt => rfl
  | eq => exact absurd hcmp hne
  | gt =>
    rw [hcmp] at hle
    exact absurd hle Bool.noConfusion

/-- Strictly ascending things are different. -/
lemma nodup_of_pairwise_lt [Std.OrientedCmp cmp] {as : List α}
    (h : as.Pairwise fun a b => cmp a b = .lt) : as.Nodup := by
  refine h.imp fun {a b} hlt heq => ?_
  subst heq
  have hself : cmp a a = .eq := Std.ReflCmp.compare_self
  rw [hself] at hlt
  cases hlt

/-- **Strictly ascending lists of the same things are the same.** -/
theorem eq_of_pairwise_lt [Std.OrientedCmp cmp] {as bs : List α}
    (has : as.Pairwise fun a b => cmp a b = .lt) (hbs : bs.Pairwise fun a b => cmp a b = .lt)
    (h : ∀ a, a ∈ as ↔ a ∈ bs) : as = bs := by
  have hperm : as.Perm bs :=
    (List.perm_ext_iff_of_nodup (nodup_of_pairwise_lt has) (nodup_of_pairwise_lt hbs)).mpr h
  refine hperm.eq_of_pairwise (fun a b _ _ hab hba => ?_) has hbs
  have hswap : cmp a b = (cmp b a).swap := Std.OrientedCmp.eq_swap
  rw [hswap, hba] at hab
  cases hab

end Lockstep
