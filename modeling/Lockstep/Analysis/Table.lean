import Lockstep.Attempt
import Std.Data.HashMap

/-!
# Tables

Things that have a key are gathered in a hash table: what is known of a key is brought up to date
with one thing of that key after the other.

A hash table has no order that an answer may depend on.  Whoever goes through its entries meets each
of them once, in an order of which nothing else is known.
-/

namespace Lockstep

/-- An order in which entries are met, each of them once. -/
structure Visit (α : Type) where
  arrange : List α → List α
  perm : ∀ as, (arrange as).Perm as

namespace Visit

variable {α : Type}

/-- The order in which entries are listed. -/
def listed : Visit α := ⟨id, List.Perm.refl⟩

/-- The order from the last entry that is listed to the first one. -/
def reversed : Visit α := ⟨List.reverse, List.reverse_perm⟩

theorem mem_arrange (visit : Visit α) {as : List α} {a : α} : a ∈ visit.arrange as ↔ a ∈ as :=
  (visit.perm as).mem_iff

end Visit

namespace Table

variable {K V α : Type} [BEq K] [Hashable K]

/-- Brings a table up to date with things that have keys.  Of a key that is not in the table yet no
more is known than `start` says. -/
def gather (key : α → K) (start : V) (add : V → α → Except Fault V) (table : Std.HashMap K V)
    (as : List α) : Except Fault (Std.HashMap K V) :=
  as.foldlM (fun table a => do
    let known ← add (table.getD (key a) start) a
    return table.insert (key a) known) table

end Table

end Lockstep
