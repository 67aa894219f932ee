import Lockstep.Json.Value
import Lockstep.Record

/-!
# Keys of rows

Measured iterations are brought together in rows.  The key of a row is what its records have in
common.  Where runs are compared, the label and the number of cores are left out of it: they differ
between a run alone and a run beside others.

Keys are in a linear order, and `sortOn` brings things into the order of their keys without losing
any of them.
-/

namespace Lockstep

/-- What the records of a row have in common. -/
structure RowKey where
  label : Option String
  workload : String
  cores : Option UInt64
  core : UInt64
  offset : UInt64
  deriving DecidableEq, Repr, Inhabited, Hashable

/-- Which records are brought together. -/
inductive Grouping where
  /-- One row per label, workload, number of cores, core and offset. -/
  | run
  /-- One row per workload, core and offset. -/
  | workload
  deriving DecidableEq, Repr

namespace RowKey

/-- The key of the row that a record belongs to. -/
def ofRecord (grouping : Grouping) (r : Record) : RowKey where
  label := if grouping = .run then some r.label else none
  workload := r.workload
  cores := if grouping = .run then some r.cores else none
  core := r.core
  offset := r.offset

/-- Keys are ordered by label, workload, number of cores, core and offset.  What is left out comes
first, and text is ordered by its code points. -/
instance : Ord RowKey where
  compare :=
    compareLex (compareOn (·.label)) <| compareLex (compareOn (·.workload)) <|
      compareLex (compareOn (·.cores)) <| compareLex (compareOn (·.core)) (compareOn (·.offset))

instance : Std.TransOrd RowKey :=
  inferInstanceAs (Std.TransCmp (compareLex (compareOn RowKey.label) <|
    compareLex (compareOn RowKey.workload) <| compareLex (compareOn RowKey.cores) <|
      compareLex (compareOn RowKey.core) (compareOn RowKey.offset)))

instance : Std.LawfulEqOrd RowKey where
  eq_of_compare {a b} h := by
    have h : ((compare a.label b.label).then ((compare a.workload b.workload).then
      ((compare a.cores b.cores).then ((compare a.core b.core).then
        (compare a.offset b.offset))))) = .eq := h
    simp only [Ordering.then_eq_eq, Std.LawfulEqOrd.compare_eq_iff_eq] at h
    obtain ⟨hlabel, hworkload, hcores, hcore, hoffset⟩ := h
    cases a
    cases b
    simp_all

/-- The key as messages show it. -/
def text (key : RowKey) : String :=
  (key.label.map (· ++ " ")).getD "" ++ key.workload ++ " core" ++ key.core.toNat.repr ++
    (key.cores.map fun n => "/" ++ n.toNat.repr).getD "" ++ " offset " ++ key.offset.toNat.repr

/-- A key as a JSON value. -/
def json (key : RowKey) : Json.Value :=
  .object [("label", (key.label.map Json.Value.string).getD .null),
    ("workload", .string key.workload),
    ("cores", (key.cores.map fun n => Json.Value.natural n.toNat).getD .null),
    ("core", .natural key.core.toNat), ("offset", .natural key.offset.toNat)]

/-- Brings things that have a key into the order of their keys. -/
def sortOn {α : Type} (key : α → RowKey) (as : List α) : List α :=
  as.mergeSort fun a b => (compare (key a) (key b)).isLE

/-- Nothing gets lost, and nothing comes in. -/
theorem sortOn_perm {α : Type} (key : α → RowKey) (as : List α) : (sortOn key as).Perm as :=
  List.mergeSort_perm as _

end RowKey

end Lockstep
