import Lockstep.Analysis.Table
import Lockstep.Proofs.Attempt

/-!
# What a table has gathered

Gathering keeps the keys apart.  What a table knows of a key in the end is what comes out if nothing
but the things of that key are gone through (`Table.Gathered`), and gathering only stops half-way if
it does so for the things of one key alone.
-/

namespace Lockstep

namespace Table

/-! ### The things of a key -/

section Own

variable {K α : Type} [DecidableEq K] {key : α → K} {as : List α} {a : α} {k : K}

/-- The things of a key, in the order in which they come. -/
def own (key : α → K) (k : K) (as : List α) : List α :=
  as.filter fun a => key a = k

@[simp] lemma mem_own : a ∈ own key k as ↔ a ∈ as ∧ key a = k := by
  rw [own, List.mem_filter, decide_eq_true_eq]

lemma own_append (as bs : List α) : own key k (as ++ bs) = own key k as ++ own key k bs :=
  List.filter_append ..

/-- One more thing of a key comes after the others. -/
lemma own_concat_self : own key (key a) (as ++ [a]) = own key (key a) as ++ [a] := by
  rw [own_append]
  congr 1
  exact List.filter_eq_self.mpr (by simp)

/-- One more thing of another key does not matter. -/
lemma own_concat_of_ne (h : key a ≠ k) : own key k (as ++ [a]) = own key k as := by
  rw [own_append]
  have hnone : own key k [a] = [] := List.filter_eq_nil_iff.mpr (by simpa using h)
  rw [hnone, List.append_nil]

/-- The same things in another order are the same things of each key in another order. -/
lemma own_perm {bs : List α} (h : as.Perm bs) (k : K) : (own key k as).Perm (own key k bs) :=
  h.filter _

/-- As many things have a key as the key occurs among the keys of all things. -/
lemma length_own (key : α → K) (k : K) (as : List α) :
    (own key k as).length = (as.map key).count k := by
  rw [own, ← List.countP_eq_length_filter, List.count, List.countP_map]
  refine List.countP_congr fun a _ => ?_
  rw [Function.comp_apply, beq_iff_eq, decide_eq_true_eq]

end Own

/-! ### Gathering -/

variable {K V α : Type} [DecidableEq K] [Hashable K] {key : α → K} {start : V}
  {add : V → α → Except Fault V} {table : Std.HashMap K V} {as bs : List α} {a : α}

/-- What a table knows when it has gathered things: nothing of a key that none of them has, and of
every other key what its own things come to. -/
structure Gathered (key : α → K) (start : V) (add : V → α → Except Fault V) (as : List α)
    (table : Std.HashMap K V) : Prop where
  /-- The things of each key come to something. -/
  comes : ∀ k, ∃ v, (own key k as).foldlM add start = .ok v
  knows : ∀ k v, table[k]? = some v ↔
    own key k as ≠ [] ∧ (own key k as).foldlM add start = .ok v

/-- An empty table has gathered nothing. -/
lemma gathered_nil (key : α → K) (start : V) (add : V → α → Except Fault V) :
    Gathered key start add [] (∅ : Std.HashMap K V) := by
  refine ⟨fun k => ⟨start, rfl⟩, fun k v => ?_⟩
  simp [own]

/-- What is known of a key before one more thing of it comes. -/
lemma Gathered.getD (h : Gathered key start add as table) (k : K) :
    (own key k as).foldlM add start = .ok (table.getD k start) := by
  rw [Std.HashMap.getD_eq_getD_getElem?]
  obtain ⟨v, hv⟩ := h.comes k
  by_cases hnil : own key k as = []
  · have hnone : table[k]? = none := by
      rw [Option.eq_none_iff_forall_ne_some]
      intro w hw
      exact ((h.knows k w).mp hw).1 hnil
    rw [hnone, hnil]
    rfl
  · rw [(h.knows k v).mpr ⟨hnil, hv⟩]
    exact hv

/-- What the things of a key come to with one more of them. -/
lemma Gathered.foldlM_concat (h : Gathered key start add as table) (a : α) :
    (own key (key a) (as ++ [a])).foldlM add start = add (table.getD (key a) start) a := by
  rw [own_concat_self, List.foldlM_append, h.getD]
  change add (table.getD (key a) start) a >>= Except.ok = _
  cases add (table.getD (key a) start) a with
  | error fault => rfl
  | ok v => rfl

/-- A thing of a key changes what is known of this key alone. -/
lemma Gathered.insert (h : Gathered key start add as table) {v : V}
    (hv : add (table.getD (key a) start) a = .ok v) :
    Gathered key start add (as ++ [a]) (table.insert (key a) v) := by
  have hself : (own key (key a) (as ++ [a])).foldlM add start = .ok v :=
    (h.foldlM_concat a).trans hv
  constructor
  · intro k
    by_cases hk : key a = k
    · subst hk
      exact ⟨v, hself⟩
    · rw [own_concat_of_ne hk]
      exact h.comes k
  · intro k w
    rw [Std.HashMap.getElem?_insert]
    by_cases hk : key a = k
    · subst hk
      have hmem : a ∈ own key (key a) (as ++ [a]) := by simp
      rw [if_pos (beq_self_eq_true _), hself, Option.some.injEq, Except.ok.injEq]
      exact ⟨fun hw => ⟨List.ne_nil_of_mem hmem, hw⟩, And.right⟩
    · rw [if_neg (by simpa using hk), own_concat_of_ne hk]
      exact h.knows k w

lemma gather_cons (key : α → K) (start : V) (add : V → α → Except Fault V)
    (table : Std.HashMap K V) (a : α) (as : List α) :
    gather key start add table (a :: as) = add (table.getD (key a) start) a >>= fun v =>
      gather key start add (table.insert (key a) v) as := by
  rw [gather, List.foldlM_cons]
  cases add (table.getD (key a) start) a with
  | error fault => rfl
  | ok v => rfl

/-- Gathering goes on where it was interrupted. -/
lemma gather_append (key : α → K) (start : V) (add : V → α → Except Fault V)
    (table : Std.HashMap K V) (as bs : List α) :
    gather key start add table (as ++ bs) =
      gather key start add table as >>= fun table => gather key start add table bs :=
  List.foldlM_append

/-- A table that goes on gathering knows what it has gathered, or the things of some key do not come
to anything. -/
lemma Gathered.gather (h : Gathered key start add as table) (bs : List α) :
    (∃ table', gather key start add table bs = .ok table' ∧
        Gathered key start add (as ++ bs) table') ∨
      ∃ fault k, gather key start add table bs = .error fault ∧
        (own key k (as ++ bs)).foldlM add start = .error fault := by
  -- what was gathered before grows by each thing that is still to come
  induction bs generalizing as table with
  | nil =>
    rw [List.append_nil]
    exact Or.inl ⟨table, rfl, h⟩
  | cons b bs ih =>
    rw [gather_cons, ← List.singleton_append, ← List.append_assoc]
    cases hadd : add (table.getD (key b) start) b with
    | error fault =>
      refine Or.inr ⟨fault, key b, rfl, ?_⟩
      rw [own_append, List.foldlM_append, h.foldlM_concat, hadd]
      rfl
    | ok v => exact ih (h.insert hadd)

/-- **Gathering goes key by key.**  It succeeds if the things of each key come to something, and
what is known of a key then is what its own things come to. -/
theorem gather_cases (key : α → K) (start : V) (add : V → α → Except Fault V) (as : List α) :
    (∃ table, gather key start add ∅ as = .ok table ∧ Gathered key start add as table) ∨
      ∃ fault k, gather key start add ∅ as = .error fault ∧
        (own key k as).foldlM add start = .error fault :=
  (gathered_nil key start add).gather as

/-! ### Going through a table -/

/-- The entries of a table that a visit meets are what the table knows. -/
lemma mem_arrange_toList (visit : Visit (K × V)) (table : Std.HashMap K V) (entry : K × V) :
    entry ∈ visit.arrange table.toList ↔ table[entry.1]? = some entry.2 := by
  rw [visit.mem_arrange, ← Std.HashMap.mem_toList_iff_getElem?_eq_some]

/-- A visit meets no key twice. -/
lemma pairwise_arrange_toList [Ord K] [Std.TransOrd K] [Std.LawfulEqOrd K] (visit : Visit (K × V))
    (table : Std.HashMap K V) :
    (visit.arrange table.toList).Pairwise fun x y => compare x.1 y.1 ≠ .eq := by
  have hlisted : table.toList.Pairwise fun x y => compare x.1 y.1 ≠ .eq := by
    refine table.distinct_keys_toList.imp fun {x y} hne heq => ?_
    rw [Std.LawfulEqOrd.compare_eq_iff_eq.mp heq, beq_self_eq_true] at hne
    cases hne
  exact (visit.perm _).symm.pairwise hlisted fun hne heq => hne (Std.OrientedCmp.eq_symm heq)

end Table

end Lockstep
