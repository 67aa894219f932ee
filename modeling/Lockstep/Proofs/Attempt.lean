import Lockstep.Attempt
import Mathlib.Data.List.Forall2
import Mathlib.Tactic.Lemma

/-!
# Reasoning about attempts

Two things are said about attempts.  One is what an attempt leaves alone, even if it stops half-way:
`Attempt.Preserves`.  The other one is that an attempt succeeds, and what holds then:
`Attempt.Succeeds`.  The latter is computed from an attempt by rewriting, operation by operation;
only loops need an invariant.
-/

namespace Lockstep

/-! ### Results -/

/-- One result after the other is there if both of them are. -/
lemma bind_eq_ok {ε α β : Type} {x : Except ε α} {f : α → Except ε β} {b : β} :
    (x >>= f) = .ok b ↔ ∃ a, x = .ok a ∧ f a = .ok b := by
  cases x with
  | error cause => simp [bind, Except.bind]
  | ok a => simp [bind, Except.bind]

/-- One result after the other is missing if one of them is. -/
lemma bind_eq_error {ε α β : Type} {x : Except ε α} {f : α → Except ε β} {cause : ε} :
    (x >>= f) = .error cause ↔ x = .error cause ∨ ∃ a, x = .ok a ∧ f a = .error cause := by
  cases x with
  | error cause' => simp [bind, Except.bind]
  | ok a => simp [bind, Except.bind]

/-- A changed result is there if the result is. -/
lemma map_eq_ok {ε α β : Type} {f : α → β} {x : Except ε α} {b : β} :
    x.map f = .ok b ↔ ∃ a, x = .ok a ∧ f a = b := by
  cases x with
  | error cause => simp [Except.map]
  | ok a => simp [Except.map]

/-- A result is there if it is there without the reasons why it could be missing. -/
lemma toOption_eq_some {ε α : Type} {x : Except ε α} {a : α} : x.toOption = some a ↔ x = .ok a := by
  cases x with
  | error cause => simp [Except.toOption]
  | ok b => simp [Except.toOption]

/-- A result that is not missing is there. -/
lemma exists_eq_ok {ε α : Type} {x : Except ε α} (h : x.isOk = true) : ∃ a, x = .ok a := by
  cases x with
  | error cause => exact absurd h Bool.false_ne_true
  | ok a => exact ⟨a, rfl⟩

/-- A result is there if it is there with another fault in its place. -/
lemma mapError_eq_ok {ε ε' α : Type} {x : Except ε α} {f : ε → ε'} {a : α} :
    x.mapError f = .ok a ↔ x = .ok a := by
  constructor
  · intro h
    cases x with
    | error cause => cases h
    | ok b => exact congrArg Except.ok (Except.ok.inj h)
  · rintro rfl
    rfl

/-- A fault has taken the place of another one. -/
lemma mapError_eq_error {ε ε' α : Type} {x : Except ε α} {f : ε → ε'} {cause : ε'} :
    x.mapError f = .error cause ↔ ∃ fault, x = .error fault ∧ f fault = cause := by
  cases x with
  | error fault => simp [Except.mapError]
  | ok a => simp [Except.mapError]

/-- A changed result is missing if the result is, for the same reason. -/
lemma map_eq_error {ε α β : Type} {f : α → β} {x : Except ε α} {cause : ε} :
    x.map f = .error cause ↔ x = .error cause := by
  cases x with
  | error cause' => simp [Except.map]
  | ok a => simp [Except.map]

/-- Results are there together if each of them is, and they stand in their places then. -/
lemma mapM_eq_ok {ε α β : Type} {f : α → Except ε β} {as : List α} {bs : List β} :
    as.mapM f = .ok bs ↔ List.Forall₂ (fun a b => f a = .ok b) as bs := by
  induction as generalizing bs with
  | nil =>
    rw [List.mapM_nil, List.forall₂_nil_left_iff]
    exact ⟨fun h => (Except.ok.inj h).symm, fun h => congrArg Except.ok h.symm⟩
  | cons a as ih =>
    rw [List.mapM_cons, bind_eq_ok]
    constructor
    · rintro ⟨b, hb, h⟩
      obtain ⟨others, hothers, h⟩ := bind_eq_ok.mp h
      obtain rfl := Except.ok.inj h
      exact .cons hb (ih.mp hothers)
    · intro h
      cases h with
      | @cons _ b _ others hb hothers =>
        exact ⟨b, hb, bind_eq_ok.mpr ⟨others, ih.mpr hothers, rfl⟩⟩

/-- Results that are missing together lack one of them. -/
lemma exists_of_mapM_eq_error {ε α β : Type} {f : α → Except ε β} {as : List α} {cause : ε}
    (h : as.mapM f = .error cause) : ∃ a ∈ as, f a = .error cause := by
  induction as with
  | nil => cases h
  | cons a as ih =>
    rw [List.mapM_cons, bind_eq_error] at h
    rcases h with ha | ⟨b, -, h⟩
    · exact ⟨a, List.mem_cons_self, ha⟩
    · rcases bind_eq_error.mp h with hothers | ⟨others, -, h⟩
      · obtain ⟨x, hx, hcause⟩ := ih hothers
        exact ⟨x, List.mem_cons_of_mem a hx, hcause⟩
      · cases h

/-- Results are there together if none of them is missing. -/
lemma exists_mapM_eq_ok {ε α β : Type} {f : α → Except ε β} {as : List α}
    (h : ∀ a ∈ as, ∃ b, f a = .ok b) : ∃ bs, as.mapM f = .ok bs := by
  cases hmap : as.mapM f with
  | error cause =>
    obtain ⟨a, ha, hcause⟩ := exists_of_mapM_eq_error hmap
    obtain ⟨b, hb⟩ := h a ha
    cases hcause.symm.trans hb
  | ok bs => exact ⟨bs, rfl⟩

/-- What is among the results comes from one of the things. -/
lemma mem_iff_of_mapM_eq_ok {ε α β : Type} {f : α → Except ε β} {as : List α} {bs : List β}
    (h : as.mapM f = .ok bs) {b : β} : b ∈ bs ↔ ∃ a ∈ as, f a = .ok b := by
  have hall := mapM_eq_ok.mp h
  clear h
  induction hall with
  | nil => simp
  | @cons a c as bs hc _ ih =>
    have hfirst : b = c ↔ f a = .ok b := by rw [hc, Except.ok.injEq, eq_comm]
    simp only [List.mem_cons, exists_eq_or_imp, ih, hfirst]

/-- Results are there one by one if they are there together. -/
lemma exists_of_mapM_eq_ok {ε α β : Type} {f : α → Except ε β} {as : List α} {bs : List β}
    (h : as.mapM f = .ok bs) {a : α} (ha : a ∈ as) : ∃ b ∈ bs, f a = .ok b := by
  have hall := mapM_eq_ok.mp h
  clear h
  induction hall with
  | nil => cases ha
  | @cons c b as bs hb _ ih =>
    rcases List.mem_cons.mp ha with rfl | hrest
    · exact ⟨b, List.mem_cons_self, hb⟩
    · obtain ⟨d, hd, hok⟩ := ih hrest
      exact ⟨d, List.mem_cons_of_mem b hd, hok⟩

/-- Results that have the keys of what they come from have them in the same places. -/
lemma map_eq_of_mapM_eq_ok {ε α β κ : Type} {f : α → Except ε β} {as : List α} {bs : List β}
    (h : as.mapM f = .ok bs) {key : α → κ} {keyOf : β → κ}
    (hkey : ∀ a ∈ as, ∀ b, f a = .ok b → keyOf b = key a) : bs.map keyOf = as.map key := by
  have hall := mapM_eq_ok.mp h
  clear h
  induction hall with
  | nil => rfl
  | @cons a b as bs hb _ ih =>
    rw [List.map_cons, List.map_cons, hkey a List.mem_cons_self b hb,
      ih fun a ha => hkey a (List.mem_cons_of_mem _ ha)]

/-- A loop over the numbers below a bound ends and keeps an invariant about how many of them it has
gone through, if each of its rounds does. -/
lemma exists_foldlM_range {ε α : Type} {f : α → Nat → Except ε α} {I : Nat → α → Prop} {n : Nat}
    {a : α} (hstart : I 0 a)
    (hround : ∀ i < n, ∀ x, I i x → ∃ y, f x i = .ok y ∧ I (i + 1) y) :
    ∃ b, (List.range n).foldlM f a = .ok b ∧ I n b := by
  induction n with
  | zero => exact ⟨a, rfl, hstart⟩
  | succ n ih =>
    obtain ⟨x, hx, hI⟩ := ih fun i hi => hround i (Nat.lt_succ_of_lt hi)
    obtain ⟨y, hy, hlast⟩ := hround n (Nat.lt_succ_self n) x hI
    have hlastRound : [n].foldlM f x = .ok y := by
      rw [List.foldlM_cons, hy]
      rfl
    refine ⟨y, ?_, hlast⟩
    rw [List.range_succ, List.foldlM_append, bind_eq_ok]
    exact ⟨x, hx, hlastRound⟩

namespace Attempt

variable {σ τ α β γ : Type} {f : σ → γ}

instance : LawfulMonad (Attempt σ) := by
  refine LawfulMonad.mk' _ (fun a => ?_) (fun x next => rfl) fun a next last => ?_
  · funext s
    change (a >>= fun x => Pure.pure x).on s = a.on s
    rw [on_bind]
    rcases a.on s with ⟨_ | x, t⟩
    · rfl
    · rfl
  · funext s
    change (a >>= next >>= last).on s = (a >>= fun x => next x >>= last).on s
    rw [on_bind, on_bind, on_bind]
    rcases a.on s with ⟨_ | x, t⟩
    · rfl
    · rfl

/-- A result that is made from the one of an attempt changes nothing. -/
lemma on_bind_pure (a : Attempt σ α) (f : α → β) (s : σ) :
    (a >>= fun x => Pure.pure (f x)).on s = ((a.on s).1.map f, (a.on s).2) := by
  rw [on_bind]
  rcases a.on s with ⟨_ | x, t⟩
  · rfl
  · rfl

/-- After a change the next attempt goes on with what has changed. -/
lemma on_change_bind (g : σ → σ) (next : Unit → Attempt σ β) (s : σ) :
    (change g >>= next).on s = (next ()).on (g s) := rfl

/-- After a look the next attempt goes on with what was seen. -/
lemma on_look_bind (next : σ → Attempt σ β) (s : σ) :
    (look >>= next).on s = (next s).on s := rfl

/-- What can be computed from the state takes its place in the state. -/
lemma on_replace {compute : σ → Except Fault α} {put : α → σ → σ} {s : σ} {x : α}
    (h : compute s = .ok x) :
    (do
      let y ← take (compute (← look))
      change (put y) : Attempt σ Unit).on s = (.ok (), put x s) := by
  rw [on_look_bind, on_bind, on_take, h]
  rfl

/-! ### Attempts that leave something alone -/

/-- The attempt leaves alone what `f` looks at, even if it stops half-way. -/
def Preserves (f : σ → γ) (a : Attempt σ α) : Prop :=
  ∀ s, f (a.on s).2 = f s

/-- A result changes nothing. -/
lemma Preserves.pure (f : σ → γ) (a : α) : (Pure.pure a : Attempt σ α).Preserves f :=
  fun _ => rfl

/-- A look changes nothing. -/
lemma Preserves.look (f : σ → γ) : (Attempt.look : Attempt σ σ).Preserves f :=
  fun _ => rfl

/-- A result that was there already changes nothing. -/
lemma Preserves.take (f : σ → γ) (result : Except Fault α) :
    (Attempt.take result : Attempt σ α).Preserves f :=
  fun _ => rfl

/-- A fault changes nothing. -/
lemma Preserves.stop (f : σ → γ) (fault : Fault) :
    (Attempt.stop fault : Attempt σ α).Preserves f :=
  fun _ => rfl

/-- A change of something else leaves it alone. -/
lemma Preserves.change {g : σ → σ} (h : ∀ s, f (g s) = f s) : (Attempt.change g).Preserves f :=
  h

/-- An attempt on something else leaves it alone. -/
lemma Preserves.within {get : σ → τ} {put : τ → σ → σ} (h : ∀ t s, f (put t s) = f s)
    (a : Attempt τ α) : (a.within get put).Preserves f :=
  fun _ => h _ _

/-- Two attempts that leave it alone do so one after the other. -/
lemma Preserves.bind {a : Attempt σ α} {next : α → Attempt σ β} (ha : a.Preserves f)
    (hnext : ∀ x, (next x).Preserves f) : (a >>= next).Preserves f := by
  intro s
  have hs := ha s
  rw [on_bind]
  rcases h : a.on s with ⟨_ | x, t⟩
  · rwa [h] at hs
  · rw [h] at hs
    exact (hnext x t).trans hs

/-- A loop leaves alone what each of its rounds leaves alone. -/
lemma Preserves.forM {next : β → Attempt σ PUnit} (h : ∀ x, (next x).Preserves f) (xs : List β) :
    (xs.forM next).Preserves f := by
  induction xs with
  | nil => exact Preserves.pure f _
  | cons x xs ih => exact (h x).bind fun _ => ih

/-- A loop that collects results leaves alone what each of its rounds leaves alone. -/
lemma Preserves.mapM {next : β → Attempt σ α} (h : ∀ x, (next x).Preserves f) (xs : List β) :
    (xs.mapM next).Preserves f := by
  induction xs with
  | nil => exact Preserves.pure f _
  | cons x xs ih =>
    rw [List.mapM_cons]
    exact (h x).bind fun _ => ih.bind fun _ => Preserves.pure f _

/-- What an attempt leaves alone is there when it ends. -/
lemma Preserves.eq_of_on {a : Attempt σ α} {s t : σ} {x : Except Fault α} (ha : a.Preserves f)
    (h : a.on s = (x, t)) : f t = f s := by
  have hs := ha s
  rwa [h] at hs

/-! ### Attempts that succeed -/

/-- An attempt followed by another one succeeds if both of them do. -/
lemma on_bind_eq_ok {a : Attempt σ α} {next : α → Attempt σ β} {s t : σ} {b : β}
    (h : (a >>= next).on s = (.ok b, t)) :
    ∃ x u, a.on s = (.ok x, u) ∧ (next x).on u = (.ok b, t) := by
  rw [on_bind] at h
  rcases ha : a.on s with ⟨_ | x, u⟩
  · rw [ha] at h
    exact absurd (congrArg Prod.fst h) (by simp)
  · rw [ha] at h
    exact ⟨x, u, rfl, h⟩

/-- A loop that has collected results has related each of them to its round, if each round does. -/
lemma forall₂_of_mapM_on {R : β → α → Prop} {next : β → Attempt σ α} {xs : List β} {ys : List α}
    {s t : σ} (hR : ∀ x s y t, (next x).on s = (.ok y, t) → R x y)
    (h : (xs.mapM next).on s = (.ok ys, t)) : List.Forall₂ R xs ys := by
  induction xs generalizing s ys with
  | nil =>
    obtain ⟨rfl, -⟩ : [] = ys ∧ s = t := by simpa using h
    exact .nil
  | cons x xs ih =>
    rw [List.mapM_cons] at h
    obtain ⟨y, u, hx, h⟩ := on_bind_eq_ok h
    obtain ⟨ys', v, hxs, h⟩ := on_bind_eq_ok h
    obtain ⟨rfl, rfl⟩ : y :: ys' = ys ∧ v = t := by simpa using h
    exact .cons (hR x s y u hx) (ih hxs)

/-- The attempt succeeds on a state, and `Q` holds of its result and of the state that it leads
to. -/
def Succeeds (a : Attempt σ α) (s : σ) (Q : α → σ → Prop) : Prop :=
  ∃ x t, a.on s = (.ok x, t) ∧ Q x t

variable {a : Attempt σ α} {s : σ} {Q R : α → σ → Prop}

/-- What holds after an attempt may be weakened. -/
lemma Succeeds.mono (h : a.Succeeds s Q) (hQ : ∀ x t, Q x t → R x t) : a.Succeeds s R := by
  obtain ⟨x, t, hon, hx⟩ := h
  exact ⟨x, t, hon, hQ x t hx⟩

/-- What is known of an attempt that succeeds holds when it has succeeded. -/
lemma succeeds_iff {x : α} {t : σ} (hon : a.on s = (.ok x, t)) : a.Succeeds s Q ↔ Q x t := by
  constructor
  · rintro ⟨y, u, hon', hQ⟩
    rw [hon, Prod.mk.injEq, Except.ok.injEq] at hon'
    obtain ⟨rfl, rfl⟩ := hon'
    exact hQ
  · exact fun hQ => ⟨x, t, hon, hQ⟩

/-- Two attempts that do the same succeed with the same. -/
lemma succeeds_congr {a' : Attempt σ α} (hon : a.on s = a'.on s) :
    a.Succeeds s Q ↔ a'.Succeeds s Q := by
  rw [Succeeds, Succeeds, hon]

/-- An attempt that succeeds does not stop. -/
lemma Succeeds.ne_error {t : σ} {fault : Fault} (h : a.Succeeds s Q) :
    a.on s ≠ (.error fault, t) := by
  obtain ⟨y, u, hon, -⟩ := h
  rw [hon]
  intro heq
  cases heq

@[simp] lemma succeeds_pure {x : α} : (pure x : Attempt σ α).Succeeds s Q ↔ Q x s :=
  succeeds_iff (on_pure x s)

@[simp] lemma succeeds_look {Q : σ → σ → Prop} : (look : Attempt σ σ).Succeeds s Q ↔ Q s s :=
  succeeds_iff (on_look s)

@[simp] lemma succeeds_change {g : σ → σ} {Q : Unit → σ → Prop} :
    (change g).Succeeds s Q ↔ Q () (g s) :=
  succeeds_iff (on_change g s)

@[simp] lemma succeeds_take {x : α} : (take (.ok x) : Attempt σ α).Succeeds s Q ↔ Q x s :=
  succeeds_iff (on_take _ s)

@[simp] lemma succeeds_within {get : τ → σ} {put : σ → τ → τ} {t : τ} {Q : α → τ → Prop} :
    (a.within get put).Succeeds t Q ↔ a.Succeeds (get t) fun x u => Q x (put u t) := by
  constructor
  · rintro ⟨x, u, hon, hQ⟩
    rw [on_within, Prod.mk.injEq] at hon
    obtain ⟨hx, rfl⟩ := hon
    exact ⟨x, _, Prod.ext hx rfl, hQ⟩
  · rintro ⟨x, u, hon, hQ⟩
    refine ⟨x, put u t, ?_, hQ⟩
    rw [on_within, hon]

@[simp] lemma succeeds_bind {next : α → Attempt σ β} {Q : β → σ → Prop} :
    (a >>= next).Succeeds s Q ↔ a.Succeeds s fun x t => (next x).Succeeds t Q := by
  constructor
  · rintro ⟨y, u, hon, hQ⟩
    obtain ⟨x, t, ha, hnext⟩ := on_bind_eq_ok hon
    exact ⟨x, t, ha, y, u, hnext, hQ⟩
  · rintro ⟨x, t, ha, y, u, hnext, hQ⟩
    exact ⟨y, u, (on_bind_of_ok ha).trans hnext, hQ⟩

/-- A loop succeeds and keeps an invariant if each of its rounds does. -/
lemma succeeds_forM {I : σ → Prop} {xs : List β} {next : β → Attempt σ PUnit}
    (h : ∀ x ∈ xs, ∀ t, I t → (next x).Succeeds t fun _ u => I u) (hs : I s) :
    (xs.forM next).Succeeds s fun _ t => I t := by
  induction xs generalizing s with
  | nil => exact succeeds_pure.mpr hs
  | cons x xs ih =>
    refine succeeds_bind.mpr ((h x List.mem_cons_self s hs).mono fun _ t ht => ?_)
    exact ih (fun y hy => h y (List.mem_cons_of_mem _ hy)) ht

/-- A loop that collects results succeeds and keeps an invariant if each of its rounds does. -/
lemma succeeds_mapM {I : σ → Prop} {xs : List β} {next : β → Attempt σ α}
    (h : ∀ x ∈ xs, ∀ t, I t → (next x).Succeeds t fun _ u => I u) (hs : I s) :
    (xs.mapM next).Succeeds s fun _ t => I t := by
  induction xs generalizing s with
  | nil => exact succeeds_pure.mpr hs
  | cons x xs ih =>
    rw [List.mapM_cons]
    refine succeeds_bind.mpr ((h x List.mem_cons_self s hs).mono fun y t ht => ?_)
    refine succeeds_bind.mpr ((ih (fun y hy => h y (List.mem_cons_of_mem _ hy)) ht).mono ?_)
    exact fun ys u hu => succeeds_pure.mpr hu

/-- A loop that has gone through its list keeps an invariant about what it has gone through, if each
of its rounds does. -/
lemma succeeds_forM_done {I : List β → σ → Prop} {xs : List β} {next : β → Attempt σ PUnit}
    (done : List β)
    (h : ∀ done, ∀ x ∈ xs, ∀ t, I done t → (next x).Succeeds t fun _ u => I (x :: done) u)
    (hs : I done s) : (xs.forM next).Succeeds s fun _ t => I (xs.reverse ++ done) t := by
  induction xs generalizing done s with
  | nil => exact succeeds_pure.mpr hs
  | cons x xs ih =>
    refine succeeds_bind.mpr ((h done x List.mem_cons_self s hs).mono fun _ t ht => ?_)
    rw [List.reverse_cons, List.append_assoc, List.singleton_append]
    exact ih (x :: done) (fun done y hy => h done y (List.mem_cons_of_mem _ hy)) ht

/-- A loop that collects results relates each of them to its round, if each round does. -/
lemma succeeds_mapM_forall₂ {I : σ → Prop} {R : β → α → Prop} {xs : List β}
    {next : β → Attempt σ α}
    (h : ∀ x ∈ xs, ∀ t, I t → (next x).Succeeds t fun y u => R x y ∧ I u) (hs : I s) :
    (xs.mapM next).Succeeds s fun ys t => List.Forall₂ R xs ys ∧ I t := by
  induction xs generalizing s with
  | nil => exact succeeds_pure.mpr ⟨.nil, hs⟩
  | cons x xs ih =>
    rw [List.mapM_cons]
    refine succeeds_bind.mpr ((h x List.mem_cons_self s hs).mono fun y t ht => ?_)
    refine succeeds_bind.mpr ((ih (fun z hz => h z (List.mem_cons_of_mem _ hz)) ht.2).mono ?_)
    exact fun ys u hu => succeeds_pure.mpr ⟨.cons ht.1 hu.1, hu.2⟩

end Attempt

end Lockstep
