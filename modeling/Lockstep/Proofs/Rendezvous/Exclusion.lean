import Lockstep.Rendezvous.Lock
import Mathlib.Logic.Function.Basic
import Mathlib.Tactic.Lemma

/-!
# Locks that many share

Any number of users share one lock.  Each of them acquires and releases it as it likes, except that
it releases the lock only while it has it, after an acquisition has returned.  One user at a time
enters a call, does one access to the lock, or returns, in any order, and exchanges may fail for no
reason.

A user is inside from the exchange with which it takes the lock to the store with which it releases
it.  An exchange succeeds on a free lock only, and nobody is inside then; the store is made by the
only one who is.  So no more than one user is inside, and the lock shows whether anybody is.  That
is the invariant, `SharedLock.IsSound`, and the main statement is `SharedLock.excludes`.
-/

namespace Lockstep

/-- A call to a lock that has not returned. -/
inductive LockCall where
  | acquire (a : Acquiring)
  /-- About to store that the lock is free. -/
  | release
  deriving DecidableEq, Repr

/-- Someone who uses a lock. -/
structure LockUser where
  /-- An exchange of the user has succeeded, and the user has not stored since that the lock is
  free. -/
  isInside : Bool := false
  /-- The call that the user is in the middle of. -/
  call : Option LockCall := none
  deriving DecidableEq, Repr

/-- A lock and those who use it. -/
structure SharedLock (T : Type) where
  lock : RoundLock
  users : T → LockUser

/-- Whose turn it is, and what is up to chance in it. -/
structure LockTurn (T : Type) where
  user : T
  /-- The call that the user enters if it is in the middle of none: a release, or else an
  acquisition. -/
  releases : Bool := false
  /-- The exchange fails for no reason, if there is one. -/
  spurious : Bool := false
  deriving DecidableEq, Repr

namespace LockUser

/-- The next step of a user.  Between two calls it enters another one; a release is left out unless
the user has the lock. -/
def step (releases spurious : Bool) (lock : RoundLock) (u : LockUser) : RoundLock × LockUser :=
  match u.call with
  | none =>
    if releases then (lock, if u.isInside then { u with call := some .release } else u)
    else (lock, { u with call := some (.acquire .exchange) })
  | some (.acquire .held) => (lock, { u with call := none })
  | some (.acquire a) =>
    let r := a.step spurious lock
    (r.1, { isInside := u.isInside || decide (r.2 = .held), call := some (.acquire r.2) })
  | some .release => (lock.release, {})

/-- The user is in the middle of an acquisition and does not hold the lock yet. -/
def IsWaiting (u : LockUser) : Prop :=
  ∃ a, u.call = some (.acquire a) ∧ a ≠ .held

/-- A user releases the lock only while it has it. -/
def IsFair (u : LockUser) : Prop :=
  u.call = some .release → u.isInside = true

variable {u : LockUser} {lock : RoundLock}

/-- The next step of a user that acquires the lock. -/
lemma step_of_acquire {a : Acquiring} (hcall : u.call = some (.acquire a)) (ha : a ≠ .held)
    (releases spurious : Bool) :
    u.step releases spurious lock = ((a.step spurious lock).1,
      { isInside := u.isInside || decide ((a.step spurious lock).2 = .held)
        call := some (.acquire (a.step spurious lock).2) }) := by
  unfold step
  rw [hcall]
  cases a with
  | exchange => rfl
  | watch => rfl
  | held => exact absurd rfl ha

/-- **One step** leaves the lock and the user's place as they are, or takes a lock that is free, or
releases one that the user has. -/
lemma step_cases (hfair : u.IsFair) (releases spurious : Bool) (lock : RoundLock) :
    (u.step releases spurious lock).2.IsFair ∧
      (((u.step releases spurious lock).1 = lock ∧
          (u.step releases spurious lock).2.isInside = u.isInside) ∨
        (lock.isLocked = false ∧ (u.step releases spurious lock).1.isLocked = true ∧
          (u.step releases spurious lock).2.isInside = true) ∨
        (u.isInside = true ∧ (u.step releases spurious lock).1.isLocked = false ∧
          (u.step releases spurious lock).2.isInside = false)) := by
  obtain ⟨isInside, call⟩ := u
  rcases call with _ | ⟨a⟩ | _
  · cases releases with
    | false => exact ⟨nofun, Or.inl ⟨rfl, rfl⟩⟩
    | true =>
      cases isInside with
      | false => exact ⟨nofun, Or.inl ⟨rfl, rfl⟩⟩
      | true => exact ⟨fun _ => rfl, Or.inl ⟨rfl, rfl⟩⟩
  · by_cases ha : a = .held
    · subst ha
      exact ⟨nofun, Or.inl ⟨rfl, rfl⟩⟩
    · rw [step_of_acquire rfl ha]
      refine ⟨nofun, ?_⟩
      rcases Acquiring.step_cases ha spurious lock with ⟨hfree, h⟩ | ⟨hlock, hheld⟩
      · rw [h]
        exact Or.inr (Or.inl ⟨hfree, rfl, Bool.or_true _⟩)
      · rw [decide_eq_false hheld]
        exact Or.inl ⟨hlock, Bool.or_false _⟩
  · exact ⟨nofun, Or.inr (Or.inr ⟨hfair rfl, rfl, rfl⟩)⟩

end LockUser

namespace SharedLock

variable {T : Type}

/-- A free lock that nobody has used. -/
def idle (T : Type) : SharedLock T where
  lock := {}
  users := fun _ => {}

/-- The user is between taking and releasing the lock. -/
def IsInside (s : SharedLock T) (i : T) : Prop :=
  (s.users i).isInside = true

/-- The user is in the middle of an acquisition and does not hold the lock yet. -/
def IsWaiting (s : SharedLock T) (i : T) : Prop :=
  (s.users i).IsWaiting

/-- What holds between two steps. -/
structure IsSound (s : SharedLock T) : Prop where
  fair : ∀ i, (s.users i).IsFair
  alone : ∀ i j, s.IsInside i → s.IsInside j → i = j
  locked_iff : s.lock.isLocked = true ↔ ∃ i, s.IsInside i

lemma not_isInside_idle (i : T) : ¬ (idle T).IsInside i :=
  Bool.false_ne_true

lemma isSound_idle : (idle T).IsSound := by
  refine ⟨?_, fun i _ hi => absurd hi (not_isInside_idle i), ?_⟩
  · intro i hcall
    exact absurd hcall (Option.some_ne_none _).symm
  · exact ⟨fun hlocked => absurd hlocked Bool.false_ne_true,
      fun ⟨i, hi⟩ => absurd hi (not_isInside_idle i)⟩

variable [DecidableEq T] {s : SharedLock T}

/-- One step of one user. -/
def step (s : SharedLock T) (turn : LockTurn T) : SharedLock T :=
  let r := (s.users turn.user).step turn.releases turn.spurious s.lock
  ⟨r.1, Function.update s.users turn.user r.2⟩

/-- The state that steps in the given order lead to. -/
def follow (s : SharedLock T) (turns : List (LockTurn T)) : SharedLock T :=
  turns.foldl step s

/-- The user whose turn it was. -/
lemma users_step_self (s : SharedLock T) (turn : LockTurn T) :
    (s.step turn).users turn.user =
      ((s.users turn.user).step turn.releases turn.spurious s.lock).2 :=
  Function.update_self ..

/-- All other users stay where they are. -/
lemma users_step_of_ne {turn : LockTurn T} {i : T} (h : i ≠ turn.user) :
    (s.step turn).users i = s.users i :=
  Function.update_of_ne h ..

/-- Who else is inside. -/
lemma isInside_step_of_ne {turn : LockTurn T} {i : T} (h : i ≠ turn.user) :
    (s.step turn).IsInside i ↔ s.IsInside i := by
  unfold IsInside
  rw [users_step_of_ne h]

/-- **One step keeps the lock sound.** -/
lemma IsSound.step (h : s.IsSound) (turn : LockTurn T) : (s.step turn).IsSound := by
  obtain ⟨hfair, hcases⟩ :=
    LockUser.step_cases (h.fair turn.user) turn.releases turn.spurious s.lock
  rw [← users_step_self] at hfair hcases
  have hfairs : ∀ i, ((s.step turn).users i).IsFair := by
    intro i
    by_cases hi : i = turn.user
    · subst hi
      exact hfair
    · rw [users_step_of_ne hi]
      exact h.fair i
  rcases hcases with ⟨hlock, hsame⟩ | ⟨hfree, hlocked, hinside⟩ | ⟨hinside, hfree, houtside⟩
  · have hall : ∀ i, (s.step turn).IsInside i ↔ s.IsInside i := by
      intro i
      by_cases hi : i = turn.user
      · subst hi
        unfold IsInside
        rw [hsame]
      · exact isInside_step_of_ne hi
    refine ⟨hfairs, fun i j hi hj => h.alone i j ((hall i).mp hi) ((hall j).mp hj), ?_⟩
    simp only [hall, ← h.locked_iff]
    exact iff_of_eq (congrArg (·.isLocked = true) hlock)
  · -- Nobody was inside, since the lock was free.
    have honly : ∀ i, (s.step turn).IsInside i → i = turn.user := by
      intro i hi
      by_contra hne
      have hlocked' := h.locked_iff.mpr ⟨i, (isInside_step_of_ne hne).mp hi⟩
      exact absurd (hfree.symm.trans hlocked') Bool.false_ne_true
    refine ⟨hfairs, fun i j hi hj => (honly i hi).trans (honly j hj).symm, ?_⟩
    exact ⟨fun _ => ⟨turn.user, hinside⟩, fun _ => hlocked⟩
  · -- Nobody else was inside, so that nobody is now.
    have hnone : ∀ i, ¬ (s.step turn).IsInside i := by
      intro i hi
      by_cases hne : i = turn.user
      · subst hne
        exact absurd (houtside.symm.trans hi) Bool.false_ne_true
      · exact hne (h.alone i turn.user ((isInside_step_of_ne hne).mp hi) hinside)
    refine ⟨hfairs, fun i _ hi => absurd hi (hnone i), ?_⟩
    exact ⟨fun hlocked => absurd (hfree.symm.trans hlocked) Bool.false_ne_true,
      fun ⟨i, hi⟩ => absurd hi (hnone i)⟩

/-- **A run keeps the lock sound.** -/
lemma IsSound.follow (h : s.IsSound) (turns : List (LockTurn T)) : (s.follow turns).IsSound := by
  induction turns generalizing s with
  | nil => exact h
  | cons turn turns ih => exact ih (h.step turn)

/-! ### Going in -/

/-- A user that is about to exchange takes a free lock and returns, if it is left alone and the
exchange does not fail for no reason. -/
lemma users_follow_of_exchange {i : T} (hfree : s.lock.isLocked = false)
    (hcall : (s.users i).call = some (.acquire .exchange)) :
    (s.follow [{ user := i }, { user := i }]).users i = { isInside := true } := by
  have htake : (s.users i).step false false s.lock =
      (⟨true⟩, { isInside := true, call := some (.acquire .held) }) := by
    rw [LockUser.step_of_acquire hcall (by decide)]
    unfold Acquiring.step
    rw [if_pos ⟨hfree, rfl⟩]
    exact congrArg (fun b => (_, LockUser.mk b _)) (Bool.or_true _)
  have htaken : (s.step { user := i }).users i =
      { isInside := true, call := some (.acquire .held) } := by
    rw [users_step_self s { user := i }]
    exact congrArg Prod.snd htake
  change ((s.step { user := i }).step { user := i }).users i = _
  rw [users_step_self (s.step { user := i }) { user := i }, htaken]
  rfl

/-- **Who waits for a free lock can go in**, within three of its own steps. -/
lemma exists_entering {i : T} (hfree : s.lock.isLocked = false) (hwaits : s.IsWaiting i) :
    ∃ own : List (LockTurn T), (∀ turn ∈ own, turn.user = i) ∧ own.length ≤ 3 ∧
      (s.follow own).users i = { isInside := true } := by
  obtain ⟨a, hcall, ha⟩ := hwaits
  cases a with
  | exchange =>
    exact ⟨[{ user := i }, { user := i }], by simp, by simp,
      users_follow_of_exchange hfree hcall⟩
  | watch =>
    -- The user sees that the lock is free, and then it exchanges.
    have hwatch : (s.users i).step false false s.lock =
        (s.lock, { s.users i with call := some (.acquire .exchange) }) := by
      rw [LockUser.step_of_acquire hcall (by decide)]
      unfold Acquiring.step
      rw [hfree]
      exact congrArg (fun b => (_, LockUser.mk b _)) (Bool.or_false _)
    have hlock : (s.step { user := i }).lock.isLocked = false := by
      change ((s.users i).step false false s.lock).1.isLocked = false
      rw [hwatch]
      exact hfree
    have hnext : ((s.step { user := i }).users i).call = some (.acquire .exchange) := by
      rw [users_step_self s { user := i }]
      exact congrArg (fun r => r.2.call) hwatch
    exact ⟨[{ user := i }, { user := i }, { user := i }], by simp, by simp,
      users_follow_of_exchange hlock hnext⟩
  | held => exact absurd rfl ha

/-- **The lock excludes.**  In every run of any number of users no more than one of them is inside,
and the lock is held exactly if one is.  Whenever the lock is free, each user that waits for it can
go in and return from its acquisition, by steps of its own. -/
theorem excludes (T : Type) [DecidableEq T] (turns : List (LockTurn T)) :
    let s := (idle T).follow turns
    (∀ i j, s.IsInside i → s.IsInside j → i = j) ∧
    (s.lock.isLocked = true ↔ ∃ i, s.IsInside i) ∧
    (s.lock.isLocked = false → ∀ i, s.IsWaiting i →
      ∃ own : List (LockTurn T), (∀ turn ∈ own, turn.user = i) ∧ own.length ≤ 3 ∧
        (s.follow own).users i = { isInside := true }) := by
  intro s
  have hsound : s.IsSound := isSound_idle.follow turns
  exact ⟨hsound.alone, hsound.locked_iff, fun hfree _ => exists_entering hfree⟩

/-- One user goes in and out again while another one tries in vain, first because its exchange fails
for no reason and then because the lock is held. -/
def contended : List (LockTurn Nat) :=
  [{ user := 7 }, { user := 3 }, { user := 3, spurious := true }, { user := 3 }, { user := 7 },
    { user := 3 }, { user := 7 }, { user := 7, releases := true }, { user := 7 }]

/-- The other one can go in then. -/
theorem excludes_of_contended :
    ((idle Nat).follow contended).lock.isLocked = false ∧
    ((idle Nat).follow contended).IsWaiting 3 ∧
    ∃ own : List (LockTurn Nat), (∀ turn ∈ own, turn.user = 3) ∧
      ((idle Nat).follow (contended ++ own)).users 3 = { isInside := true } := by
  have hfree : ((idle Nat).follow contended).lock.isLocked = false := by decide
  have hwaits : ((idle Nat).follow contended).IsWaiting 3 := ⟨.watch, by decide, by decide⟩
  obtain ⟨own, hown, -, hinside⟩ := (excludes Nat contended).2.2 hfree 3 hwaits
  refine ⟨hfree, hwaits, own, hown, ?_⟩
  unfold follow at hinside ⊢
  rw [List.foldl_append]
  exact hinside

end SharedLock

end Lockstep
