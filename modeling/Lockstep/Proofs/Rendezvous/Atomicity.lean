import Lockstep.Rendezvous.Flag
import Mathlib.Logic.Function.Basic
import Mathlib.Tactic.Lemma

/-!
# Flags that many write

Any number of users write and read one flag.  One user at a time enters a call, does one access to
the flag, or returns, in any order, and exchanges may fail for no reason.  Everything that happens
is noted as an event, in the order in which it happens.

A write looks at the flag, exchanges in vain as often as it happens to, exchanges with success once
and returns; a read looks at the flag once and returns.  So the events of one user are whole calls
(`FlagEvent.IsWhole`), one after the other, and the beginning of the call that it is in the middle
of.  Only an exchange with success changes the flag, whatever the user has seen before, and the flag
is at all times what a cell would be that takes the writes in the order of these exchanges.  The
main statement is `SharedFlag.linearizes`.
-/

namespace Lockstep

/-- What a user may do with a flag. -/
inductive FlagCall where
  | write (value : Bool)
  | read
  deriving DecidableEq, Repr

/-- Where a user of a flag stands. -/
inductive FlagUse where
  /-- In the middle of no call. -/
  | away
  | writing (value : Bool) (w : Writing)
  /-- About to look at the flag for a read. -/
  | reading
  /-- About to return what it has seen. -/
  | seen (value : Bool)
  deriving DecidableEq, Repr

/-- What may happen to the user of a flag. -/
inductive FlagEvent where
  | called (call : FlagCall)
  /-- A write has looked at the flag before its first exchange. -/
  | looked
  /-- An exchange has failed. -/
  | failed
  /-- An exchange has succeeded, so that the write takes effect. -/
  | landed (value : Bool)
  /-- A read has looked at the flag. -/
  | saw (value : Bool)
  /-- A write has returned the number of exchanges that failed, as far as thirty-two bits tell. -/
  | wrote (failures : UInt32)
  /-- A read has returned. -/
  | answered (value : Bool)
  deriving DecidableEq, Repr

/-- A flag, those who use it, and what has happened so far. -/
structure SharedFlag (T : Type) where
  flag : Bool
  uses : T → FlagUse
  events : List (T × FlagEvent)

/-- Whose turn it is, and what is open in it. -/
structure FlagTurn (T : Type) where
  user : T
  /-- The call that the user enters if it is in the middle of none. -/
  call : FlagCall := .read
  /-- The exchange fails for no reason, if there is one. -/
  spurious : Bool := false
  deriving DecidableEq, Repr

/-! ### The calls of one user -/

namespace FlagEvent

/-- The events of a call from its beginning to its return.  A write takes effect once in between,
with the value that it was called with; a read looks at the flag once in between and returns what it
saw. -/
inductive IsWhole : List FlagEvent → Prop where
  | write (value : Bool) (failures : Nat) (answer : UInt32)
      (htold : failures < UInt32.size → answer.toNat = failures) :
      IsWhole (called (.write value) :: looked ::
        (List.replicate failures failed ++ [landed value, wrote answer]))
  | read (value : Bool) : IsWhole [called .read, saw value, answered value]

/-- The events of whole calls one after the other, and of another one that has not returned. -/
def IsHistory (events : List FlagEvent) : Prop :=
  ∃ (calls : List (List FlagEvent)) (begun rest : List FlagEvent),
    events = calls.flatten ++ begun ∧ (∀ call ∈ calls, IsWhole call) ∧
      rest ≠ [] ∧ IsWhole (begun ++ rest)

/-- The event of an access in the course of a write. -/
def ofAccess (value : Bool) : Writing → Writing → FlagEvent
  | _, .landed _ => landed value
  | .look, _ => looked
  | _, _ => failed

/-- What a cell holds after an event: the value of a write that takes effect, and otherwise what it
held before. -/
def onCell (cell : Bool) : FlagEvent → Bool
  | landed value => value
  | _ => cell

end FlagEvent

namespace FlagUse

open FlagEvent

/-- The beginning of a call. -/
def ofCall : FlagCall → FlagUse
  | .write value => writing value .look
  | .read => reading

/-- The next step of a user, and what happens in it. -/
def step (call : FlagCall) (spurious flag : Bool) : FlagUse → Bool × FlagUse × FlagEvent
  | away => (flag, ofCall call, called call)
  | writing _ (.landed failures) => (flag, away, wrote (UInt32.ofNat failures))
  | writing value w =>
    let r := w.step value spurious flag
    (r.1, writing value r.2, ofAccess value w r.2)
  | reading => (flag, seen flag, saw flag)
  | seen value => (flag, away, answered value)

/-- The events so far of the call that a user is in the middle of. -/
def begun : FlagUse → List FlagEvent
  | away => []
  | writing value .look => [called (.write value)]
  | writing value (.exchange _ failures) =>
    called (.write value) :: looked :: List.replicate failures failed
  | writing value (.landed failures) =>
    called (.write value) :: looked :: (List.replicate failures failed ++ [landed value])
  | reading => [called .read]
  | seen value => [called .read, saw value]

/-- A write that has landed is whole once it returns. -/
lemma isWhole_of_landed (value : Bool) (failures : Nat) :
    IsWhole ((writing value (.landed failures)).begun ++ [wrote (UInt32.ofNat failures)]) := by
  have htold : failures < UInt32.size → (UInt32.ofNat failures).toNat = failures :=
    UInt32.toNat_ofNat_of_lt
  simpa [begun] using IsWhole.write value failures _ htold

/-- Each call that has begun can come to its end. -/
lemma exists_isWhole_begun (use : FlagUse) : ∃ rest, rest ≠ [] ∧ IsWhole (use.begun ++ rest) := by
  have hnext : ∀ value failures, ∃ rest, rest ≠ [] ∧
      IsWhole (called (.write value) :: looked :: (List.replicate failures failed ++ rest)) :=
    fun value failures => ⟨[landed value, wrote (UInt32.ofNat failures)], List.cons_ne_nil _ _,
      IsWhole.write value failures _ UInt32.toNat_ofNat_of_lt⟩
  cases use with
  | away => exact ⟨_, List.cons_ne_nil _ _, IsWhole.read false⟩
  | writing value w =>
    cases w with
    | look =>
      obtain ⟨rest, -, hwhole⟩ := hnext value 0
      exact ⟨looked :: rest, List.cons_ne_nil _ _, hwhole⟩
    | exchange _ failures => exact hnext value failures
    | landed failures => exact ⟨_, List.cons_ne_nil _ _, isWhole_of_landed value failures⟩
  | reading => exact ⟨[saw false, answered false], List.cons_ne_nil _ _, IsWhole.read false⟩
  | seen value => exact ⟨[answered value], List.cons_ne_nil _ _, IsWhole.read value⟩

/-- An exchange lands the write, or it leaves the flag as it is and what it has seen is seen. -/
lemma step_of_exchange (call : FlagCall) (spurious flag value observed : Bool) (failures : Nat) :
    (writing value (.exchange observed failures)).step call spurious flag =
        (value, writing value (.landed failures), landed value) ∨
      (writing value (.exchange observed failures)).step call spurious flag =
        (flag, writing value (.exchange flag (failures + 1)), failed) := by
  by_cases h : flag = observed ∧ spurious = false
  · left
    unfold step
    simp only [Writing.step, if_pos h]
    rfl
  · right
    unfold step
    simp only [Writing.step, if_neg h]
    rfl

/-- **One step** goes on with a call or returns from it. -/
lemma step_begun (call : FlagCall) (spurious flag : Bool) (use : FlagUse) :
    (use.step call spurious flag).2.1.begun = use.begun ++ [(use.step call spurious flag).2.2] ∨
      ((use.step call spurious flag).2.1 = away ∧
        IsWhole (use.begun ++ [(use.step call spurious flag).2.2])) := by
  cases use with
  | away =>
    left
    cases call with
    | write value => rfl
    | read => rfl
  | writing value w =>
    cases w with
    | look => exact Or.inl rfl
    | exchange observed failures =>
      left
      rcases step_of_exchange call spurious flag value observed failures with h | h
      · rw [h]
        rfl
      · -- The exchange joins those that failed before it.
        rw [h]
        change called (.write value) :: looked :: List.replicate (failures + 1) failed = _
        rw [List.replicate_succ']
        rfl
    | landed failures => exact Or.inr ⟨rfl, isWhole_of_landed value failures⟩
  | reading => exact Or.inl rfl
  | seen value => exact Or.inr ⟨rfl, IsWhole.read value⟩

/-- The flag changes as a cell would. -/
lemma step_flag (call : FlagCall) (spurious flag : Bool) (use : FlagUse) :
    (use.step call spurious flag).1 = (use.step call spurious flag).2.2.onCell flag := by
  cases use with
  | writing value w =>
    cases w with
    | exchange observed failures =>
      rcases step_of_exchange call spurious flag value observed failures with h | h
      · rw [h]
        rfl
      · rw [h]
        rfl
    | look => rfl
    | landed failures => rfl
  | away => rfl
  | reading => rfl
  | seen value => rfl

/-- A read sees the flag as it is. -/
lemma eq_of_step_saw {call : FlagCall} {spurious flag value : Bool} {use : FlagUse}
    (h : (use.step call spurious flag).2.2 = saw value) : value = flag := by
  cases use with
  | reading => exact (FlagEvent.saw.inj h).symm
  | writing written w =>
    cases w with
    | exchange observed failures =>
      rcases step_of_exchange call spurious flag written observed failures with hstep | hstep
      · rw [hstep] at h
        exact FlagEvent.noConfusion h
      · rw [hstep] at h
        exact FlagEvent.noConfusion h
    | look => exact FlagEvent.noConfusion h
    | landed failures => exact FlagEvent.noConfusion h
  | away => exact FlagEvent.noConfusion h
  | seen _ => exact FlagEvent.noConfusion h

end FlagUse

/-! ### The calls of all users -/

namespace SharedFlag

open FlagEvent

variable {T : Type}

/-- A flag that nobody has used. -/
def ofInitial (T : Type) (initial : Bool) : SharedFlag T where
  flag := initial
  uses := fun _ => .away
  events := []

/-- What a cell holds after events. -/
def cellAfter (initial : Bool) (events : List (T × FlagEvent)) : Bool :=
  events.foldl (fun cell e => e.2.onCell cell) initial

lemma cellAfter_concat (initial : Bool) (events : List (T × FlagEvent)) (e : T × FlagEvent) :
    cellAfter initial (events ++ [e]) = e.2.onCell (cellAfter initial events) := by
  unfold cellAfter
  rw [List.foldl_append]
  rfl

/-- Every read saw what a cell would have held then. -/
def ReadsCell (initial : Bool) (events : List (T × FlagEvent)) : Prop :=
  ∀ n i value, events[n]? = some (i, saw value) → value = cellAfter initial (events.take n)

lemma ReadsCell.concat {initial : Bool} {events : List (T × FlagEvent)} {e : T × FlagEvent}
    (h : ReadsCell initial events)
    (he : ∀ value, e.2 = saw value → value = cellAfter initial events) :
    ReadsCell initial (events ++ [e]) := by
  intro n i value hn
  rcases Nat.lt_trichotomy n events.length with hlt | rfl | hgt
  · rw [List.getElem?_append_left hlt] at hn
    rw [List.take_append_of_le_length (Nat.le_of_lt hlt)]
    exact h n i value hn
  · rw [List.getElem?_concat_length] at hn
    rw [List.take_left]
    exact he value (congrArg Prod.snd (Option.some.inj hn))
  · have hlen : (events ++ [e]).length ≤ n := by
      rw [List.length_append]
      exact hgt
    exact absurd ((List.getElem?_eq_none hlen).symm.trans hn) (Option.some_ne_none _).symm

variable [DecidableEq T] {s : SharedFlag T}

/-- One step of one user. -/
def step (s : SharedFlag T) (turn : FlagTurn T) : SharedFlag T :=
  let r := (s.uses turn.user).step turn.call turn.spurious s.flag
  ⟨r.1, Function.update s.uses turn.user r.2.1, s.events ++ [(turn.user, r.2.2)]⟩

/-- The state that steps in the given order lead to. -/
def follow (s : SharedFlag T) (turns : List (FlagTurn T)) : SharedFlag T :=
  turns.foldl step s

/-- What has happened to a user. -/
def eventsOf (s : SharedFlag T) (i : T) : List FlagEvent :=
  (s.events.filter (·.1 = i)).map (·.2)

/-- The events of a user are whole calls and what has begun. -/
def IsOrderly (s : SharedFlag T) (i : T) : Prop :=
  ∃ calls : List (List FlagEvent), s.eventsOf i = calls.flatten ++ (s.uses i).begun ∧
    ∀ call ∈ calls, IsWhole call

lemma IsOrderly.isHistory {i : T} (h : s.IsOrderly i) : IsHistory (s.eventsOf i) := by
  obtain ⟨calls, hevents, hwhole⟩ := h
  obtain ⟨rest, hrest, hend⟩ := (s.uses i).exists_isWhole_begun
  exact ⟨calls, (s.uses i).begun, rest, hevents, hwhole, hrest, hend⟩

/-- Nothing happens to those whose turn it is not. -/
lemma isOrderly_step_of_ne {i : T} {turn : FlagTurn T} (hi : i ≠ turn.user) :
    (s.step turn).IsOrderly i ↔ s.IsOrderly i := by
  have hevents : (s.step turn).eventsOf i = s.eventsOf i := by
    simp [eventsOf, step, hi.symm]
  have huse : (s.step turn).uses i = s.uses i := Function.update_of_ne hi ..
  unfold IsOrderly
  rw [hevents, huse]

lemma eventsOf_step_self (s : SharedFlag T) (turn : FlagTurn T) :
    (s.step turn).eventsOf turn.user = s.eventsOf turn.user ++
      [((s.uses turn.user).step turn.call turn.spurious s.flag).2.2] := by
  simp [eventsOf, step]

lemma uses_step_self (s : SharedFlag T) (turn : FlagTurn T) :
    (s.step turn).uses turn.user =
      ((s.uses turn.user).step turn.call turn.spurious s.flag).2.1 :=
  Function.update_self ..

lemma IsOrderly.step {turn : FlagTurn T} (h : s.IsOrderly turn.user) :
    (s.step turn).IsOrderly turn.user := by
  obtain ⟨calls, hevents, hwhole⟩ := h
  unfold IsOrderly
  rw [eventsOf_step_self, uses_step_self, hevents, List.append_assoc]
  rcases (s.uses turn.user).step_begun turn.call turn.spurious s.flag with hmore | ⟨haway, hend⟩
  · rw [← hmore]
    exact ⟨calls, rfl, hwhole⟩
  · -- The call joins those that have returned.
    have hall := List.forall_mem_append.mpr ⟨hwhole, List.forall_mem_singleton.mpr hend⟩
    refine ⟨_, ?_, hall⟩
    rw [haway, List.flatten_append, List.flatten_singleton]
    exact (List.append_nil _).symm

/-- What holds between two steps. -/
structure IsSound (initial : Bool) (s : SharedFlag T) : Prop where
  orderly : ∀ i, s.IsOrderly i
  reads : ReadsCell initial s.events
  flag_eq : s.flag = cellAfter initial s.events

lemma isSound_ofInitial (initial : Bool) : (ofInitial T initial).IsSound initial where
  orderly := fun _ => ⟨[], rfl, List.forall_mem_nil _⟩
  reads := fun _ _ _ hn => absurd hn.symm (Option.some_ne_none _)
  flag_eq := rfl

/-- **One step keeps the flag sound.** -/
lemma IsSound.step {initial : Bool} (h : s.IsSound initial) (turn : FlagTurn T) :
    (s.step turn).IsSound initial where
  orderly := by
    intro i
    by_cases hi : i = turn.user
    · subst hi
      exact (h.orderly turn.user).step
    · exact (isOrderly_step_of_ne hi).mpr (h.orderly i)
  reads := h.reads.concat fun _ hsaw => (FlagUse.eq_of_step_saw hsaw).trans h.flag_eq
  flag_eq := by
    unfold SharedFlag.step
    rw [cellAfter_concat, ← h.flag_eq]
    exact FlagUse.step_flag ..

/-- **A run keeps the flag sound.** -/
lemma IsSound.follow {initial : Bool} (h : s.IsSound initial) (turns : List (FlagTurn T)) :
    (s.follow turns).IsSound initial := by
  induction turns generalizing s with
  | nil => exact h
  | cons turn turns ih => exact ih (h.step turn)

/-! ### Returning -/

/-- The user comes to the end of its call within that many steps of its own. -/
def ReturnsWithin (n : Nat) (i : T) (s : SharedFlag T) : Prop :=
  ∃ own : List (FlagTurn T), (∀ turn ∈ own, turn.user = i) ∧ own.length ≤ n ∧
    (s.follow own).uses i = .away

/-- What a step of a user comes to, if its exchange does not fail for no reason. -/
lemma step_alone {i : T} {flag : Bool} {use : FlagUse} {event : FlagEvent}
    (h : (s.uses i).step .read false s.flag = (flag, use, event)) :
    (s.step { user := i }).flag = flag ∧ (s.step { user := i }).uses i = use := by
  constructor
  · exact congrArg Prod.fst h
  · rw [uses_step_self s { user := i }]
    exact congrArg (fun r => r.2.1) h

lemma ReturnsWithin.of_step {n : Nat} {i : T} (h : (s.step { user := i }).ReturnsWithin n i) :
    s.ReturnsWithin (n + 1) i := by
  obtain ⟨own, hown, hlength, haway⟩ := h
  exact ⟨{ user := i } :: own, List.forall_mem_cons.mpr ⟨rfl, hown⟩, Nat.succ_le_succ hlength,
    haway⟩

lemma ReturnsWithin.mono {n m : Nat} {i : T} (h : s.ReturnsWithin n i) (hle : n ≤ m) :
    s.ReturnsWithin m i := by
  obtain ⟨own, hown, hlength, haway⟩ := h
  exact ⟨own, hown, Nat.le_trans hlength hle, haway⟩

lemma returnsWithin_of_away {i : T} (h : s.uses i = .away) : s.ReturnsWithin 0 i :=
  ⟨[], List.forall_mem_nil _, Nat.le_refl 0, h⟩

lemma returnsWithin_of_seen {i : T} {value : Bool} (h : s.uses i = .seen value) :
    s.ReturnsWithin 1 i := by
  have hreturn : (s.uses i).step .read false s.flag = (s.flag, .away, answered value) := by
    rw [h]
    rfl
  exact (returnsWithin_of_away (step_alone hreturn).2).of_step

lemma returnsWithin_of_landed {i : T} {value : Bool} {failures : Nat}
    (h : s.uses i = .writing value (.landed failures)) : s.ReturnsWithin 1 i := by
  have hreturn : (s.uses i).step .read false s.flag =
      (s.flag, .away, wrote (UInt32.ofNat failures)) := by
    rw [h]
    rfl
  exact (returnsWithin_of_away (step_alone hreturn).2).of_step

/-- An exchange for what the flag holds succeeds. -/
lemma returnsWithin_of_exchange {i : T} {value : Bool} {failures : Nat}
    (h : s.uses i = .writing value (.exchange s.flag failures)) : s.ReturnsWithin 2 i := by
  have hland : (s.uses i).step .read false s.flag =
      (value, .writing value (.landed failures), landed value) := by
    rw [h]
    simp [FlagUse.step, Writing.step, ofAccess]
  exact (returnsWithin_of_landed (step_alone hland).2).of_step

/-- **Who is left alone returns**, within three steps. -/
lemma returnsWithin_three (s : SharedFlag T) (i : T) : s.ReturnsWithin 3 i := by
  -- What a write has just seen is what the flag holds, as nobody else takes a step.
  have hexchange : ∀ {value : Bool} {failures : Nat} {event : FlagEvent},
      (s.uses i).step .read false s.flag =
        (s.flag, .writing value (.exchange s.flag failures), event) → s.ReturnsWithin 3 i := by
    intro value failures event hstep
    obtain ⟨hflag, hnext⟩ := step_alone hstep
    rw [← hflag] at hnext
    exact (returnsWithin_of_exchange hnext).of_step
  cases huse : s.uses i with
  | away => exact (returnsWithin_of_away huse).mono (by decide)
  | writing value w =>
    cases w with
    | look =>
      apply hexchange
      rw [huse]
      rfl
    | exchange observed failures =>
      have hstep := FlagUse.step_of_exchange .read false s.flag value observed failures
      rw [← huse] at hstep
      rcases hstep with hland | hfail
      · exact (returnsWithin_of_landed (step_alone hland).2).of_step.mono (by decide)
      · exact hexchange hfail
    | landed failures => exact (returnsWithin_of_landed huse).mono (by decide)
  | reading =>
    have hlook : (s.uses i).step .read false s.flag = (s.flag, .seen s.flag, saw s.flag) := by
      rw [huse]
      rfl
    exact (returnsWithin_of_seen (step_alone hlook).2).of_step.mono (by decide)
  | seen value => exact (returnsWithin_of_seen huse).mono (by decide)

/-- **A cell explains the flag.**  In every run of any number of users each write that returns has
taken effect once, between its call and its return, and returns the number of exchanges of it that
failed; each read returns what it saw between its call and its return, which is what a cell held
then that took the writes one after the other; and that is what the flag holds.  Whoever is left
alone comes to the end of its call. -/
theorem linearizes (T : Type) [DecidableEq T] (initial : Bool) (turns : List (FlagTurn T)) :
    let s := (ofInitial T initial).follow turns
    (∀ i, IsHistory (s.eventsOf i)) ∧
    (∀ n i value, s.events[n]? = some (i, saw value) →
      value = cellAfter initial (s.events.take n)) ∧
    s.flag = cellAfter initial s.events ∧ ∀ i, s.ReturnsWithin 3 i := by
  intro s
  have hsound : s.IsSound initial := (isSound_ofInitial initial).follow turns
  exact ⟨fun i => (hsound.orderly i).isHistory, hsound.reads, hsound.flag_eq,
    s.returnsWithin_three⟩

/-- A write looks at the flag, which another user then raises and lowers again: each of its
exchanges fails until there is nobody left to interfere, the last of them for no reason. -/
def contended : List (FlagTurn Nat) :=
  [{ user := 1, call := .write true }, { user := 1 },
    { user := 2, call := .write true }, { user := 2 }, { user := 2 }, { user := 1 }, { user := 2 },
    { user := 2, call := .write false }, { user := 2 }, { user := 2 }, { user := 1 },
    { user := 1, spurious := true }, { user := 1 },
    { user := 3, call := .read }, { user := 3 }, { user := 1 }, { user := 3 }]

/-- The write lands after all, and it is what a later read sees. -/
theorem linearizes_of_contended :
    let s := (ofInitial Nat false).follow contended
    s.eventsOf 1 =
      [called (.write true), looked, failed, failed, failed, landed true, wrote 3] ∧
    IsHistory (s.eventsOf 1) ∧
    s.events[14]? = some (3, saw true) ∧ true = cellAfter false (s.events.take 14) := by
  obtain ⟨hhistory, hreads, -, -⟩ := linearizes Nat false contended
  exact ⟨by decide, hhistory 1, by decide, hreads 14 3 true (by decide)⟩

end SharedFlag

end Lockstep
