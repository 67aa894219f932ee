import Lockstep.Proofs.Sink.Failures

/-!
# Failures that are seen in the end

A failure is still there when the writer is given up if the bytes at which the device has failed are
collected and the device does not take them later: then no other bytes get past them
(`Buffered.IsJammed`).  Bytes that fill the buffer alone are not collected, and a failure at them is
forgotten (`Buffered.exists_start_of_put`).

The main statement, `Buffered.taken_closing`, says what a device has taken when the writer is given
up without a failure, whatever the device has done before.
-/

namespace Lockstep

variable {D : Type} [Device D]

/-! ### Devices that do not recover -/

/-- The device takes none of the bytes. -/
def Device.Refuses (device : D) (bytes : List UInt8) : Prop :=
  ∀ n, (Device.write bytes device).1 ≠ .ok (n + 1)

/-- A device does not recover: where it has taken none of some bytes it is stuck at them, and then
it takes none of these or of any that begin with them, whatever happens. -/
structure Device.StaysStuck (stuck : D → List UInt8 → Prop) : Prop where
  of_refuses : ∀ {device : D} {bytes : List UInt8}, bytes ≠ [] → Device.Refuses device bytes →
    stuck (Device.write bytes device).2 bytes
  write : ∀ {device : D} {bytes : List UInt8}, stuck device bytes → ∀ more,
    Device.Refuses device (bytes ++ more) ∧
      stuck (Device.write (bytes ++ more) device).2 bytes
  flush : ∀ {device : D} {bytes : List UInt8}, stuck device bytes →
    stuck (Device.flush device).2 bytes

/-- The store has no room for the bytes. -/
def Store.HasNoRoom (s : Store) (bytes : List UInt8) : Prop :=
  s.isFull bytes.length = true

/-- A store that has no room for bytes says so and stays as it is. -/
lemma Store.write_of_hasNoRoom {s : Store} {bytes : List UInt8} (h : s.HasNoRoom bytes) :
    Device.write bytes s = (.error "disk full", s) :=
  if_pos h

/-- A store takes none of the bytes that it has no room for. -/
lemma Store.HasNoRoom.refuses {s : Store} {bytes : List UInt8} (h : s.HasNoRoom bytes) :
    Device.Refuses s bytes := by
  intro n
  rw [write_of_hasNoRoom h]
  exact nofun

/-- What begins with bytes that a store has no room for has no room either. -/
lemma Store.HasNoRoom.append {s : Store} {bytes : List UInt8} (h : s.HasNoRoom bytes)
    (more : List UInt8) : s.HasNoRoom (bytes ++ more) := by
  unfold HasNoRoom isFull at h ⊢
  cases hlimit : s.limit with
  | none => rw [hlimit] at h; cases h
  | some limit =>
    rw [hlimit] at h
    simp only [decide_eq_true_eq, List.length_append] at h ⊢
    omega

/-- A store does not grow: it does not recover. -/
lemma Store.staysStuck : Device.StaysStuck Store.HasNoRoom where
  of_refuses := by
    intro s bytes hne hrefuses
    by_cases hfull : s.HasNoRoom bytes
    · rwa [write_of_hasNoRoom hfull]
    · obtain ⟨b, rest, rfl⟩ := List.exists_cons_of_ne_nil hne
      have hwrite : Device.write (b :: rest) s =
          (.ok (b :: rest).length, { s with content := s.content ++ (b :: rest) }) := if_neg hfull
      exact absurd (congrArg Prod.fst hwrite) (hrefuses rest.length)
  write := by
    intro s bytes hfull more
    refine ⟨(hfull.append more).refuses, ?_⟩
    rwa [write_of_hasNoRoom (hfull.append more)]
  flush := fun h => h

/-- A device that remembers what it has taken takes what the device takes. -/
lemma Tapped.refuses_iff {t : Tapped D} {bytes : List UInt8} :
    Device.Refuses t bytes ↔ Device.Refuses t.device bytes := by
  rw [Device.Refuses, Device.Refuses, (t.write_eq bytes).1]

/-- A device that remembers what it has taken recovers no more than the device does. -/
lemma Tapped.staysStuck {stuck : D → List UInt8 → Prop} (h : Device.StaysStuck stuck) :
    Device.StaysStuck fun (t : Tapped D) bytes => stuck t.device bytes where
  of_refuses := by
    intro t bytes hne hrefuses
    rw [(t.write_eq bytes).2]
    exact h.of_refuses hne (refuses_iff.mp hrefuses)
  write := by
    intro t bytes hstuck more
    rw [refuses_iff, (t.write_eq _).2]
    exact h.write hstuck more
  flush := h.flush

namespace Json

/-- Characters that stand for themselves are one run. -/
lemma runs_replicate {c : Char} (hc : isPlain c = true) (n : Nat) :
    runs (List.replicate (n + 1) c) = [List.replicate (n + 1) c] := by
  induction n with
  | zero => rw [List.replicate_one, runs, if_pos hc, runs]
  | succ n ih =>
    rw [List.replicate_succ, runs, if_pos hc, ih, List.replicate_succ]
    exact if_pos hc

/-- Characters that stand for themselves are written as they are. -/
lemma flatMap_escaped_replicate {c : Char} (hc : isPlain c = true) (n : Nat) :
    (List.replicate n c).flatMap escaped = List.replicate n c := by
  have hescaped : escaped c = [c] := by simpa [isPlain] using hc
  rw [List.flatMap_replicate, hescaped]
  simp

end Json

namespace Buffered

/-! ### Bytes that do not get past others -/

section Stuck

variable {stuck : D → List UInt8 → Prop}

/-- What is collected begins with bytes at which the device is stuck. -/
def IsJammed (stuck : D → List UInt8 → Prop) (w : Buffered D) : Prop :=
  ∃ front, front ≠ [] ∧ front <+: w.pending.toList ∧ stuck w.device front

/-- A device that fails is stuck at what is left over. -/
lemma stuck_of_handOn (h : Device.StaysStuck stuck) {reason reason' : String} (device : D)
    (bytes : List UInt8) (herror : (handOn reason device bytes).1 = .error reason') :
    stuck (handOn reason device bytes).2.2 (handOn reason device bytes).2.1 := by
  fun_induction handOn reason device bytes with
  | case1 device => cases herror
  | case2 device b rest reason' device' heq =>
    have hrefuses : Device.Refuses device (b :: rest) := fun n => by simp [heq]
    have hstuck := h.of_refuses (List.cons_ne_nil b rest) hrefuses
    rwa [heq] at hstuck
  | case3 device b rest device' heq =>
    have hrefuses : Device.Refuses device (b :: rest) := fun n => by simp [heq]
    have hstuck := h.of_refuses (List.cons_ne_nil b rest) hrefuses
    rwa [heq] at hstuck
  | case4 device b rest n device' heq ih => exact ih herror

/-- Bytes of which a device takes none cannot be handed on. -/
lemma handOn_of_refuses {device : D} {bytes : List UInt8} (hne : bytes ≠ [])
    (hrefuses : Device.Refuses device bytes) (reason : String) :
    (handOn reason device bytes).1 ≠ .ok () := by
  obtain ⟨b, rest, rfl⟩ := List.exists_cons_of_ne_nil hne
  rw [handOn]
  split
  · simp
  · simp
  · rename_i n device' heq
    exact absurd (congrArg Prod.fst heq) (hrefuses n)

/-- When handing on what is collected fails, the device is stuck at it. -/
lemma isJammed_of_drain (h : Device.StaysStuck stuck) {w w' : Buffered D} {reason : String}
    (hdrain : w.drain = (.error reason, w')) : w'.IsJammed stuck := by
  have herror : w.drain.1 = .error reason := congrArg Prod.fst hdrain
  obtain rfl : w.drain.2 = w' := congrArg Prod.snd hdrain
  refine ⟨w.drain.2.pending.toList, ?_, List.prefix_rfl, stuck_of_handOn h _ _ herror⟩
  rw [ne_eq, ← drain_eq_ok_iff, herror]
  simp

/-- What is collected behind bytes at which the device is stuck cannot be handed on. -/
lemma IsJammed.drain (h : Device.StaysStuck stuck) {w : Buffered D} (hw : w.IsJammed stuck) :
    ∃ reason w', w.drain = (.error reason, w') ∧ w'.IsJammed stuck := by
  obtain ⟨front, hne, ⟨more, hmore⟩, hstuck⟩ := hw
  have hdrain : w.drain.1 ≠ .ok () := by
    refine handOn_of_refuses ?_ (hmore ▸ (h.write hstuck more).1) _
    rw [← hmore]
    exact List.append_ne_nil_of_left_ne_nil hne more
  rcases hdrained : w.drain with ⟨reason | ⟨⟨⟩⟩, w'⟩
  · exact ⟨reason, w', rfl, isJammed_of_drain h hdrained⟩
  · rw [hdrained] at hdrain
    exact absurd rfl hdrain

/-- Bytes that are put do not get past others at which the device is stuck. -/
lemma IsJammed.put (h : Device.StaysStuck stuck) {w : Buffered D} (hw : w.IsJammed stuck)
    (bytes : List UInt8) : (w.put bytes).2.IsJammed stuck := by
  obtain ⟨reason, w', hjammed, hw'⟩ := hw.drain h
  generalize hput : w.put bytes = result
  cases hput ▸ w.puts_put bytes with
  | behind hroom hsmall =>
    obtain ⟨front, hne, hfront, hstuck⟩ := hw
    refine ⟨front, hne, ?_, hstuck⟩
    have happend : (w.pending ++ bytes).toList = w.pending.toList ++ bytes := by simp
    rw [happend]
    exact hfront.trans (List.prefix_append _ _)
  | after hdrain hsmall => cases hjammed.symm.trans hdrain
  | out hdrain hne => exact isJammed_of_drain h hdrain
  | through hdrain hlarge => cases hjammed.symm.trans hdrain

/-- Bytes that do not fill the buffer alone can be put, or they stay behind others at which the
device is stuck. -/
lemma put_eq_ok_or_isJammed (h : Device.StaysStuck stuck) (w : Buffered D) {bytes : List UInt8}
    (hsmall : bytes.length < capacity) :
    (w.put bytes).1 = .ok () ∨ (w.put bytes).2.IsJammed stuck := by
  generalize hput : w.put bytes = result
  cases hput ▸ w.puts_put bytes with
  | behind hroom hsmall => exact .inl rfl
  | after hdrain hsmall => exact .inl rfl
  | out hdrain hne => exact .inr (isJammed_of_drain h hdrain)
  | through hdrain hlarge => exact absurd hsmall (Nat.not_lt.mpr hlarge)

/-- Pieces do not get past bytes at which the device is stuck. -/
lemma IsJammed.putAll (h : Device.StaysStuck stuck) {w : Buffered D} (hw : w.IsJammed stuck)
    (pieces : List (List UInt8)) : (putAll pieces w).2.IsJammed stuck := by
  induction pieces generalizing w with
  | nil => exact hw
  | cons piece pieces ih =>
    have hput := hw.put h piece
    rw [Buffered.putAll]
    rcases hpiece : w.put piece with ⟨reason | ⟨⟨⟩⟩, w'⟩
    · rwa [hpiece] at hput
    · rw [hpiece] at hput
      exact ih hput

/-- Pieces that do not fill the buffer alone can be written, or some of them stay behind bytes at
which the device is stuck. -/
lemma putAll_eq_ok_or_isJammed (h : Device.StaysStuck stuck) (w : Buffered D)
    {pieces : List (List UInt8)} (hsmall : ∀ piece ∈ pieces, piece.length < capacity) :
    (putAll pieces w).1 = .ok () ∨ (putAll pieces w).2.IsJammed stuck := by
  induction pieces generalizing w with
  | nil => exact .inl rfl
  | cons piece pieces ih =>
    obtain ⟨hpiece, hothers⟩ := List.forall_mem_cons.mp hsmall
    have hput := put_eq_ok_or_isJammed h w hpiece
    rw [putAll]
    rcases hresult : w.put piece with ⟨reason | ⟨⟨⟩⟩, w'⟩
    · rw [hresult] at hput
      exact .inr (hput.resolve_left (by simp))
    · exact ih w' hothers

/-- Nothing that is asked for helps where the device is stuck. -/
lemma IsJammed.perform (h : Device.StaysStuck stuck) {w : Buffered D} (hw : w.IsJammed stuck)
    (request : Request) : (request.perform w).2.IsJammed stuck := by
  cases request with
  | emit r => exact hw.putAll h (r.linePieces.map Text.encode)
  | settle =>
    obtain ⟨reason, w', hdrain, hw'⟩ := hw.drain h
    rw [Request.perform, settle, flush, hdrain]
    exact hw'

/-- Nothing that is asked for one after the other helps where the device is stuck. -/
lemma IsJammed.serve (h : Device.StaysStuck stuck) {w : Buffered D} (hw : w.IsJammed stuck)
    (requests : List Request) : (serve requests w).2.IsJammed stuck := by
  induction requests generalizing w with
  | nil => exact hw
  | cons request requests ih => exact ih (hw.perform h request)

/-- No piece of the record's line fills the buffer alone. -/
def IsSmall (r : Record) : Prop :=
  ∀ piece ∈ r.linePieces, (Text.encode piece).length < capacity

/-- Nothing is told about small records, or some bytes stay behind others at which the device is
stuck. -/
lemma accounts_or_isJammed (h : Device.StaysStuck stuck) (w : Buffered D) {requests : List Request}
    (hsmall : ∀ r ∈ requests.filterMap Request.record?, IsSmall r) :
    (∀ account ∈ accounts requests w, account.2 = []) ∨ (serve requests w).2.IsJammed stuck := by
  induction requests generalizing w with
  | nil => exact .inl nofun
  | cons request requests ih =>
    cases request with
    | emit r =>
      obtain ⟨hr, hothers⟩ := List.forall_mem_cons.mp hsmall
      have hpieces : ∀ piece ∈ r.linePieces.map Text.encode, piece.length < capacity :=
        List.forall_mem_map.mpr hr
      rcases putAll_eq_ok_or_isJammed h w hpieces with hok | hjammed
      · have htold : (w.emit r).1 = [] := (notices_eq_nil_iff _ _).mpr hok
        exact (ih (w.emit r).2 hothers).imp_left fun hall =>
          List.forall_mem_cons.mpr ⟨htold, hall⟩
      · have hw : (w.emit r).2.IsJammed stuck := hjammed
        exact .inr (hw.serve h requests)
    | settle => exact ih w.settle.2 hsmall

/-- A writer cannot be given up without a failure where the device is stuck. -/
lemma IsJammed.close (h : Device.StaysStuck stuck) {w : Buffered D} (hw : w.IsJammed stuck) :
    w.close.1 ≠ .ok () := by
  obtain ⟨reason, w', hdrain, -⟩ := hw.drain h
  rw [Buffered.close, hdrain]
  simp

end Stuck

/-! ### Giving up the writer -/

/-- **What was written when a writer is given up without a failure.**  Whatever the device has done,
it has taken a part of each line, one behind the other, and the part is the whole line exactly if
nothing was told about the record.  So it has taken all lines if and only if nothing was told about
any record.  This is so if the device does not recover and no piece fills the buffer alone. -/
theorem taken_closing (device : D) (requests : List Request)
    (h : (closing device requests).1 = .ok ()) :
    (∃ parts, (closing device requests).2.taken = parts.flatten ∧
      List.Forall₂ (fun account part => IsKept (account.2 = []) (lineBytes [account.1]) part)
        (told device requests) parts) ∧
    ((closing device requests).2.taken = lineBytes (requests.filterMap Request.record?) ↔
      ∀ account ∈ told device requests, account.2 = []) ∧
    ∀ stuck : D → List UInt8 → Prop, Device.StaysStuck stuck →
      (∀ r ∈ requests.filterMap Request.record?, IsSmall r) →
      (closing device requests).2.taken = lineBytes (requests.filterMap Request.record?) := by
  refine ⟨exists_parts_closing h, taken_closing_eq_iff h, fun stuck hstuck hsmall => ?_⟩
  have hstays := Tapped.staysStuck hstuck
  have hjammed := accounts_or_isJammed hstays (start (Tapped.start device)) hsmall
  exact (taken_closing_eq_iff h).mpr (hjammed.resolve_right fun hw => hw.close hstays h)

/-- A device that fails some times and then takes everything. -/
structure Hesitant where
  failures : Nat

instance : Device Hesitant where
  write bytes device :=
    match device.failures with
    | 0 => (.ok bytes.length, device)
    | n + 1 => (.error "not yet", ⟨n⟩)
  flush device := (.ok (), device)

/-- A store that has room for a few lines. -/
def smallStore : Store :=
  { limit := some 1000 }

/-- A record that does not fill the buffer. -/
def smallRecord : Record where
  label := "\n"
  workload := "bsort"
  cores := 1
  core := 0
  iteration := 1
  offset := 0
  cycles := 7
  events := [⟨⟨3⟩, ⟨0x17⟩, 1⟩]

/-- A device that fails when somebody first makes sure of the records, and a store. -/
theorem taken_closing_of_smallRecord :
    (closing (⟨1⟩ : Hesitant) [.emit smallRecord, .settle, .emit smallRecord]).1 = .ok () ∧
    (closing (⟨1⟩ : Hesitant) [.emit smallRecord, .settle, .emit smallRecord]).2.taken =
      lineBytes [smallRecord, smallRecord] ∧
    (closing smallStore [.emit smallRecord, .settle]).1 = .ok () ∧
    (closing smallStore [.emit smallRecord, .settle]).2.taken = lineBytes [smallRecord] := by
  have hhesitant :
      (closing (⟨1⟩ : Hesitant) [.emit smallRecord, .settle, .emit smallRecord]).1 = .ok () := by
    decide +kernel
  have hstore : (closing smallStore [.emit smallRecord, .settle]).1 = .ok () := by decide +kernel
  have hsmall : IsSmall smallRecord := by unfold IsSmall; decide +kernel
  refine ⟨hhesitant, (taken_closing _ _ hhesitant).2.1.mpr (by decide +kernel), hstore,
    (taken_closing _ _ hstore).2.2 Store.HasNoRoom Store.staysStuck fun r hr => ?_⟩
  obtain rfl := List.mem_singleton.mp hr
  exact hsmall

/-! ### Failures that are forgotten -/

/-- Pieces are written as the first ones and then the others, if the first ones can be written. -/
lemma putAll_append {w w' : Buffered D} {pieces : List (List UInt8)}
    (h : putAll pieces w = (.ok (), w')) (others : List (List UInt8)) :
    putAll (pieces ++ others) w = putAll others w' := by
  induction pieces generalizing w with
  | nil =>
    obtain rfl : w = w' := congrArg Prod.snd h
    rfl
  | cons piece pieces ih =>
    rw [putAll] at h
    rw [List.cons_append, putAll]
    rcases hpiece : w.put piece with ⟨reason | ⟨⟨⟩⟩, u⟩
    · rw [hpiece] at h
      cases h
    · rw [hpiece] at h
      exact ih h

/-- A writer that has collected nothing can always be given up without a failure. -/
lemma close_start (device : D) : (start device).close = (.ok (), device) := by
  rw [close, drain, start, handOn]

/-- A failure at bytes that fill the buffer alone is forgotten: nothing is collected afterwards. -/
lemma exists_start_of_put {w : Buffered D} {bytes : List UInt8} {device : D}
    (hdrain : w.drain = (.ok (), start device)) (hlarge : capacity ≤ bytes.length)
    (hrefuses : Device.Refuses device bytes) :
    ∃ reason device', w.put bytes = (.error reason, start device') := by
  have hne : bytes ≠ [] := List.ne_nil_of_length_pos (Nat.lt_of_lt_of_le (by decide) hlarge)
  generalize hput : w.put bytes = result
  cases hput ▸ w.puts_put bytes with
  | behind hroom hsmall => exact absurd hsmall (Nat.not_lt.mpr hlarge)
  | after hdrain' hsmall => exact absurd hsmall (Nat.not_lt.mpr hlarge)
  | out hdrain' hne' => cases hdrain.symm.trans hdrain'
  | @through device' hdrain' _ =>
    obtain rfl : device = device' := by
      rw [hdrain] at hdrain'
      exact congrArg (·.2.device) hdrain'
    have herror := handOn_of_refuses hne hrefuses "failed to write whole buffer"
    rcases hhanded : (handOn "failed to write whole buffer" device bytes).1 with reason | ⟨⟨⟩⟩
    · exact ⟨reason, _, rfl⟩
    · exact absurd hhanded herror

/-- A label that fills the buffer alone. -/
def longLabel : List Char :=
  List.replicate capacity 'a'

/-- A record with this label. -/
def longRecord : Record where
  label := String.ofList longLabel
  workload := "bsort"
  cores := 1
  core := 0
  iteration := 1
  offset := 0
  cycles := 7
  events := []

/-- The pieces before the label. -/
def piecesBefore : List (List Char) :=
  [['\x7b'], ['"'], "label".toList, ['"'], [':'], ['"']]

/-- The label is a piece of its own. -/
lemma exists_linePieces_longRecord :
    ∃ others, longRecord.linePieces = piecesBefore ++ longLabel :: others := by
  have hlabel : Json.stringPieces longRecord.label = ['"'] :: longLabel :: [['"']] := by
    have hruns : Json.runs longLabel = [longLabel] := Json.runs_replicate (by decide) 8191
    have hplain : longLabel.flatMap Json.escaped = longLabel :=
      Json.flatMap_escaped_replicate (by decide) capacity
    rw [Json.stringPieces, longRecord, String.toList_ofList, hruns, List.map_singleton, hplain]
    rfl
  have hname : Json.stringPieces "label" = [['"'], "label".toList, ['"']] := by decide
  simp only [Record.linePieces, Record.json, Json.Value.pieces, Json.Value.memberPieces, hname,
    hlabel]
  exact ⟨_, rfl⟩

/-- A record whose line is not finished is told about when it is written and forgotten when the
writer is given up. -/
theorem closing_forgets_longRecord :
    (closing smallStore [.emit longRecord]).1 = .ok () ∧
      (closing smallStore [.emit longRecord]).2.taken ≠ lineBytes [longRecord] := by
  obtain ⟨others, hpieces⟩ := exists_linePieces_longRecord
  let front := piecesBefore.flatMap Text.encode
  let filled : Tapped Store := ⟨front, { smallStore with content := front.toArray }⟩
  have hbefore : putAll (piecesBefore.map Text.encode) (start (Tapped.start smallStore)) =
      (.ok (), ⟨front.toArray, Tapped.start smallStore⟩) := rfl
  have hdrain : drain ⟨front.toArray, Tapped.start smallStore⟩ = (.ok (), start filled) := by
    have hhanded : handOn "failed to write the buffered data" (Tapped.start smallStore) front =
        (.ok (), [], filled) := by
      have hfront : front = 0x7b :: front.tail := rfl
      have hwrite : Device.write (0x7b :: front.tail) (Tapped.start smallStore) =
          (.ok 10, filled) := rfl
      have hrest : front.tail.drop 9 = [] := rfl
      rw [hfront, handOn, hwrite]
      simp only [hrest]
      rw [handOn]
    rw [drain, hhanded]
    rfl
  have hlength : (Text.encode longLabel).length = capacity := by
    have hbyte : String.utf8EncodeChar 'a' = [0x61] := by decide
    rw [Text.encode, longLabel, List.flatMap_replicate, hbyte, List.length_flatten,
      List.map_replicate, List.sum_replicate_nat, List.length_singleton, Nat.mul_one]
  have hfull : filled.device.HasNoRoom (Text.encode longLabel) := by
    rw [Store.HasNoRoom, hlength]
    decide
  obtain ⟨reason, device, hput⟩ := exists_start_of_put hdrain (Nat.le_of_eq hlength.symm)
    (Tapped.refuses_iff.mpr hfull.refuses)
  have hemit : (start (Tapped.start smallStore)).emit longRecord =
      (notices "write record" (.error reason), start device) := by
    rw [emit, writeRecord, hpieces, List.map_append, putAll_append hbefore, List.map_cons, putAll,
      hput]
  have hok : (closing smallStore [.emit longRecord]).1 = .ok () := by
    rw [closing, serve, serve, Request.perform, hemit, close_start]
  refine ⟨hok, fun hall => ?_⟩
  have hnone := (taken_closing_eq_iff hok).mp hall
    (longRecord, notices "write record" (.error reason))
  rw [told, accounts, Request.perform, hemit] at hnone
  exact absurd (hnone (List.mem_cons_self)) (List.cons_ne_nil _ _)

end Buffered

end Lockstep
