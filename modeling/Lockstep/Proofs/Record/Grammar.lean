import Lockstep.Proofs.Attempt
import Lockstep.Proofs.Text.Numeral
import Lockstep.Proofs.Text.Words
import Lockstep.Record.Line
import Mathlib.Data.List.Infix

/-!
# The grammar of record lines

A line holds a record if its marker is followed by the words that spell the record: seven keys with
their values in a fixed order, then up to four groups of words, each of which spells an event
reading.  Numbers are written as numerals, so they may have a plus sign and zeros in front.

`IsAfterFirst`, `Text.Splits` and `Spells` say this without saying how a line is gone through.  The
lemmas follow the reader and show of each of its parts that it accepts exactly what its own piece of
the grammar allows.  The main statement, `Record.accepts_grammar`, puts them together.
-/

namespace Lockstep.Record

/-! ### The first marker -/

/-- The rest of a line follows the first occurrence of a text in it. -/
def IsAfterFirst (sought line rest : List Char) : Prop :=
  ∃ before, line = before ++ (sought ++ rest) ∧
    ∀ before' rest', line = before' ++ (sought ++ rest') → before.length ≤ before'.length

/-- **What follows the first occurrence of a text** is found, and nothing else is. -/
theorem afterFirst?_eq_some_iff {sought line rest : List Char} :
    afterFirst? sought line = some rest ↔ IsAfterFirst sought line rest := by
  induction line generalizing rest with
  | nil =>
    rw [afterFirst?]
    constructor
    · intro h
      split at h
      · rename_i hempty
        obtain rfl := Option.some.inj h
        rw [List.isEmpty_iff.mp hempty]
        exact ⟨[], rfl, fun _ _ _ => Nat.zero_le _⟩
      · cases h
    · rintro ⟨before, heq, -⟩
      obtain ⟨-, hrest⟩ := List.append_eq_nil_iff.mp heq.symm
      obtain ⟨rfl, rfl⟩ := List.append_eq_nil_iff.mp hrest
      rfl
  | cons c line ih =>
    rw [afterFirst?]
    split
    · rename_i found hfound
      have hline := (List.isPrefixOf?_eq_some_iff_append_eq.mp hfound).symm
      constructor
      · intro h
        obtain rfl := Option.some.inj h
        exact ⟨[], hline, fun _ _ _ => Nat.zero_le _⟩
      · rintro ⟨before, heq, hfirst⟩
        have hnil : before = [] :=
          List.length_eq_zero_iff.mp (Nat.le_zero.mp (hfirst [] found hline))
        rw [hnil, List.nil_append, hline, List.append_cancel_left_eq] at heq
        rw [heq]
    · rename_i hnone
      have hnext : ∀ {before rest}, c :: line = before ++ (sought ++ rest) →
          ∃ later, before = c :: later ∧ line = later ++ (sought ++ rest) := by
        intro before rest heq
        cases before with
        | nil =>
          rw [List.nil_append] at heq
          rw [List.isPrefixOf?_eq_some_iff_append_eq.mpr heq.symm] at hnone
          cases hnone
        | cons d later =>
          obtain ⟨rfl, htail⟩ := List.cons.inj heq
          exact ⟨later, rfl, htail⟩
      rw [ih]
      constructor
      · rintro ⟨before, rfl, hfirst⟩
        refine ⟨c :: before, rfl, fun before' rest' heq => ?_⟩
        obtain ⟨later, rfl, htail⟩ := hnext heq
        exact Nat.succ_le_succ (hfirst later rest' htail)
      · rintro ⟨before, heq, hfirst⟩
        obtain ⟨later, rfl, htail⟩ := hnext heq
        exact ⟨later, htail, fun before' rest' htail' =>
          Nat.le_of_succ_le_succ (hfirst (c :: before') rest' (congrArg (c :: ·) htail'))⟩

/-! ### Fields -/

/-- A value is taken off the words if and only if they begin with its key and the value. -/
lemma takeValue_eq_ok_iff {key : String} {ws rest : List (List Char)} {value : List Char} :
    takeValue key ws = .ok (value, rest) ↔ ws = keyWord key :: value :: rest := by
  constructor
  · intro h
    unfold takeValue at h
    split at h
    · cases h
    · cases h
    · split at h
      · rename_i hkey
        obtain ⟨rfl, rfl⟩ := Prod.mk.inj (Except.ok.inj h)
        rw [hkey]
      · cases h
  · rintro rfl
    exact if_pos rfl

/-- A number is taken off the words if and only if they begin with its key and a numeral for it. -/
lemma takeNumber_eq_ok_iff {key : String} {ws rest : List (List Char)} {n : UInt64} :
    takeNumber key ws = .ok (n, rest) ↔
      ∃ value, ws = keyWord key :: value :: rest ∧ Text.Numeral.IsNumeral 10 value n.toNat := by
  unfold takeNumber
  constructor
  · intro h
    split at h
    · cases h
    · rename_i value others hvalue
      split at h
      · cases h
      · rename_i m hm
        obtain ⟨rfl, rfl⟩ := Prod.mk.inj (Except.ok.inj h)
        exact ⟨value, takeValue_eq_ok_iff.mp hvalue, Text.Numeral.uint64_eq_ok_iff.mp hm⟩
  · rintro ⟨value, rfl, hvalue⟩
    rw [takeValue_eq_ok_iff.mpr rfl]
    simp only [Text.Numeral.uint64_eq_ok_iff.mpr hvalue]

/-! ### Readings -/

/-- A slot is found by its own number only. -/
lemma ofIndex?_eq_some_iff_toNat {i : UInt64} {slot : Event.Slot} :
    Event.Slot.ofIndex? i = some slot ↔
      i.toNat = slot.index.toNat ∧ slot.index.toNat < Event.slotLimit := by
  have hvalue : i.toUInt8.toNat = i.toNat % 256 := UInt64.toNat_toUInt8 i
  rw [Event.Slot.ofIndex?_eq_some_iff]
  constructor
  · rintro ⟨hlt, rfl⟩
    have hsmall : i.toNat < 4 := hlt
    have heq : i.toNat = i.toUInt8.toNat := by omega
    exact ⟨heq, heq ▸ hlt⟩
  · rintro ⟨heq, hlt⟩
    have hsmall : slot.index.toNat < 4 := hlt
    have hindex : slot.index = i.toUInt8 := UInt8.toNat.inj (by omega)
    exact ⟨heq ▸ hlt, congrArg Event.Slot.mk hindex⟩

/-- The words spell an event reading: the slot, which can be bound, behind the word `event` and in
front of a colon, then the code, then the count under its key. -/
def SpellsReading (x : Event.Reading) (ws : List (List Char)) : Prop :=
  ∃ slot code count, ws = ["event".toList ++ (slot ++ [':']), code, keyWord "count", count] ∧
    Text.Numeral.IsNumeral 10 slot x.slot.index.toNat ∧ x.slot.index.toNat < Event.slotLimit ∧
    Event.Code.ofChars? code = some x.code ∧ Text.Numeral.IsNumeral 10 count x.count.toNat

/-- A slot is named by the word `event`, a numeral for the slot and a colon. -/
lemma slotOfWord?_eq_some_iff {word : List Char} {slot : Event.Slot} :
    slotOfWord? word = some slot ↔
      ∃ digits, word = "event".toList ++ (digits ++ [':']) ∧
        Text.Numeral.IsNumeral 10 digits slot.index.toNat ∧
        slot.index.toNat < Event.slotLimit := by
  constructor
  · intro h
    obtain ⟨behind, hbehind, h⟩ := Option.bind_eq_some_iff.mp h
    obtain ⟨⟨⟩, hcolon, h⟩ := Option.bind_eq_some_iff.mp h
    obtain ⟨index, hindex, h⟩ := Option.bind_eq_some_iff.mp h
    obtain ⟨heq, hlt⟩ := ofIndex?_eq_some_iff_toNat.mp h
    obtain ⟨digits, rfl⟩ := List.getLast?_eq_some_iff.mp ((Option.guard_eq_some' _).mp hcolon)
    rw [List.dropLast_concat, toOption_eq_some, Text.Numeral.uint64_eq_ok_iff, heq] at hindex
    have hword := (List.isPrefixOf?_eq_some_iff_append_eq.mp hbehind).symm
    exact ⟨digits, hword, hindex, hlt⟩
  · rintro ⟨digits, rfl, hdigits, hlt⟩
    have hvalue : slot.index.toUInt64.toNat = slot.index.toNat := UInt8.toNat_toUInt64 _
    have hindex := Text.Numeral.uint64_eq_ok_iff.mpr (hvalue.symm ▸ hdigits)
    have hbegin : "event".toList.isPrefixOf? ("event".toList ++ (digits ++ [':'])) =
        some (digits ++ [':']) := List.isPrefixOf?_eq_some_iff_append_eq.mpr rfl
    have hcolon : guard ((digits ++ [':']).getLast? = some ':') = some () :=
      if_pos List.getLast?_concat
    rw [slotOfWord?, hbegin, Option.bind_eq_bind, Option.bind_some, hcolon, List.dropLast_concat,
      hindex]
    exact ofIndex?_eq_some_iff_toNat.mpr ⟨hvalue, hlt⟩

/-- Readings are read from words if and only if the words consist of groups that spell them, and
there are not too many of them. -/
lemma readings_eq_ok_iff {seen : Nat} {ws : List (List Char)} {events : List Event.Reading}
    (hseen : seen ≤ Event.slotLimit) :
    readings seen ws = .ok events ↔ seen + events.length ≤ Event.slotLimit ∧
      ∃ groups, ws = groups.flatten ∧ List.Forall₂ SpellsReading events groups := by
  constructor
  · intro h
    fun_induction readings seen ws generalizing events with
    | case1 seen =>
      obtain rfl := Except.ok.inj h
      exact ⟨hseen, [], rfl, .nil⟩
    | case8 seen key slot hslot word code hcode value rest count hcount hlt ih =>
      obtain ⟨others, hothers, rfl⟩ := map_eq_ok.mp h
      obtain ⟨hle, groups, rfl, hgroups⟩ := ih hlt hothers
      obtain ⟨digits, rfl, hdigits, hbound⟩ := slotOfWord?_eq_some_iff.mp hslot
      have hgroup : SpellsReading ⟨slot, code, count⟩
          ["event".toList ++ (digits ++ [':']), word, keyWord "count", value] :=
        ⟨digits, word, value, rfl, hdigits, hbound, hcode, Text.Numeral.uint32_eq_ok_iff.mp hcount⟩
      refine ⟨?_, _ :: groups, rfl, .cons hgroup hgroups⟩
      rw [List.length_cons]
      omega
    | _ => cases h
  · rintro ⟨hle, groups, rfl, hgroups⟩
    induction hgroups generalizing seen with
    | nil => rfl
    | cons hgroup hgroups ih =>
      obtain ⟨digits, code, count, rfl, hdigits, hbound, hcode, hcount⟩ := hgroup
      rw [List.length_cons] at hle
      have hslot := slotOfWord?_eq_some_iff.mpr ⟨digits, rfl, hdigits, hbound⟩
      have hlt : seen < Event.slotLimit := by omega
      rw [List.flatten_cons]
      simp only [List.cons_append, List.nil_append, readings, hslot, hcode, if_true,
        Text.Numeral.uint32_eq_ok_iff.mpr hcount, if_pos hlt]
      exact map_eq_ok.mpr ⟨_, ih hlt (by omega), rfl⟩

/-! ### Lines -/

/-- The words behind the marker spell the record. -/
def Spells (r : Record) (ws : List (List Char)) : Prop :=
  ∃ cores core cycles iteration offset groups,
    ws = [keyWord "label", r.label.toList, keyWord "benchmark", r.workload.toList,
      keyWord "cores", cores, keyWord "core", core, keyWord "cycle_count", cycles,
      keyWord "iteration", iteration, keyWord "offset", offset] ++ groups.flatten ∧
    Text.Numeral.IsNumeral 10 cores r.cores.toNat ∧
    Text.Numeral.IsNumeral 10 core r.core.toNat ∧
    Text.Numeral.IsNumeral 10 cycles r.cycles.toNat ∧
    Text.Numeral.IsNumeral 10 iteration r.iteration.toNat ∧
    Text.Numeral.IsNumeral 10 offset r.offset.toNat ∧
    r.events.length ≤ Event.slotLimit ∧ List.Forall₂ SpellsReading r.events groups

/-- A record is read from words if and only if they spell it. -/
lemma ofWords_eq_ok_iff {ws : List (List Char)} {r : Record} :
    ofWords ws = .ok r ↔ r.Spells ws := by
  constructor
  · intro h
    obtain ⟨⟨label, ws₁⟩, h₁, h⟩ := bind_eq_ok.mp h
    obtain ⟨⟨workload, ws₂⟩, h₂, h⟩ := bind_eq_ok.mp h
    obtain ⟨⟨cores, ws₃⟩, h₃, h⟩ := bind_eq_ok.mp h
    obtain ⟨⟨core, ws₄⟩, h₄, h⟩ := bind_eq_ok.mp h
    obtain ⟨⟨cycles, ws₅⟩, h₅, h⟩ := bind_eq_ok.mp h
    obtain ⟨⟨iteration, ws₆⟩, h₆, h⟩ := bind_eq_ok.mp h
    obtain ⟨⟨offset, ws₇⟩, h₇, h⟩ := bind_eq_ok.mp h
    obtain ⟨events, h₈, h⟩ := bind_eq_ok.mp h
    obtain rfl := Except.ok.inj h
    obtain rfl := takeValue_eq_ok_iff.mp h₁
    obtain rfl := takeValue_eq_ok_iff.mp h₂
    obtain ⟨_, rfl, hcores⟩ := takeNumber_eq_ok_iff.mp h₃
    obtain ⟨_, rfl, hcore⟩ := takeNumber_eq_ok_iff.mp h₄
    obtain ⟨_, rfl, hcycles⟩ := takeNumber_eq_ok_iff.mp h₅
    obtain ⟨_, rfl, hiteration⟩ := takeNumber_eq_ok_iff.mp h₆
    obtain ⟨_, rfl, hoffset⟩ := takeNumber_eq_ok_iff.mp h₇
    obtain ⟨hle, groups, rfl, hgroups⟩ := (readings_eq_ok_iff (Nat.zero_le _)).mp h₈
    rw [Nat.zero_add] at hle
    refine ⟨_, _, _, _, _, groups, ?_, hcores, hcore, hcycles, hiteration, hoffset, hle, hgroups⟩
    rw [String.toList_ofList, String.toList_ofList]
    rfl
  · rintro ⟨_, _, _, _, _, groups, rfl, hcores, hcore, hcycles, hiteration, hoffset, hle, hgroups⟩
    have hevents := (readings_eq_ok_iff (Nat.zero_le _)).mpr
      ⟨by rw [Nat.zero_add]; exact hle, groups, rfl, hgroups⟩
    refine bind_eq_ok.mpr ⟨_, takeValue_eq_ok_iff.mpr rfl, ?_⟩
    refine bind_eq_ok.mpr ⟨_, takeValue_eq_ok_iff.mpr rfl, ?_⟩
    refine bind_eq_ok.mpr ⟨_, takeNumber_eq_ok_iff.mpr ⟨_, rfl, hcores⟩, ?_⟩
    refine bind_eq_ok.mpr ⟨_, takeNumber_eq_ok_iff.mpr ⟨_, rfl, hcore⟩, ?_⟩
    refine bind_eq_ok.mpr ⟨_, takeNumber_eq_ok_iff.mpr ⟨_, rfl, hcycles⟩, ?_⟩
    refine bind_eq_ok.mpr ⟨_, takeNumber_eq_ok_iff.mpr ⟨_, rfl, hiteration⟩, ?_⟩
    refine bind_eq_ok.mpr ⟨_, takeNumber_eq_ok_iff.mpr ⟨_, rfl, hoffset⟩, ?_⟩
    refine bind_eq_ok.mpr ⟨_, hevents, ?_⟩
    rw [String.ofList_toList, String.ofList_toList]
    rfl

/-- Of a line with a marker only the words behind the first one count. -/
lemma ofLine_eq_ofWords {line : String} {rest : List Char} {ws : List (List Char)}
    (hrest : IsAfterFirst marker.toList line.toList rest) (hws : Text.Splits rest ws) :
    ofLine line = ofWords ws := by
  simp only [ofLine, afterFirst?_eq_some_iff.mpr hrest, Text.words_eq_iff.mpr hws]

/-- The line holds the record: the words behind its first marker spell it. -/
def Holds (line : String) (r : Record) : Prop :=
  ∃ rest ws, IsAfterFirst marker.toList line.toList rest ∧ Text.Splits rest ws ∧ r.Spells ws

/-- A record is read from a line if and only if the line holds it. -/
lemma ofLine_eq_ok_iff {line : String} {r : Record} : ofLine line = .ok r ↔ Holds line r := by
  constructor
  · intro h
    unfold ofLine at h
    split at h
    · cases h
    · rename_i rest hrest
      exact ⟨rest, Text.words rest, afterFirst?_eq_some_iff.mp hrest, Text.words_eq_iff.mp rfl,
        ofWords_eq_ok_iff.mp h⟩
  · rintro ⟨rest, ws, hrest, hws, hspells⟩
    rw [ofLine_eq_ofWords hrest hws]
    exact ofWords_eq_ok_iff.mpr hspells

/-- **The grammar of record lines.**  A line is read as a record if and only if the words behind its
first marker spell the record.  What a line with a marker is read as, be it a record or a reason
against the line, depends on these words only, neither on what stands in front of the marker nor on
the blanks around the words.  For every line that holds no record there is a reason against it. -/
theorem accepts_grammar :
    (∀ line r, ofLine line = .ok r ↔ Holds line r) ∧
    (∀ line line' rest rest' ws, IsAfterFirst marker.toList line.toList rest →
      IsAfterFirst marker.toList line'.toList rest' → Text.Splits rest ws → Text.Splits rest' ws →
      ofLine line = ofLine line') ∧
    ∀ line, (∀ r, ¬ Holds line r) → ∃ cause, ofLine line = .error cause := by
  refine ⟨fun _ _ => ofLine_eq_ok_iff, ?_, fun line hnone => ?_⟩
  · intro line line' rest rest' ws hrest hrest' hws hws'
    rw [ofLine_eq_ofWords hrest hws, ofLine_eq_ofWords hrest' hws']
  · cases hline : ofLine line with
    | error cause => exact ⟨cause, rfl⟩
    | ok r => exact absurd (ofLine_eq_ok_iff.mp hline) (hnone r)

/-- What stands behind the marker of a line with signs, zeros in front, capital letters, blanks of
several kinds and a second marker. -/
def oddPieces : List String :=
  ["\t label:\u00a0", "CYCLECOUNT ", "benchmark: T ", "cores: +4 ", "core: 03 ",
    "cycle_count: 7\u2003", "iteration: 2 ", "offset: 0\n", "event+3: ", "BUS_Access ",
    "count: 00 "]

/-- The line with these pieces. -/
def oddLine : String :=
  String.join ("I CYCLECOUNT" :: oddPieces)

/-- The record that the odd line holds. -/
def oddRecord : Record where
  label := "CYCLECOUNT"
  workload := "T"
  cores := 4
  core := 3
  iteration := 2
  offset := 0
  cycles := 7
  events := [⟨⟨3⟩, ⟨0x19⟩, 0⟩]

/-- The odd line is read; two lines with the same words behind their markers have the same said
against them; and a line whose marker is not whole is refused. -/
theorem accepts_grammar_of_oddLine :
    ofLine oddLine = .ok oddRecord ∧
      ofLine "CYCLECOUNT label: T" = ofLine "1 CYCLECOUNT\tlabel:\u00a0T\n" ∧
      ∃ cause, ofLine "CYCLECOUN label: T" = .error cause := by
  have hline : oddLine.toList = "I CYCLECOUNT".toList ++ oddPieces.flatMap String.toList :=
    String.toList_join
  have hrest : IsAfterFirst marker.toList oddLine.toList (oddPieces.flatMap String.toList) :=
    afterFirst?_eq_some_iff.mp (by rw [hline]; decide +kernel)
  have hspells : oddRecord.Spells (Text.words (oddPieces.flatMap String.toList)) := by
    have hslot : Text.Numeral.IsNumeral 10 "+3".toList 3 :=
      (Text.Numeral.uint64_eq_ok_iff (n := 3)).mp (by decide +kernel)
    have hcount : Text.Numeral.IsNumeral 10 "00".toList 0 :=
      (Text.Numeral.uint32_eq_ok_iff (n := 0)).mp (by decide +kernel)
    refine ⟨"+4".toList, "03".toList, "7".toList, "2".toList, "0".toList,
      [["event+3:".toList, "BUS_Access".toList, "count:".toList, "00".toList]],
      by decide +kernel, ?_, ?_, ?_, ?_, ?_, by decide,
      .cons ⟨"+3".toList, _, _, rfl, hslot, by decide, by decide +kernel, hcount⟩ .nil⟩
    all_goals exact Text.Numeral.uint64_eq_ok_iff.mp (by decide +kernel)
  have hnone : ∀ r, ¬ Holds "CYCLECOUN label: T" r := by
    rintro r ⟨rest, _, hrest, -⟩
    have hfound := afterFirst?_eq_some_iff.mpr hrest
    rw [show afterFirst? marker.toList "CYCLECOUN label: T".toList = none by decide +kernel]
      at hfound
    cases hfound
  refine ⟨(accepts_grammar.1 _ _).mpr ⟨_, _, hrest, Text.words_eq_iff.mp rfl, hspells⟩,
    accepts_grammar.2.1 _ _ " label: T".toList "\tlabel:\u00a0T\n".toList
      ["label:".toList, "T".toList] ?_ ?_ ?_ ?_, accepts_grammar.2.2 _ hnone⟩
  · exact afterFirst?_eq_some_iff.mp (by decide +kernel)
  · exact afterFirst?_eq_some_iff.mp (by decide +kernel)
  · exact Text.words_eq_iff.mp (by decide +kernel)
  · exact Text.words_eq_iff.mp (by decide +kernel)

end Lockstep.Record
