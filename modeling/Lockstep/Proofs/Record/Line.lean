import Lockstep.Proofs.Event
import Lockstep.Proofs.Record.Grammar

/-!
# Records read back from their lines

The text form of a record is its marker and words with a blank in front of each of them.  Those
words are read one after the other, and each field comes out as it went in: numbers by their digits,
codes by their hexadecimal digits, texts as words of their own.  What stands in front of the first
marker does not matter, because the marker cannot begin in front of itself.

The main statement, `Record.reads_back`, says which records are read back: those whose texts are
words, with at most four readings in slots that can be bound.  Nothing else is ever read from a
line.
-/

namespace Lockstep

namespace Record

/-! ### The words of a record -/

/-- The words by which a reading is reported. -/
def readingWords (x : Event.Reading) : List (List Char) :=
  ["event".toList ++ Nat.toDigits 10 x.slot.index.toNat ++ [':'], x.code.text.toList,
    keyWord "count", Nat.toDigits 10 x.count.toNat]

/-- The words behind the marker of a record. -/
def lineWords (r : Record) : List (List Char) :=
  [keyWord "label", r.label.toList, keyWord "benchmark", r.workload.toList,
    keyWord "cores", Nat.toDigits 10 r.cores.toNat, keyWord "core", Nat.toDigits 10 r.core.toNat,
    keyWord "cycle_count", Nat.toDigits 10 r.cycles.toNat,
    keyWord "iteration", Nat.toDigits 10 r.iteration.toNat,
    keyWord "offset", Nat.toDigits 10 r.offset.toNat] ++ r.events.flatMap readingWords

/-- A reading is reported by words with a blank in front of each of them. -/
lemma toList_readingText (x : Event.Reading) :
    (readingText x).toList = (readingWords x).flatMap (' ' :: ·) := by
  simp [readingText, readingWords, keyWord, Event.Slot.text]

/-- The text form of a record is its marker and words with a blank in front of each of them. -/
lemma toList_text (r : Record) :
    r.text.toList = marker.toList ++ r.lineWords.flatMap (' ' :: ·) := by
  have hevents : (String.join (r.events.map readingText)).toList =
      (r.events.flatMap readingWords).flatMap (' ' :: ·) := by
    rw [String.toList_join, List.flatMap_map, List.flatMap_assoc]
    exact List.flatMap_congr fun x _ => toList_readingText x
  simp [text, lineWords, keyWord, hevents]

/-! ### Reading the words back -/

/-- The record can be written on a line and read back: its texts are words, and its readings are
such as a line can hold. -/
structure IsPlain (r : Record) : Prop where
  label : Text.isWord r.label.toList = true
  workload : Text.isWord r.workload.toList = true
  events_le : r.events.length ≤ Event.slotLimit
  slots : ∀ x ∈ r.events, x.slot.index.toNat < Event.slotLimit

/-- A reading in a slot that can be bound is spelt by the words by which it is reported. -/
lemma spellsReading_readingWords {x : Event.Reading}
    (h : x.slot.index.toNat < Event.slotLimit) : SpellsReading x (readingWords x) := by
  have hdigits : ∀ n, Text.Numeral.IsNumeral 10 (Nat.toDigits 10 n) n :=
    Text.Numeral.isNumeral_toDigits (by decide) (by decide)
  refine ⟨_, _, _, ?_, hdigits _, h, Event.Code.ofChars?_text x.code, hdigits _⟩
  rw [readingWords, List.append_assoc]

/-- A plain record is spelt by the words behind its marker. -/
lemma spells_lineWords {r : Record} (h : r.IsPlain) : r.Spells r.lineWords := by
  have hdigits : ∀ n, Text.Numeral.IsNumeral 10 (Nat.toDigits 10 n) n :=
    Text.Numeral.isNumeral_toDigits (by decide) (by decide)
  refine ⟨_, _, _, _, _, r.events.map readingWords, ?_, hdigits _, hdigits _, hdigits _, hdigits _,
    hdigits _, h.events_le, ?_⟩
  · rw [lineWords, List.flatMap_def]
  · rw [List.forall₂_map_right_iff, List.forall₂_same]
    exact fun x hx => spellsReading_readingWords (h.slots x hx)

/-- The words of a plain record are read back. -/
lemma ofWords_lineWords {r : Record} (h : r.IsPlain) : ofWords r.lineWords = .ok r :=
  ofWords_eq_ok_iff.mpr (spells_lineWords h)

/-- A reading is reported by words. -/
lemma isWord_of_mem_readingWords {x : Event.Reading} {w : List Char} (hw : w ∈ readingWords x) :
    Text.isWord w = true := by
  have hdigits : ∀ n, Text.isWord (Nat.toDigits 10 n) = true :=
    Text.isWord_toDigits (by decide) (by decide)
  simp only [readingWords, List.mem_cons, List.not_mem_nil, or_false] at hw
  rcases hw with rfl | rfl | rfl | rfl
  · exact Text.isWord_append (Text.isWord_append (by decide) (hdigits _)) (by decide)
  · exact Event.Code.isWord_text x.code
  · decide
  · exact hdigits _

/-- The words of a plain record are words. -/
lemma isWord_of_mem_lineWords {r : Record} (h : r.IsPlain) {w : List Char} (hw : w ∈ r.lineWords) :
    Text.isWord w = true := by
  have hdigits : ∀ n, Text.isWord (Nat.toDigits 10 n) = true :=
    Text.isWord_toDigits (by decide) (by decide)
  rcases List.mem_append.mp hw with hmem | hmem
  · simp only [List.mem_cons, List.not_mem_nil, or_false] at hmem
    rcases hmem with rfl | rfl | rfl | rfl | rfl | rfl | rfl | rfl | rfl | rfl | rfl | rfl | rfl |
      rfl
    on_goal 2 => exact h.label
    on_goal 3 => exact h.workload
    all_goals first | exact hdigits _ | decide
  · obtain ⟨x, -, hx⟩ := List.mem_flatMap.mp hmem
    exact isWord_of_mem_readingWords hx

/-! ### The first marker -/

/-- Something is found if and only if it occurs. -/
lemma isSome_afterFirst?_iff {sought cs : List Char} (hne : sought ≠ []) :
    (afterFirst? sought cs).isSome = true ↔ sought <:+: cs := by
  induction cs with
  | nil => simp [afterFirst?, hne]
  | cons c cs ih =>
    rw [afterFirst?, List.infix_cons_iff]
    cases hfound : sought.isPrefixOf? (c :: cs) with
    | some rest =>
      have hbegin : sought <+: c :: cs :=
        ⟨rest, List.isPrefixOf?_eq_some_iff_append_eq.mp hfound⟩
      simp [hbegin]
    | none =>
      have hbegin : ¬ sought <+: c :: cs := by
        rintro ⟨rest, hrest⟩
        rw [List.isPrefixOf?_eq_some_iff_append_eq.mpr hrest] at hfound
        cases hfound
      simp only [hbegin, false_or]
      exact ih

/-- A line is meant to hold a record if and only if the marker occurs in it. -/
lemma isMarked_iff {line : List Char} : isMarked line = true ↔ marker.toList <:+: line :=
  isSome_afterFirst?_iff (by decide)

/-- A text whose last character occurs nowhere else in it cannot begin in front of itself and end
within itself. -/
lemma prefix_of_prefix_append {front before rest : List Char} {last : Char} (hlast : last ∉ front)
    (hne : before ≠ []) (h : front ++ [last] <+: before ++ (front ++ [last] ++ rest)) :
    front ++ [last] <+: before := by
  rcases Nat.lt_or_ge before.length (front ++ [last]).length with hlt | hle
  case inr => exact List.prefix_of_prefix_length_le h (List.prefix_append _ _) hle
  case inl =>
    -- otherwise a shorter end of the text would begin the text
    obtain ⟨x, hx⟩ := List.prefix_of_prefix_length_le (List.prefix_append _ _) h hlt.le
    have hlength : before.length + x.length = front.length + 1 := by
      rw [← List.length_append, hx, List.length_append, List.length_singleton]
    have hpos : 0 < before.length := List.length_pos_iff.mpr hne
    have hxfront : x <+: front := by
      have hxrest : x <+: front ++ ([last] ++ rest) := by
        rw [← hx, List.prefix_append_right_inj, hx, List.append_assoc] at h
        exact h
      exact List.prefix_of_prefix_length_le hxrest (List.prefix_append _ _) (by omega)
    have hxlast : last ∈ x := by
      have hend : (before ++ x).getLast? = some last := by
        rw [hx, List.getLast?_append, List.getLast?_singleton, Option.some_or]
      have hxne : x ≠ [] := by
        rintro rfl
        rw [List.length_append, List.length_singleton] at hlt
        rw [List.length_nil] at hlength
        omega
      obtain ⟨c, hc⟩ := Option.ne_none_iff_exists'.mp (mt List.getLast?_eq_none_iff.mp hxne)
      rw [List.getLast?_append, hc, Option.some_or] at hend
      exact List.mem_of_getLast? (hc.trans hend)
    exact absurd (hxfront.subset hxlast) hlast

/-- A text whose last character occurs nowhere else in it is found where it stands, if it does not
occur before. -/
lemma afterFirst?_append {front before rest : List Char} {last : Char} (hlast : last ∉ front)
    (hbefore : ¬ front ++ [last] <:+: before) :
    afterFirst? (front ++ [last]) (before ++ (front ++ [last] ++ rest)) = some rest := by
  induction before with
  | nil =>
    obtain ⟨c, cs, hcs⟩ := List.exists_cons_of_ne_nil (List.append_ne_nil_of_right_ne_nil front
      (List.cons_ne_nil last []))
    have hfound : (front ++ [last]).isPrefixOf? (front ++ [last] ++ rest) = some rest :=
      List.isPrefixOf?_eq_some_iff_append_eq.mpr rfl
    rw [List.nil_append]
    rw [hcs, List.cons_append] at hfound ⊢
    rw [afterFirst?, hfound]
  | cons c before ih =>
    rw [List.infix_cons_iff, not_or] at hbefore
    rw [List.cons_append, afterFirst?]
    cases hfound : (front ++ [last]).isPrefixOf? (c :: (before ++ (front ++ [last] ++ rest))) with
    | none => exact ih hbefore.2
    | some found =>
      have hbegin : front ++ [last] <+: (c :: before) ++ (front ++ [last] ++ rest) :=
        ⟨found, List.isPrefixOf?_eq_some_iff_append_eq.mp hfound⟩
      exact absurd (prefix_of_prefix_append hlast (List.cons_ne_nil c before) hbegin) hbefore.1

/-! ### Lines -/

/-- Behind a text without the marker, what is read is the record that the words spell. -/
lemma ofLine_append {p : String} (hp : ¬ marker.toList <:+: p.toList) (r : Record) :
    ofLine (p ++ r.text) = ofWords (Text.words (r.lineWords.flatMap (' ' :: ·))) := by
  have hmarker : marker.toList = "CYCLECOUN".toList ++ ['T'] := by decide
  have hfound : afterFirst? marker.toList (p ++ r.text).toList =
      some (r.lineWords.flatMap (' ' :: ·)) := by
    rw [String.toList_append, toList_text]
    rw [hmarker] at hp ⊢
    exact afterFirst?_append (by decide) hp
  rw [ofLine, hfound]

/-- **A plain record is read back** behind any text without the marker. -/
theorem ofLine_text {p : String} (hp : ¬ marker.toList <:+: p.toList) {r : Record}
    (h : r.IsPlain) : ofLine (p ++ r.text) = .ok r := by
  rw [ofLine_append hp, Text.words_flatMap_blank fun w hw => isWord_of_mem_lineWords h hw,
    ofWords_lineWords h]

/-- A plain record is read back from its text form alone. -/
lemma ofLine_text_self {r : Record} (h : r.IsPlain) : ofLine r.text = .ok r := by
  have hread := ofLine_text (p := "") (by decide) h
  rwa [String.empty_append] at hread

/-! ### Whatever is read is plain -/

/-- A record that words spell is plain. -/
lemma Spells.isPlain {ws : List (List Char)} {r : Record} (h : r.Spells ws)
    (hws : ∀ w ∈ ws, Text.isWord w = true) : r.IsPlain := by
  obtain ⟨_, _, _, _, _, groups, rfl, -, -, -, -, -, hle, hgroups⟩ := h
  refine ⟨hws _ (by simp), hws _ (by simp), hle, ?_⟩
  have hbound : List.Forall₂ (fun x ws => x.slot.index.toNat < Event.slotLimit ∧
      SpellsReading x ws) r.events groups :=
    hgroups.imp fun x ws h => ⟨by obtain ⟨_, _, _, -, -, hlt, -⟩ := h; exact hlt, h⟩
  exact ((List.forall₂_and_left _ _).mp hbound).1

/-- **Whatever is read from a line is plain.** -/
theorem isPlain_of_ofLine {line : String} {r : Record} (h : ofLine line = .ok r) : r.IsPlain := by
  unfold ofLine at h
  split at h
  · cases h
  · exact (ofWords_eq_ok_iff.mp h).isPlain fun w hw => Text.isWord_of_mem_words hw

/-! ### The main statement -/

/-- **Which records are read back.**  Behind any text without the marker a record is read back if
and only if its texts are words, it has at most four readings, and their slots can be bound.
Whatever is read from any line is such a record, so reading it again from its text form changes
nothing. -/
theorem reads_back :
    (∀ p : String, ¬ marker.toList <:+: p.toList → ∀ r : Record,
      ofLine (p ++ r.text) = .ok r ↔ r.IsPlain) ∧
    ∀ line r, ofLine line = .ok r → r.IsPlain ∧ ofLine r.text = .ok r := by
  refine ⟨fun p hp r => ⟨isPlain_of_ofLine, ofLine_text hp⟩, fun line r hline => ?_⟩
  have hplain := isPlain_of_ofLine hline
  have hnone : ¬ marker.toList <:+: "".toList := by decide
  have hread := ofLine_text hnone hplain
  rw [String.empty_append] at hread
  exact ⟨hplain, hread⟩

/-- A record with a label that looks like a key, and with readings in the last and the first
slot. -/
def keyLike : Record where
  label := "offset:"
  workload := "event0:"
  cores := 4
  core := 3
  iteration := 18446744073709551615
  offset := 0
  cycles := 7
  events := [⟨⟨3⟩, ⟨3⟩, 4294967295⟩, ⟨⟨0⟩, ⟨4294967295⟩, 0⟩]

/-- Neither keys in the place of values nor the beginning of a marker in front of the marker
matter. -/
theorem reads_back_of_keyLike :
    ¬ marker.toList <:+: "INFO CYCLECOUN".toList ∧
      ofLine ("INFO CYCLECOUN" ++ keyLike.text) = .ok keyLike ∧
      ofLine keyLike.text = .ok keyLike := by
  have hfront : ¬ marker.toList <:+: "INFO CYCLECOUN".toList := by decide
  have hplain : keyLike.IsPlain := ⟨by decide, by decide, by decide, by decide⟩
  have hline := (reads_back.1 "INFO CYCLECOUN" hfront keyLike).mpr hplain
  exact ⟨hfront, hline, (reads_back.2 _ _ hline).2⟩

end Record

end Lockstep
