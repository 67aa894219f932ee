import Lockstep.Event
import Lockstep.Proofs.Text.Numeral
import Lockstep.Proofs.Text.Words

/-!
# Spellings of events

An event has up to three kinds of spellings: its name, a hexadecimal numeral behind a mark, and a
decimal numeral.  The reader looks for a name first and then for the mark, so that it has to be
shown that the kinds do not meet: no name begins like a number or can be read as one
(`find?_named_hexadecimal`, `unsigned_of_mem_named`), and no decimal numeral has the mark.

The main statement, `Event.Code.reads_all_spellings`, says that exactly the spellings of an event
are read as the event, in letters of either case, and that whatever is written of an event is one of
them.
-/

namespace Lockstep.Event.Code

open Text (Numeral.unsigned Numeral.IsNumeral)

/-! ### The table of names -/

/-- No event has a name that begins like a number. -/
lemma find?_named_hexadecimal (cs : List Char) :
    named.find? (fun entry => entry.1.toList == '0' :: cs) = none := by
  have hhead : ∀ entry ∈ named, entry.1.toList.head? ≠ some '0' := by decide +kernel
  rw [List.find?_eq_none]
  intro entry hentry heq
  rw [beq_iff_eq] at heq
  exact hhead entry hentry (by rw [heq]; rfl)

/-- No event has a name that is a number. -/
lemma unsigned_of_mem_named {entry : String × Code} (h : entry ∈ named) :
    Numeral.unsigned 10 UInt32.size entry.1.toList = .error .invalidDigit := by
  have hall : ∀ entry ∈ named,
      Numeral.unsigned 10 UInt32.size entry.1.toList = .error .invalidDigit := by decide +kernel
  exact hall entry h

/-- A name is written in lower case. -/
lemma map_toLower_of_mem_named {entry : String × Code} (h : entry ∈ named) :
    entry.1.toList.map Char.toLower = entry.1.toList := by
  have hall : ∀ entry ∈ named, entry.1.toList.map Char.toLower = entry.1.toList := by
    decide +kernel
  exact hall entry h

/-- The name of an event stands in the table, and there is no other one. -/
lemma name?_eq_some_iff {code : Code} {name : String} :
    code.name? = some name ↔ (name, code) ∈ named := by
  have hall : ∀ entry ∈ named, entry.2.name? = some entry.1 := by decide +kernel
  refine ⟨fun h => ?_, hall (name, code)⟩
  obtain ⟨⟨name', code'⟩, hfind, rfl⟩ := Option.map_eq_some_iff.mp h
  obtain rfl : code' = code := by simpa using List.find?_some hfind
  exact List.mem_of_find?_eq_some hfind

/-- A text is looked up as the event that it names. -/
lemma find?_named_eq_some_iff {cs : List Char} {entry : String × Code} :
    named.find? (fun entry => entry.1.toList == cs) = some entry ↔
      entry ∈ named ∧ entry.1.toList = cs := by
  have hall : ∀ entry ∈ named,
      named.find? (fun other => other.1.toList == entry.1.toList) = some entry := by decide +kernel
  constructor
  · intro h
    exact ⟨List.mem_of_find?_eq_some h, by simpa using List.find?_some h⟩
  · rintro ⟨hentry, rfl⟩
    exact hall entry hentry

/-! ### What is written of an event -/

/-- The characters of a code are a mark and at least two digits. -/
lemma toList_text (code : Code) :
    code.text.toList = '0' :: 'x' ::
      (List.replicate (2 - (Nat.toDigits 16 code.number.toNat).length) '0' ++
        Nat.toDigits 16 code.number.toNat) := by
  simp [text]

/-- A character of a code is its mark or a digit. -/
lemma mem_toList_text {code : Code} {c : Char} (hc : c ∈ code.text.toList) :
    c = 'x' ∨ ∃ d, d < 16 ∧ c = d.digitChar := by
  rw [toList_text, List.mem_cons, List.mem_cons, List.mem_append] at hc
  rcases hc with rfl | rfl | hc | hc
  · exact Or.inr ⟨0, by decide, rfl⟩
  · exact Or.inl rfl
  · exact Or.inr ⟨0, by decide, List.eq_of_mem_replicate hc⟩
  · exact Or.inr (Text.exists_digit_of_mem_toDigits (by decide) hc)

/-- A code is a word. -/
lemma isWord_text (code : Code) : Text.isWord code.text.toList = true := by
  refine Text.isWord_iff.mpr ⟨by rw [toList_text]; exact List.cons_ne_nil _ _, fun c hc => ?_⟩
  rcases mem_toList_text hc with rfl | ⟨d, hd, rfl⟩
  · decide
  · exact (Text.digitChar_properties hd).1

/-- A code is written in lower case. -/
lemma map_toLower_text (code : Code) :
    code.text.toList.map Char.toLower = code.text.toList := by
  refine (List.map_congr_left fun c hc => ?_).trans (List.map_id _)
  rcases mem_toList_text hc with rfl | ⟨d, hd, rfl⟩
  · rfl
  · exact (Text.digitChar_properties hd).2.2

/-- The digits of a number are written in lower case. -/
lemma map_toLower_toDigits (n : Nat) :
    (Nat.toDigits 10 n).map Char.toLower = Nat.toDigits 10 n := by
  refine (List.map_congr_left fun c hc => ?_).trans (List.map_id _)
  obtain ⟨d, hd, rfl⟩ := Text.exists_digit_of_mem_toDigits (by decide) hc
  exact (Text.digitChar_properties (hd.trans (by decide))).2.2

/-! ### What is read as an event -/

/-- The text, in lower case, spells the event: it is its name, a hexadecimal numeral for its number
behind a mark, or a decimal numeral for it. -/
inductive IsSpelling (code : Code) : List Char → Prop where
  | name {name : String} (h : code.name? = some name) : IsSpelling code name.toList
  | hexadecimal {cs : List Char} (h : Numeral.IsNumeral 16 cs code.number.toNat) :
    IsSpelling code ('0' :: 'x' :: cs)
  | decimal {cs : List Char} (h : Numeral.IsNumeral 10 cs code.number.toNat) : IsSpelling code cs

variable {code : Code} {cs : List Char}

/-- What numerals are read as the number of an event. -/
lemma numeral_eq_some_iff {radix : Nat} (hradix : 0 < radix) (hle : radix ≤ 16) :
    ((Numeral.unsigned radix UInt32.size cs).toOption.map fun n => (⟨UInt32.ofNat n⟩ : Code)) =
      some code ↔ Numeral.IsNumeral radix cs code.number.toNat := by
  let ofNat (n : Nat) : Code := ⟨UInt32.ofNat n⟩
  have hlt : ∀ code : Code, code.number.toNat < UInt32.size := fun code => code.number.toNat_lt_size
  have hof : ∀ code : Code, ofNat code.number.toNat = code :=
    fun code => congrArg Code.mk UInt32.ofNat_toNat
  have hto : ∀ n < UInt32.size, (ofNat n).number.toNat = n :=
    fun n hn => UInt32.toNat_ofNat_of_lt' hn
  rw [← Text.Numeral.map_unsigned_eq_ok_iff hradix hle hlt hof hto, Option.map_eq_some_iff,
    map_eq_ok]
  simp only [toOption_eq_some, ofNat]

/-- A name spells the event that it is the name of. -/
lemma isSpelling_of_mem_named {entry : String × Code} (h : entry ∈ named) :
    IsSpelling code entry.1.toList ↔ entry.2 = code := by
  constructor
  · intro hspells
    generalize hcs : entry.1.toList = cs at hspells
    cases hspells with
    | name hname =>
      -- both names are found in the table for the same text
      have hentry := find?_named_eq_some_iff.mpr ⟨h, hcs⟩
      have hother := find?_named_eq_some_iff.mpr ⟨name?_eq_some_iff.mp hname, rfl⟩
      rw [Option.some.inj (hentry.symm.trans hother)]
    | hexadecimal hnumeral =>
      have hentry := find?_named_eq_some_iff.mpr ⟨h, hcs⟩
      rw [find?_named_hexadecimal] at hentry
      cases hentry
    | decimal hnumeral =>
      have hread := (Text.Numeral.unsigned_eq_ok_iff (by decide) (by decide) (by decide)).mpr
        ⟨code.number.toNat_lt_size, hnumeral⟩
      rw [← hcs, unsigned_of_mem_named h] at hread
      cases hread
  · rintro rfl
    exact .name (name?_eq_some_iff.mpr h)

/-- The mark of hexadecimal numerals does not occur in decimal ones. -/
lemma not_isNumeral_marked {n : Nat} : ¬ Numeral.IsNumeral 10 ('0' :: 'x' :: cs) n := by
  rintro ⟨digits, rfl | heq, -, values, hvalues, -⟩
  · obtain ⟨-, rest, -, hrest, -⟩ := List.forall₂_cons_left_iff.mp hvalues
    obtain ⟨d, -, hd, -⟩ := List.forall₂_cons_left_iff.mp hrest
    have hvalue := (Text.Numeral.digit?_eq_some_iff (by decide : 10 ≤ 16)).mpr hd
    have hnone : Text.Numeral.digit? 10 'x' = none := by decide
    exact absurd (hvalue.symm.trans hnone) (Option.some_ne_none d)
  · exact absurd (List.cons.inj heq).1 (by decide)

/-- **Which texts are read as an event.** -/
theorem ofChars?_eq_some_iff :
    ofChars? cs = some code ↔ code.IsSpelling (cs.map Char.toLower) := by
  simp only [ofChars?]
  generalize cs.map Char.toLower = lower
  cases hfind : named.find? fun entry => entry.1.toList == lower with
  | some entry =>
    obtain ⟨hentry, rfl⟩ := find?_named_eq_some_iff.mp hfind
    rw [isSpelling_of_mem_named hentry]
    exact Option.some_inj
  | none =>
    have hname : ∀ name, code.name? = some name → name.toList ≠ lower := by
      rintro name hname rfl
      rw [find?_named_eq_some_iff.mpr ⟨name?_eq_some_iff.mp hname, rfl⟩] at hfind
      cases hfind
    dsimp only
    split
    · rename_i digits
      rw [numeral_eq_some_iff (by decide) (by decide)]
      refine ⟨.hexadecimal, fun h => ?_⟩
      generalize hcs : '0' :: 'x' :: digits = cs at h
      cases h with
      | name h => exact absurd hcs.symm (hname _ h)
      | hexadecimal h => rwa [(List.cons.inj (List.cons.inj hcs).2).2]
      | decimal h => exact absurd (hcs ▸ h) not_isNumeral_marked
    · rename_i hmark
      rw [numeral_eq_some_iff (by decide) (by decide)]
      refine ⟨.decimal, fun h => ?_⟩
      cases h with
      | name h => exact absurd rfl (hname _ h)
      | hexadecimal h => exact absurd rfl (hmark _)
      | decimal h => exact h

/-- The text of a code spells it. -/
lemma isSpelling_text (code : Code) : code.IsSpelling code.text.toList := by
  rw [toList_text]
  have hread := Text.Numeral.unsigned_toDigits (by decide) (Nat.le_refl 16)
    code.number.toNat_lt_size (2 - (Nat.toDigits 16 code.number.toNat).length)
  exact .hexadecimal ((Text.Numeral.unsigned_eq_ok_iff (by decide) (by decide) (by decide)).mp
    hread).2

/-- **Codes are read back.** -/
theorem ofChars?_text (code : Code) : ofChars? code.text.toList = some code := by
  rw [ofChars?_eq_some_iff, map_toLower_text]
  exact isSpelling_text code

/-- **Events are read from all of their spellings and nothing else.**  A text is read as an event
exactly if, with its ASCII letters in lower case, it is the name of the event, or a mark and a
hexadecimal numeral for its number, or a decimal numeral for it, where numerals may have a plus sign
and zeros in front.  So texts that differ in the case of their letters only are read alike, and what
is written of an event, its text, its number or its name, is read as the event. -/
theorem reads_all_spellings (code : Code) :
    (∀ s : String, ofString? s = some code ↔ code.IsSpelling (s.toList.map Char.toLower)) ∧
    (∀ s t : String, s.toList.map Char.toLower = t.toList.map Char.toLower →
      ofString? s = ofString? t) ∧
    ofString? code.text = some code ∧ ofString? code.number.toNat.repr = some code ∧
    ∀ name, code.name? = some name → ofString? name = some code := by
  refine ⟨fun s => ofChars?_eq_some_iff, fun s t h => ?_, ofChars?_text code, ?_, fun name h => ?_⟩
  · rw [ofString?, ofString?, ofChars?, ofChars?, h]
  · rw [ofString?, ofChars?_eq_some_iff, Nat.toList_repr, map_toLower_toDigits]
    exact .decimal (Text.Numeral.isNumeral_toDigits (by decide) (by decide) _)
  · rw [ofString?, ofChars?_eq_some_iff, map_toLower_of_mem_named (name?_eq_some_iff.mp h)]
    exact .name h

end Lockstep.Event.Code
