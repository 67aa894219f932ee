import Lockstep.Json.Token
import Lockstep.Json.Value
import Lockstep.Proofs.Text.Numeral
import Mathlib.Tactic.Lemma
import Mathlib.Tactic.SplitIfs

/-!
# Tokens of written values

A string that was written is cut off as one token, whatever comes behind it, and so are numbers and
words.  A string is read character by character: what was escaped by a letter is resolved at once,
and what was escaped by number is kept as a code unit, which then stands for the same character.

Doubles are left out.  Their digits are not looked at here.
-/

namespace Lockstep.Json

/-! ### Strings -/

/-- The three ways in which a character is written: by a letter, by number, or as it is. -/
lemma escaped_cases (c : Char) :
    (∃ e, escaped c = ['\\', e] ∧ e ≠ 'u' ∧ unescaped? e = some c) ∨
      (c.toNat < 0x20 ∧ escaped c =
        ['\\', 'u', '0', '0', Nat.digitChar (c.toNat / 16), Nat.digitChar (c.toNat % 16)]) ∨
      (c ≠ '"' ∧ c ≠ '\\' ∧ ¬ c.toNat < 0x20 ∧ escaped c = [c]) := by
  unfold escaped
  split
  case h_8 hquote hbackslash _ _ _ _ _ =>
    split_ifs with hcontrol
    · exact Or.inr (Or.inl ⟨hcontrol, rfl⟩)
    · exact Or.inr (Or.inr ⟨hquote, hbackslash, hcontrol, rfl⟩)
  all_goals exact Or.inl ⟨_, rfl, by decide, rfl⟩

/-- How a written character is read.  Only a control character without a letter of its own is
written by number. -/
def Piece.ofChar (c : Char) : Piece :=
  if (escaped c).length = 6 then .unit c.toNat else .char c

/-- The code unit of a control character is written in four digits. -/
lemma unit?_control {n : Nat} (hn : n < 0x20) :
    unit? '0' '0' (Nat.digitChar (n / 16)) (Nat.digitChar (n % 16)) = some n := by
  have hall : ∀ n < 0x20,
      unit? '0' '0' (Nat.digitChar (n / 16)) (Nat.digitChar (n % 16)) = some n := by decide
  exact hall n hn

/-- A letter behind a backslash is read as the character that it stands for. -/
lemma scanString_letter {c e : Char} (hunit : e ≠ 'u') (he : unescaped? e = some c)
    (rest : List Char) :
    scanString ('\\' :: e :: rest) = (scanString rest).push (.char c) := by
  rw [scanString.eq_def]
  split
  case h_6 heq =>
    obtain ⟨rfl, rfl⟩ := List.cons.inj (List.cons.inj heq).2
    simp only [he]
  case h_7 hnot heq =>
    obtain ⟨rfl, rfl⟩ := List.cons.inj heq
    exact absurd rfl (hnot e rest rfl)
  all_goals simp_all

/-- Four digits behind a backslash are read as the code unit that they spell. -/
lemma scanString_unit {a b c d : Char} {n : Nat} (hunit : unit? a b c d = some n)
    (rest : List Char) :
    scanString ('\\' :: 'u' :: a :: b :: c :: d :: rest) = (scanString rest).push (.unit n) := by
  rw [scanString, hunit]

/-- A character that is no quote, no backslash and no control character stands for itself. -/
lemma scanString_plain {c : Char} (hquote : c ≠ '"') (hbackslash : c ≠ '\\')
    (hcontrol : ¬ c.toNat < 0x20) (rest : List Char) :
    scanString (c :: rest) = (scanString rest).push (.char c) := by
  rw [scanString.eq_def]
  split
  case h_7 heq =>
    obtain ⟨rfl, rfl⟩ := List.cons.inj heq
    exact if_neg hcontrol
  all_goals simp_all

/-- A character is read as it was written. -/
lemma scanString_escaped (c : Char) (rest : List Char) :
    scanString (escaped c ++ rest) = (scanString rest).push (.ofChar c) := by
  rcases escaped_cases c with
    ⟨e, hc, hunit, he⟩ | ⟨hcontrol, hc⟩ | ⟨hquote, hbackslash, hcontrol, hc⟩
  · rw [Piece.ofChar, hc]
    exact scanString_letter hunit he rest
  · rw [Piece.ofChar, hc]
    exact scanString_unit (unit?_control hcontrol) rest
  · rw [Piece.ofChar, hc]
    exact scanString_plain hquote hbackslash hcontrol rest

/-- The characters of a string are read up to its closing quote. -/
lemma scanString_flatMap_escaped (cs rest : List Char) :
    scanString (cs.flatMap escaped ++ '"' :: rest) = ⟨cs.map .ofChar, none, rest⟩ := by
  induction cs with
  | nil => rfl
  | cons c cs ih =>
    rw [List.flatMap_cons, List.append_assoc, scanString_escaped, ih]
    rfl

/-- What was read of a string are its characters. -/
lemma characters_map_ofChar (cs : List Char) : characters (cs.map .ofChar) none = .ok cs := by
  induction cs with
  | nil => rfl
  | cons c cs ih =>
    rw [List.map_cons]
    rcases escaped_cases c with ⟨e, hc, -, -⟩ | ⟨hcontrol, hc⟩ | ⟨-, -, -, hc⟩
    · rw [Piece.ofChar, hc]
      exact congrArg (Except.map (c :: ·)) ih
    · rw [Piece.ofChar, hc]
      have hlow : c.toNat < 0xd800 ∨ 0xe000 ≤ c.toNat := Or.inl (by omega)
      have hunit : characters (.unit c.toNat :: cs.map .ofChar) none =
          (characters (cs.map .ofChar) none).map (Char.ofNat c.toNat :: ·) := by
        rw [characters.eq_def]
        exact if_pos hlow
      refine hunit.trans ?_
      rw [ih, Char.ofNat_toNat]
      rfl
    · rw [Piece.ofChar, hc]
      exact congrArg (Except.map (c :: ·)) ih

/-! ### Numbers -/

/-- A number that is written before this text ends there. -/
def EndsNumber (rest : List Char) : Prop :=
  ∀ c ∈ rest.head?, c.isDigit = false ∧ c ≠ '.' ∧ c ≠ 'e' ∧ c ≠ 'E'

/-- The digits of a number are taken up to the end of the number. -/
lemma scanDigits_append {digits rest : List Char} (hne : digits ≠ [])
    (hdigits : ∀ c ∈ digits, c.isDigit = true) (hrest : ∀ c ∈ rest.head?, c.isDigit = false) :
    scanDigits (digits ++ rest) = .ok (digits, rest) := by
  have htake : (digits ++ rest).takeWhile Char.isDigit = digits := by
    rw [List.takeWhile_append_of_pos hdigits]
    cases rest with
    | nil => exact List.append_nil digits
    | cons c rest => simp [hrest c rfl]
  have hdrop : (digits ++ rest).dropWhile Char.isDigit = rest := by
    rw [List.dropWhile_append_of_pos hdigits]
    cases rest with
    | nil => rfl
    | cons c rest => simp [hrest c rfl]
  have hsome : digits.isEmpty = false := by simp [hne]
  simp only [scanDigits, htake, hdrop, hsome, Bool.false_eq_true, if_false]

/-- The digits of a number are read behind its sign. -/
lemma scanNumber_toDigits (negative : Bool) (n : Nat) {rest : List Char} (hrest : EndsNumber rest) :
    scanNumber negative (Nat.toDigits 10 n ++ rest) =
      .ok (⟨negative, Nat.toDigits 10 n, [], none⟩, rest) := by
  have hdigits : scanDigits (Nat.toDigits 10 n ++ rest) = .ok (Nat.toDigits 10 n, rest) :=
    scanDigits_append Nat.toDigits_ne_nil
      (fun c hc => Nat.isDigit_of_mem_toDigits (by decide) (by decide) hc)
      fun c hc => (hrest c hc).1
  have hzero : ¬ ((Nat.toDigits 10 n).head? = some '0' ∧ Nat.toDigits 10 n ≠ ['0']) := by
    rintro ⟨hhead, hne⟩
    rcases Nat.eq_zero_or_pos n with rfl | hpos
    · exact hne (Nat.toDigits_zero 10)
    · exact Text.head?_toDigits_ne_zero (by decide) (by decide) hpos hhead
  have hfraction : scanFraction rest = .ok ([], rest) := by
    unfold scanFraction
    split
    · exact absurd rfl (hrest '.' rfl).2.1
    · rfl
  have hexponent : scanOptionalExponent rest = .ok (none, rest) := by
    unfold scanOptionalExponent
    split
    · exact absurd rfl (hrest 'e' rfl).2.2.1
    · exact absurd rfl (hrest 'E' rfl).2.2.2
    · rfl
  simp only [scanNumber, hdigits, if_neg hzero, hfraction, hexponent]

/-! ### Tokens -/

/-- A punctuation mark is a token. -/
lemma tokens_punctuation {c : Char} {token : Token} (hspace : isSpace c = false)
    (hc : punctuation? c = some token) (rest : List Char) :
    tokens (c :: rest) = token :: tokens rest := by
  rw [tokens]
  simp only [hspace, hc, Bool.false_eq_true, if_false]

/-- A string that is closed is a token. -/
lemma tokens_quote {cs rest : List Char} {pieces : List Piece}
    (hscan : scanString cs = ⟨pieces, none, rest⟩) :
    tokens ('"' :: cs) = .string pieces :: tokens rest := by
  have hquote : isSpace '"' = false ∧ punctuation? '"' = none := by decide
  rw [tokens]
  simp only [hquote.1, hquote.2, hscan, Bool.false_eq_true, if_false, if_true]

/-- A written string is a token. -/
lemma tokens_stringText (s : String) (rest : List Char) :
    tokens (stringText s ++ rest) = .string (s.toList.map .ofChar) :: tokens rest := by
  have htext : stringText s ++ rest = '"' :: (s.toList.flatMap escaped ++ '"' :: rest) := by
    simp [stringText]
  rw [htext, tokens_quote (scanString_flatMap_escaped s.toList rest)]

/-- A number that can be read is a token. -/
lemma tokens_number {c : Char} {cs rest : List Char} {literal : Literal}
    (hspace : isSpace c = false) (hmark : punctuation? c = none) (hquote : c ≠ '"')
    (hstart : c = '-' ∨ c.isDigit = true)
    (hscan : scanNumber (c = '-') (if c = '-' then cs else c :: cs) = .ok (literal, rest)) :
    tokens (c :: cs) = .number literal :: tokens rest := by
  rw [tokens]
  simp only [hspace, hmark, hquote, hstart, Bool.false_eq_true, if_false, if_true]
  split
  · obtain ⟨rfl, rfl⟩ := Prod.mk.inj (Except.ok.inj ((Eq.symm ‹_›).trans hscan))
    rfl
  · cases (Eq.symm ‹_›).trans hscan

/-- An integer from zero on is written in its digits. -/
lemma toList_repr_ofNat (n : Nat) : (Int.ofNat n).repr.toList = Nat.toDigits 10 n :=
  Nat.toList_repr

/-- A negative integer is written in its digits behind a sign. -/
lemma toList_repr_negSucc (n : Nat) :
    (Int.negSucc n).repr.toList = '-' :: Nat.toDigits 10 (n + 1) := by
  rw [Int.repr, String.toList_append, Nat.toList_repr]
  rfl

/-- A written integer is a token. -/
lemma tokens_integer (value : Int) {rest : List Char} (hrest : EndsNumber rest) :
    tokens (value.repr.toList ++ rest) =
      .number ⟨value < 0, Nat.toDigits 10 value.natAbs, [], none⟩ :: tokens rest := by
  cases value with
  | ofNat n =>
    obtain ⟨c, cs, hcs⟩ := List.exists_cons_of_ne_nil (Nat.toDigits_ne_nil (n := n) (b := 10))
    obtain ⟨d, hd, rfl⟩ := Text.exists_digit_of_mem_toDigits (n := n) (c := c)
      (by decide : 1 < 10) (hcs ▸ List.mem_cons_self)
    have hall : ∀ d < 10, isSpace d.digitChar = false ∧ punctuation? d.digitChar = none ∧
        d.digitChar ≠ '"' ∧ d.digitChar ≠ '-' ∧ d.digitChar.isDigit = true := by decide
    obtain ⟨hspace, hmark, hquote, hsign, hdigit⟩ := hall d hd
    have hscan := scanNumber_toDigits false n hrest
    have hsmall : decide (Int.ofNat n < 0) = false :=
      decide_eq_false (Int.not_lt.mpr (Int.natCast_nonneg n))
    rw [toList_repr_ofNat, hsmall]
    change _ = .number ⟨false, Nat.toDigits 10 n, [], none⟩ :: tokens rest
    rw [hcs, List.cons_append] at hscan ⊢
    refine tokens_number hspace hmark hquote (Or.inr hdigit) ?_
    rw [if_neg hsign, decide_eq_false hsign]
    exact hscan
  | negSucc n =>
    have hscan := scanNumber_toDigits true (n + 1) hrest
    have hsmall : decide (Int.negSucc n < 0) = true := decide_eq_true (Int.negSucc_lt_zero n)
    rw [toList_repr_negSucc, hsmall]
    exact tokens_number (by decide) (by decide) (by decide) (Or.inl rfl) hscan

/-- A written word is a token. -/
lemma tokens_word {c : Char} {word : List Char} {token : Token} (hspace : isSpace c = false)
    (hmark : punctuation? c = none) (hquote : c ≠ '"') (hstart : ¬ (c = '-' ∨ c.isDigit = true))
    (hword : word? c = some (word, token)) (rest : List Char) :
    tokens (c :: word ++ rest) = token :: tokens rest := by
  have hscan : scanWord word (word ++ rest) = .ok rest := by
    clear hword
    induction word with
    | nil => rfl
    | cons w word ih =>
      rw [List.cons_append, scanWord, if_pos rfl]
      exact ih
  rw [List.cons_append, tokens]
  simp only [hspace, hmark, hquote, hstart, hword, Bool.false_eq_true, if_false]
  split
  · obtain rfl := Except.ok.inj ((Eq.symm ‹_›).trans hscan)
    rfl
  · cases (Eq.symm ‹_›).trans hscan

/-! ### Values -/

namespace Value

mutual

/-- The value holds no double. -/
def IsExact : Value → Prop
  | .real _ => False
  | .array elements => AllExact elements
  | .object members => MembersExact members
  | _ => True

/-- No element holds a double. -/
def AllExact : List Value → Prop
  | [] => True
  | a :: as => a.IsExact ∧ AllExact as

/-- No member holds a double. -/
def MembersExact : List (String × Value) → Prop
  | [] => True
  | (_, a) :: as => a.IsExact ∧ MembersExact as

end

/-- No element holds a double if none of them does. -/
lemma allExact_iff {as : List Value} : AllExact as ↔ ∀ a ∈ as, a.IsExact := by
  induction as with
  | nil => simp [AllExact]
  | cons a as ih => simp [AllExact, ih]

/-- No member holds a double if none of their values does. -/
lemma membersExact_iff {ms : List (String × Value)} :
    MembersExact ms ↔ ∀ m ∈ ms, m.2.IsExact := by
  induction ms with
  | nil => simp [MembersExact]
  | cons m ms ih => simp [MembersExact, ih]

mutual

/-- The tokens of a value without doubles. -/
def tokens : Value → List Token
  | .null => [.null]
  | .boolean value => [.boolean value]
  | .integer value => [.number ⟨value < 0, Nat.toDigits 10 value.natAbs, [], none⟩]
  | .real _ => []
  | .string value => [.string (value.toList.map .ofChar)]
  | .array elements => .beginArray :: elementTokens elements ++ [.endArray]
  | .object members => .beginObject :: memberTokens members ++ [.endObject]

/-- The tokens of elements and of the commas between them. -/
def elementTokens : List Value → List Token
  | [] => []
  | [a] => a.tokens
  | a :: as => a.tokens ++ .comma :: elementTokens as

/-- The tokens of members and of the commas between them. -/
def memberTokens : List (String × Value) → List Token
  | [] => []
  | [(name, a)] => .string (name.toList.map .ofChar) :: .colon :: a.tokens
  | (name, a) :: as =>
    .string (name.toList.map .ofChar) :: .colon :: a.tokens ++ .comma :: memberTokens as

end

/-- A number ends before each of the marks that may follow a value. -/
lemma endsNumber_cons {c : Char} (hc : c = ',' ∨ c = ']' ∨ c = '\x7d') (rest : List Char) :
    EndsNumber (c :: rest) := by
  rintro d hd
  obtain rfl : c = d := Option.some.inj hd
  rcases hc with rfl | rfl | rfl <;> decide

/-! ### Written values stay on one line -/

/-- No control character is among the characters. -/
def IsVisible (cs : List Char) : Prop :=
  ∀ c ∈ cs, 0x20 ≤ c.toNat

/-- One character after the other may be looked at. -/
@[simp] lemma isVisible_cons {c : Char} {cs : List Char} :
    IsVisible (c :: cs) ↔ 0x20 ≤ c.toNat ∧ IsVisible cs :=
  List.forall_mem_cons

/-- One part after the other may be looked at. -/
@[simp] lemma isVisible_append {cs ds : List Char} :
    IsVisible (cs ++ ds) ↔ IsVisible cs ∧ IsVisible ds :=
  List.forall_mem_append

/-- Nothing holds no control character. -/
@[simp] lemma isVisible_nil : IsVisible [] :=
  fun _ hc => absurd hc List.not_mem_nil

/-- A written integer holds no control character. -/
lemma isVisible_repr (value : Int) : IsVisible value.repr.toList := by
  have hdigits : ∀ n, IsVisible (Nat.toDigits 10 n) := by
    intro n c hc
    obtain ⟨d, hd, rfl⟩ := Text.exists_digit_of_mem_toDigits (by decide) hc
    have hall : ∀ d < 10, 0x20 ≤ d.digitChar.toNat := by decide
    exact hall d hd
  cases value with
  | ofNat n =>
    rw [toList_repr_ofNat]
    exact hdigits n
  | negSucc n =>
    rw [toList_repr_negSucc, isVisible_cons]
    exact ⟨by decide, hdigits (n + 1)⟩

/-- A written character holds no control character. -/
lemma isVisible_escaped (c : Char) : IsVisible (escaped c) := by
  have hdigit : ∀ d < 0x20, 0x20 ≤ (Nat.digitChar (d / 16)).toNat ∧
      0x20 ≤ (Nat.digitChar (d % 16)).toNat := by decide
  rcases escaped_cases c with ⟨e, hc, -, he⟩ | ⟨hcontrol, hc⟩ | ⟨-, -, hcontrol, hc⟩
  · have hletter : 0x20 ≤ e.toNat := by
      unfold unescaped? at he
      split at he
      case h_9 => cases he
      all_goals decide
    rw [hc]
    simp [hletter]
  · obtain ⟨hhigh, hlow⟩ := hdigit c.toNat hcontrol
    rw [hc]
    simp [hhigh, hlow]
  · rw [hc]
    simpa using hcontrol

/-- A written string holds no control character. -/
lemma isVisible_stringText (s : String) : IsVisible (stringText s) := by
  have hescaped : IsVisible (s.toList.flatMap escaped) := by
    intro d hd
    obtain ⟨c, -, hc⟩ := List.mem_flatMap.mp hd
    exact isVisible_escaped c d hc
  simp [stringText, hescaped]

mutual

/-- A written value without doubles holds no control character. -/
theorem isVisible_compact : ∀ (a : Value), a.IsExact → IsVisible a.compact
  | .null, _ => by simp [compact, atom]
  | .boolean true, _ => by simp [compact, atom]
  | .boolean false, _ => by simp [compact, atom]
  | .integer value, _ => isVisible_repr value
  | .string value, _ => isVisible_stringText value
  | .array elements, h => by simp [compact, isVisible_compactElements elements h]
  | .object members, h => by simp [compact, isVisible_compactMembers members h]

/-- Written elements hold no control character. -/
theorem isVisible_compactElements : ∀ (as : List Value), AllExact as →
    IsVisible (compactElements as)
  | [], _ => isVisible_nil
  | [a], h => isVisible_compact a h.1
  | a :: b :: as, h => by
    simp [compactElements, isVisible_compact a h.1, isVisible_compactElements (b :: as) h.2]

/-- Written members hold no control character. -/
theorem isVisible_compactMembers : ∀ (as : List (String × Value)), MembersExact as →
    IsVisible (compactMembers as)
  | [], _ => isVisible_nil
  | [(name, a)], h => by
    simp [compactMembers, isVisible_stringText, isVisible_compact a h.1]
  | (name, a) :: b :: as, h => by
    simp [compactMembers, isVisible_stringText, isVisible_compact a h.1,
      isVisible_compactMembers (b :: as) h.2]

end

end Value

end Lockstep.Json
