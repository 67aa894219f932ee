import Lockstep.Proofs.Attempt
import Lockstep.Text.Numeral
import Lockstep.Text.Blank
import Mathlib.Data.List.Forall2
import Mathlib.Data.Nat.Digits.Defs
import Mathlib.Tactic.Lemma

/-!
# Numerals read back

The digits of a number, with any number of zeros in front of them, are read as that number.  This is
what the numerals of a radix up to sixteen come to, with lower-case letters for the larger digits.

Conversely, `Numeral.unsigned_eq_ok_iff` says which texts are read at all, and as what: those made
of digits in the order of their weights, with or without a plus sign in front.
-/

namespace Lockstep.Text

/-! ### The digits of a number -/

/-- The digits of a number are digits of the radix. -/
lemma exists_digit_of_mem_toDigits {radix n : Nat} {c : Char} (hradix : 1 < radix)
    (hc : c ∈ Nat.toDigits radix n) : ∃ d, d < radix ∧ c = d.digitChar := by
  induction n using Nat.strongRecOn with
  | ind n ih =>
    rw [Nat.toDigits_eq_if hradix] at hc
    split at hc
    · exact ⟨n, ‹_›, List.mem_singleton.mp hc⟩
    · rcases List.mem_append.mp hc with hmem | hmem
      · exact ih (n / radix) (Nat.div_lt_self (by omega) hradix) hmem
      · exact ⟨n % radix, Nat.mod_lt _ (by omega), List.mem_singleton.mp hmem⟩

/-- Only the number zero begins with a zero. -/
lemma head?_toDigits_ne_zero {radix n : Nat} (hradix : 1 < radix) (hle : radix ≤ 16) (hn : 0 < n) :
    (Nat.toDigits radix n).head? ≠ some '0' := by
  induction n using Nat.strongRecOn with
  | ind n ih =>
    rw [Nat.toDigits_eq_if hradix]
    split
    · have hall : ∀ d < 16, 0 < d → ([d.digitChar] : List Char).head? ≠ some '0' := by decide
      exact hall n (by omega) hn
    · have hquotient : 0 < n / radix := Nat.div_pos (by omega) (by omega)
      obtain ⟨c, cs, hcs⟩ :=
        List.exists_cons_of_ne_nil (Nat.toDigits_ne_nil (n := n / radix) (b := radix))
      have hhead := ih _ (Nat.div_lt_self hn hradix) hquotient
      rw [hcs] at hhead ⊢
      exact hhead

/-- Whatever takes one digit after the other onto a value takes the digits of a number that fits as
the number. -/
lemma read_toDigits {α : Type} {f : Nat → List Char → α} {radix bound n : Nat} (hradix : 1 < radix)
    (hf : ∀ value d rest, d < radix → value * radix + d < bound →
      f value (d.digitChar :: rest) = f (value * radix + d) rest)
    (hn : n < bound) (rest : List Char) : f 0 (Nat.toDigits radix n ++ rest) = f n rest := by
  induction n using Nat.strongRecOn generalizing rest with
  | ind n ih =>
    rw [Nat.toDigits_eq_if hradix]
    split
    · have hzero : 0 * radix + n = n := by rw [Nat.zero_mul, Nat.zero_add]
      rw [List.singleton_append, hf 0 n rest ‹_› (hzero.symm ▸ hn), hzero]
    · have hquotient : n / radix < n := Nat.div_lt_self (by omega) hradix
      have hvalue : n / radix * radix + n % radix = n := by rw [Nat.mul_comm, Nat.div_add_mod]
      rw [List.append_assoc, List.singleton_append, ih _ hquotient (by omega),
        hf _ _ rest (Nat.mod_lt _ (by omega)) (hvalue.symm ▸ hn), hvalue]

/-- A digit up to fifteen is neither blank nor a sign, and is written in lower case. -/
lemma digitChar_properties {d : Nat} (hd : d < 16) :
    isBlank d.digitChar = false ∧ d.digitChar ≠ '+' ∧ d.digitChar.toLower = d.digitChar := by
  have hall : ∀ d < 16, isBlank d.digitChar = false ∧ d.digitChar ≠ '+' ∧
      d.digitChar.toLower = d.digitChar := by decide
  exact hall d hd

/-- The digits of a number are a word. -/
lemma isWord_toDigits {radix : Nat} (hradix : 1 < radix) (hle : radix ≤ 16) (n : Nat) :
    isWord (Nat.toDigits radix n) = true := by
  rw [isWord, Bool.and_eq_true]
  constructor
  · simp [Nat.toDigits_ne_nil]
  · rw [List.all_eq_true]
    intro c hc
    obtain ⟨d, hd, rfl⟩ := exists_digit_of_mem_toDigits hradix hc
    simp [(digitChar_properties (Nat.lt_of_lt_of_le hd hle)).1]

namespace Numeral

/-! ### Reading digits -/

/-- A digit is read as its value. -/
lemma digit?_digitChar {radix d : Nat} (hd : d < radix) (hle : radix ≤ 16) :
    digit? radix d.digitChar = some d := by
  have hall : ∀ d < 16, digit? 16 d.digitChar = some d := by decide
  have hvalue := hall d (Nat.lt_of_lt_of_le hd hle)
  simp only [digit?, Option.filter_eq_some_iff, decide_eq_true_eq] at hvalue ⊢
  exact ⟨hvalue.1, hd⟩

/-- A digit is read onto the value of the digits before it. -/
lemma magnitude_digitChar {radix bound value d : Nat} (hd : d < radix) (hle : radix ≤ 16)
    (hvalue : value * radix + d < bound) (overflow : Error) (rest : List Char) :
    magnitude radix bound overflow value (d.digitChar :: rest) =
      magnitude radix bound overflow (value * radix + d) rest := by
  simp only [magnitude, digit?_digitChar hd hle]
  exact if_pos hvalue

/-- The digits of a number that fits are read as the number, whatever comes behind them. -/
lemma magnitude_toDigits {radix bound n : Nat} (hradix : 1 < radix) (hle : radix ≤ 16)
    (hn : n < bound) (overflow : Error) (rest : List Char) :
    magnitude radix bound overflow 0 (Nat.toDigits radix n ++ rest) =
      magnitude radix bound overflow n rest :=
  read_toDigits (f := magnitude radix bound overflow) hradix
    (fun _ _ _ hd hvalue => magnitude_digitChar hd hle hvalue overflow _) hn rest

/-- Zeros in front of other digits do not count. -/
lemma magnitude_replicate_zero {radix bound : Nat} (hradix : 0 < radix) (hle : radix ≤ 16)
    (hbound : 0 < bound) (overflow : Error) (k : Nat) (rest : List Char) :
    magnitude radix bound overflow 0 (List.replicate k '0' ++ rest) =
      magnitude radix bound overflow 0 rest := by
  induction k with
  | zero => rfl
  | succ k ih =>
    have hzero : 0 * radix + 0 = 0 := by rw [Nat.zero_mul]
    have hdigit := magnitude_digitChar hradix hle (hzero.symm ▸ hbound) overflow
      (List.replicate k '0' ++ rest)
    rw [List.replicate_succ, List.cons_append]
    exact hdigit.trans (by rw [hzero, ih])

/-- Without a sign only the digits count. -/
lemma unsigned_eq_magnitude {radix bound : Nat} {cs : List Char} (hne : cs ≠ [])
    (hsign : ∀ c ∈ cs, c ≠ '+') :
    unsigned radix bound cs = magnitude radix bound .tooLarge 0 cs := by
  unfold unsigned
  split
  · exact absurd rfl hne
  · exact absurd rfl (hsign '+' List.mem_cons_self)
  · exact absurd rfl (hsign '+' List.mem_cons_self)
  · rfl

/-- **Numerals are read back**, with any number of zeros in front. -/
theorem unsigned_toDigits {radix bound n : Nat} (hradix : 1 < radix) (hle : radix ≤ 16)
    (hn : n < bound) (k : Nat) :
    unsigned radix bound (List.replicate k '0' ++ Nat.toDigits radix n) = .ok n := by
  have hsign : ∀ c ∈ List.replicate k '0' ++ Nat.toDigits radix n, c ≠ '+' := by
    intro c hc
    rcases List.mem_append.mp hc with hmem | hmem
    · rw [List.eq_of_mem_replicate hmem]
      decide
    · obtain ⟨d, hd, rfl⟩ := exists_digit_of_mem_toDigits hradix hmem
      exact (digitChar_properties (Nat.lt_of_lt_of_le hd hle)).2.1
  rw [unsigned_eq_magnitude (by simp [Nat.toDigits_ne_nil]) hsign,
    magnitude_replicate_zero (by omega) hle (by omega)]
  have hdigits := magnitude_toDigits hradix hle hn .tooLarge []
  rwa [List.append_nil] at hdigits

/-! ### Which texts are numerals -/

/-- The character is a digit of the radix, which is at most sixteen, and stands for that value.  The
case of letters does not matter. -/
def IsDigit (radix : Nat) (c : Char) (d : Nat) : Prop :=
  d < radix ∧ (c = d.digitChar ∨ c = d.digitChar.toUpper)

/-- The text is a numeral for that number: at least one digit, the most significant one first, with
or without a plus sign in front. -/
def IsNumeral (radix : Nat) (cs : List Char) (n : Nat) : Prop :=
  ∃ digits, (cs = digits ∨ cs = '+' :: digits) ∧ digits ≠ [] ∧
    ∃ values, List.Forall₂ (IsDigit radix) digits values ∧ n = Nat.ofDigits radix values.reverse

/-- Digits and letters are ASCII. -/
lemma toNat_lt_of_digit? {radix d : Nat} {c : Char} (h : digit? radix c = some d) :
    c.toNat < 128 := by
  have hbelow : ∀ {e : Char}, c ≤ e → c.toNat ≤ e.toNat := fun hle => hle
  obtain ⟨h, -⟩ := Option.filter_eq_some_iff.mp h
  split_ifs at h with hdigit hlower hupper
  · exact (hbelow hdigit.2).trans_lt (by decide)
  · exact (hbelow hlower.2).trans_lt (by decide)
  · exact (hbelow hupper.2).trans_lt (by decide)

/-- A character has a value exactly if it is a digit for it. -/
lemma digit?_eq_some_iff {radix d : Nat} {c : Char} (hle : radix ≤ 16) :
    digit? radix c = some d ↔ IsDigit radix c d := by
  have hread : ∀ d < 16,
      digit? 16 d.digitChar = some d ∧ digit? 16 d.digitChar.toUpper = some d := by
    decide
  have hwritten : ∀ i < 128, ∀ d ∈ digit? 16 (Char.ofNat i),
      Char.ofNat i = d.digitChar ∨ Char.ofNat i = d.digitChar.toUpper := by decide +kernel
  have hfits : ∀ {e}, e ≤ 16 → (digit? e c = some d ↔ digit? 16 c = some d ∧ d < e) := by
    intro e he
    simp only [digit?, Option.filter_eq_some_iff, decide_eq_true_eq]
    exact ⟨fun h => ⟨⟨h.1, by omega⟩, h.2⟩, fun h => ⟨h.1.1, h.2⟩⟩
  rw [hfits hle]
  constructor
  · rintro ⟨hvalue, hd⟩
    have hsmall : c.toNat < 128 := toNat_lt_of_digit? hvalue
    have hc := hwritten c.toNat hsmall d
    rw [Char.ofNat_toNat] at hc
    exact ⟨hd, hc hvalue⟩
  · rintro ⟨hd, rfl | rfl⟩
    · exact ⟨(hread d (by omega)).1, hd⟩
    · exact ⟨(hread d (by omega)).2, hd⟩

/-- Digits only make a value larger. -/
lemma le_foldl_digits {radix : Nat} (hradix : 0 < radix) (values : List Nat) (value : Nat) :
    value ≤ values.foldl (fun n d => d + radix * n) value := by
  induction values generalizing value with
  | nil => exact Nat.le_refl value
  | cons d values ih =>
    have hstep : value ≤ d + radix * value :=
      (Nat.le_mul_of_pos_left value hradix).trans (Nat.le_add_left _ d)
    exact hstep.trans (ih _)

/-- What digits are read as, if they are read onto the value of the digits before them. -/
lemma magnitude_eq_ok_iff {radix bound value n : Nat} {overflow : Error} {cs : List Char}
    (hradix : 0 < radix) (hle : radix ≤ 16) (hvalue : value < bound) :
    magnitude radix bound overflow value cs = .ok n ↔ n < bound ∧
      ∃ values, List.Forall₂ (IsDigit radix) cs values ∧
        n = values.foldl (fun n d => d + radix * n) value := by
  induction cs generalizing value with
  | nil =>
    rw [magnitude, Except.ok.injEq]
    constructor
    · rintro rfl
      exact ⟨hvalue, [], .nil, rfl⟩
    · rintro ⟨-, values, hdigits, rfl⟩
      cases hdigits
      rfl
  | cons c cs ih =>
    constructor
    · intro h
      rw [magnitude] at h
      split at h
      · cases h
      · rename_i d hd
        split at h
        · rename_i hlt
          obtain ⟨hn, values, hdigits, hvalues⟩ := (ih hlt).mp h
          refine ⟨hn, d :: values, .cons ((digit?_eq_some_iff hle).mp hd) hdigits, ?_⟩
          rw [List.foldl_cons, Nat.add_comm, Nat.mul_comm, hvalues]
        · cases h
    · rintro ⟨hn, values, hdigits, hvalues⟩
      obtain ⟨d, others, hd, hothers, rfl⟩ := List.forall₂_cons_left_iff.mp hdigits
      rw [List.foldl_cons, Nat.add_comm, Nat.mul_comm] at hvalues
      have hlt : value * radix + d < bound :=
        (hvalues ▸ le_foldl_digits hradix others _).trans_lt hn
      simp only [magnitude, (digit?_eq_some_iff hle).mpr hd, if_pos hlt]
      exact (ih hlt).mpr ⟨hn, others, hothers, hvalues⟩

/-- A plus sign is no digit. -/
lemma not_isDigit_plus {radix d : Nat} (hle : radix ≤ 16) : ¬ IsDigit radix '+' d := by
  rw [← digit?_eq_some_iff hle]
  exact Option.some_ne_none d ∘ Eq.symm

/-- **Which texts are numerals that fit.** -/
theorem unsigned_eq_ok_iff {radix bound n : Nat} {cs : List Char} (hradix : 0 < radix)
    (hle : radix ≤ 16) (hbound : 0 < bound) :
    unsigned radix bound cs = .ok n ↔ n < bound ∧ IsNumeral radix cs n := by
  have hdigits : ∀ ds, magnitude radix bound .tooLarge 0 ds = .ok n ↔ n < bound ∧
      ∃ values, List.Forall₂ (IsDigit radix) ds values ∧
        n = Nat.ofDigits radix values.reverse := by
    intro ds
    simp only [magnitude_eq_ok_iff hradix hle hbound, Nat.ofDigits_eq_foldr, List.foldr_reverse,
      Nat.cast_id]
  have hplus : ∀ {ds values}, ¬ List.Forall₂ (IsDigit radix) ('+' :: ds) values := by
    intro ds values h
    obtain ⟨d, -, hd, -⟩ := List.forall₂_cons_left_iff.mp h
    exact not_isDigit_plus hle hd
  unfold unsigned
  split
  · refine ⟨nofun, ?_⟩
    rintro ⟨-, digits, heq | heq, hne, -⟩
    · exact absurd heq.symm hne
    · cases heq
  · refine ⟨nofun, ?_⟩
    rintro ⟨-, digits, heq | heq, hne, values, hvalues, -⟩
    · exact absurd (heq ▸ hvalues) hplus
    · exact absurd (List.cons.inj heq).2.symm hne
  · rename_i ds hne
    rw [hdigits]
    refine and_congr_right fun _ => ⟨fun h => ⟨ds, Or.inr rfl, hne, h⟩, ?_⟩
    rintro ⟨digits, heq | heq, -, values, hvalues, hn⟩
    · exact absurd (heq ▸ hvalues) hplus
    · rw [(List.cons.inj heq).2]
      exact ⟨values, hvalues, hn⟩
  · rename_i hempty _ hsign
    rw [hdigits]
    refine and_congr_right fun _ => ⟨fun h => ⟨cs, Or.inl rfl, hempty, h⟩, ?_⟩
    rintro ⟨digits, rfl | rfl, -, h⟩
    · exact h
    · exact absurd rfl (hsign _)

/-- The digits of a number are a numeral for it. -/
lemma isNumeral_toDigits {radix : Nat} (hradix : 1 < radix) (hle : radix ≤ 16) (n : Nat) :
    IsNumeral radix (Nat.toDigits radix n) n := by
  have hread := unsigned_toDigits hradix hle (Nat.lt_succ_self n) 0
  rw [List.replicate_zero, List.nil_append] at hread
  exact ((unsigned_eq_ok_iff (by omega) hle (Nat.succ_pos n)).mp hread).2

/-- Which texts are read as a number of a kind that holds all numbers below the bound. -/
lemma map_unsigned_eq_ok_iff {α : Type} {radix bound : Nat} {cs : List Char} {ofNat : Nat → α}
    {toNat : α → Nat} (hradix : 0 < radix) (hle : radix ≤ 16) (hlt : ∀ a, toNat a < bound)
    (hof : ∀ a, ofNat (toNat a) = a) (hto : ∀ n < bound, toNat (ofNat n) = n) {a : α} :
    (unsigned radix bound cs).map ofNat = .ok a ↔ IsNumeral radix cs (toNat a) := by
  have hread : ∀ n, unsigned radix bound cs = .ok n ↔ n < bound ∧ IsNumeral radix cs n :=
    fun n => unsigned_eq_ok_iff hradix hle (Nat.zero_lt_of_lt (hlt a))
  rw [map_eq_ok]
  constructor
  · rintro ⟨n, hn, rfl⟩
    obtain ⟨hsmall, hnumeral⟩ := (hread n).mp hn
    rwa [hto n hsmall]
  · exact fun hnumeral => ⟨_, (hread _).mpr ⟨hlt a, hnumeral⟩, hof a⟩

/-- Which texts are read as a number of sixty-four bits. -/
theorem uint64_eq_ok_iff {cs : List Char} {n : UInt64} :
    uint64 cs = .ok n ↔ IsNumeral 10 cs n.toNat :=
  map_unsigned_eq_ok_iff (by decide) (by decide) UInt64.toNat_lt_size
    (fun _ => UInt64.ofNat_toNat) fun _ => UInt64.toNat_ofNat_of_lt'

/-- Which texts are read as a number of thirty-two bits. -/
theorem uint32_eq_ok_iff {cs : List Char} {n : UInt32} :
    uint32 cs = .ok n ↔ IsNumeral 10 cs n.toNat :=
  map_unsigned_eq_ok_iff (by decide) (by decide) UInt32.toNat_lt_size
    (fun _ => UInt32.ofNat_toNat) fun _ => UInt32.toNat_ofNat_of_lt'

end Numeral

end Lockstep.Text
