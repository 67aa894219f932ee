import Lockstep.Json.Skip
import Lockstep.Proofs.Json.Grammar
import Mathlib.Data.List.Chain

/-!
# Texts as trees

A text says more than the value that it stands for: how its strings are escaped, how its numbers are
written, and which names an object repeats.  A tree keeps this and leaves out the gaps.  The grammar
says which texts a tree has, without a word about how they are read: the tokens of the tree follow
each other, each of them spelled in one of its ways, with gaps around them (`Tree.IsText`).

Each text of a tree is cut into the tokens of the tree (`Tree.IsText.tokens`), for a number is never
followed by something that it could go on with.  A tree that nobody looks at is skipped, whatever it
holds (`skip_tokens`).
-/

namespace Lockstep.Json

open Text.Numeral (IsDigit)

/-- A text without its gaps. -/
inductive Tree where
  | null
  | boolean (value : Bool)
  | number (literal : Literal)
  | string (pieces : List Piece)
  | array (elements : List Tree)
  | object (members : List (List Piece × Tree))

namespace Tree

mutual

/-- The tokens of a tree. -/
def tokens : Tree → List Token
  | .null => [.null]
  | .boolean value => [.boolean value]
  | .number literal => [.number literal]
  | .string pieces => [.string pieces]
  | .array elements => .beginArray :: elementTokens elements ++ [.endArray]
  | .object members => .beginObject :: memberTokens members ++ [.endObject]

/-- The tokens of elements and of the commas between them. -/
def elementTokens : List Tree → List Token
  | [] => []
  | [t] => t.tokens
  | t :: ts => t.tokens ++ .comma :: elementTokens ts

/-- The tokens of members and of the commas between them. -/
def memberTokens : List (List Piece × Tree) → List Token
  | [] => []
  | [(key, t)] => .string key :: .colon :: t.tokens
  | (key, t) :: ms => .string key :: .colon :: t.tokens ++ .comma :: memberTokens ms

end

end Tree

/-! ### How tokens are spelled -/

/-- The letters that stand for characters behind a backslash. -/
def letters : List (Char × Char) :=
  [('"', '"'), ('\\', '\\'), ('/', '/'), ('b', '\x08'), ('f', '\x0c'), ('n', '\n'), ('r', '\r'),
    ('t', '\t')]

/-- A part of a string is spelled: a character as it is or by a letter, or a code unit in four
digits. -/
inductive Piece.Spells : Piece → List Char → Prop where
  | plain {c : Char} (hquote : c ≠ '"') (hbackslash : c ≠ '\\') (hcontrol : 0x20 ≤ c.toNat) :
    Spells (.char c) [c]
  | letter {e c : Char} (h : (e, c) ∈ letters) : Spells (.char c) ['\\', e]
  | unit {a b c d : Char} {i j k l : Nat} (ha : IsDigit 16 a i) (hb : IsDigit 16 b j)
    (hc : IsDigit 16 c k) (hd : IsDigit 16 d l) :
    Spells (.unit (((i * 16 + j) * 16 + k) * 16 + l)) ['\\', 'u', a, b, c, d]

/-- Parts of a string are spelled one after the other. -/
inductive Piece.SpellAll : List Piece → List Char → Prop where
  | nil : SpellAll [] []
  | cons {piece : Piece} {pieces : List Piece} {cs ds : List Char} (h : piece.Spells cs)
    (hrest : SpellAll pieces ds) : SpellAll (piece :: pieces) (cs ++ ds)

/-- Parts of a string stand for characters: a character for itself, a code unit for the character of
its number, and two halves of a pair for a character that needs both. -/
inductive Piece.StandFor : List Piece → List Char → Prop where
  | nil : StandFor [] []
  | char {c : Char} {pieces : List Piece} {cs : List Char} (h : StandFor pieces cs) :
    StandFor (.char c :: pieces) (c :: cs)
  | unit {n : Nat} {pieces : List Piece} {cs : List Char} (hn : n < 0xd800 ∨ 0xe000 ≤ n)
    (h : StandFor pieces cs) : StandFor (.unit n :: pieces) (Char.ofNat n :: cs)
  | pair {high low : Nat} {pieces : List Piece} {cs : List Char}
    (hhigh : 0xd800 ≤ high ∧ high < 0xdc00) (hlow : 0xdc00 ≤ low ∧ low < 0xe000)
    (h : StandFor pieces cs) : StandFor (.unit high :: .unit low :: pieces)
      (Char.ofNat (0x10000 + (high - 0xd800) * 0x400 + (low - 0xdc00)) :: cs)

/-- At least one digit. -/
def IsDigits (cs : List Char) : Prop :=
  cs ≠ [] ∧ ∀ c ∈ cs, c.isDigit = true

/-- The digits behind the point are spelled, with the point if there are any. -/
inductive Literal.SpellsFraction : List Char → List Char → Prop where
  | none : SpellsFraction [] []
  | point {digits : List Char} (h : IsDigits digits) : SpellsFraction digits ('.' :: digits)

/-- The exponent is spelled, if there is one. -/
inductive Literal.SpellsExponent : Option (Bool × List Char) → List Char → Prop where
  | none : SpellsExponent none []
  | plain {e : Char} {digits : List Char} (he : e = 'e' ∨ e = 'E') (h : IsDigits digits) :
    SpellsExponent (some (false, digits)) (e :: digits)
  | plus {e : Char} {digits : List Char} (he : e = 'e' ∨ e = 'E') (h : IsDigits digits) :
    SpellsExponent (some (false, digits)) (e :: '+' :: digits)
  | minus {e : Char} {digits : List Char} (he : e = 'e' ∨ e = 'E') (h : IsDigits digits) :
    SpellsExponent (some (true, digits)) (e :: '-' :: digits)

/-- A number is spelled.  Only a single zero begins with zero. -/
inductive Literal.Spells : Literal → List Char → Prop where
  | mk {negative : Bool} {whole fraction fs es : List Char} {exponent : Option (Bool × List Char)}
    (hwhole : IsDigits whole) (hzero : whole.head? = some '0' → whole = ['0'])
    (hfraction : SpellsFraction fraction fs) (hexponent : SpellsExponent exponent es) :
    Spells ⟨negative, whole, fraction, exponent⟩
      ((if negative then ['-'] else []) ++ (whole ++ (fs ++ es)))

/-- A token is spelled. -/
inductive Token.Spells : Token → List Char → Prop where
  | beginObject : Spells .beginObject ['\x7b']
  | endObject : Spells .endObject ['\x7d']
  | beginArray : Spells .beginArray ['[']
  | endArray : Spells .endArray [']']
  | colon : Spells .colon [':']
  | comma : Spells .comma [',']
  | null : Spells .null "null".toList
  | yes : Spells (.boolean true) "true".toList
  | no : Spells (.boolean false) "false".toList
  | number {literal : Literal} {cs : List Char} (h : literal.Spells cs) :
    Spells (.number literal) cs
  | string {pieces : List Piece} {cs : List Char} (h : Piece.SpellAll pieces cs) :
    Spells (.string pieces) ('"' :: cs ++ ['"'])

/-- Tokens are spelled one after the other, with gaps around them. -/
inductive Token.SpellAll : List Token → List Char → Prop where
  | nil {gap : List Char} (hgap : IsGap gap) : SpellAll [] gap
  | cons {gap cs rest : List Char} {token : Token} {tokens : List Token} (hgap : IsGap gap)
    (h : token.Spells cs) (hrest : SpellAll tokens rest) :
    SpellAll (token :: tokens) (gap ++ (cs ++ rest))

/-- The characters are a text of the tree. -/
def Tree.IsText (t : Tree) (cs : List Char) : Prop :=
  Token.SpellAll t.tokens cs

/-! ### Strings -/

/-- A character has a value in a code unit exactly if it is a digit for it. -/
lemma hexDigit?_eq_some_iff {c : Char} {d : Nat} : hexDigit? c = some d ↔ IsDigit 16 c d := by
  rw [← Text.Numeral.digit?_eq_some_iff (Nat.le_refl 16)]
  have hsame : ∀ i < 128, hexDigit? (Char.ofNat i) = Text.Numeral.digit? 16 (Char.ofNat i) := by
    decide +kernel
  have hbelow : ∀ {e : Char}, c ≤ e → c.toNat ≤ e.toNat := fun hle => hle
  have hsmall : hexDigit? c = some d → c.toNat < 128 := by
    intro h
    unfold hexDigit? at h
    split_ifs at h with hdigit hlower hupper
    · exact (hbelow hdigit.2).trans_lt (by decide)
    · exact (hbelow hlower.2).trans_lt (by decide)
    · exact (hbelow hupper.2).trans_lt (by decide)
  constructor
  · intro h
    rw [← h, ← Char.ofNat_toNat c, hsame _ (hsmall h)]
  · intro h
    rw [← h, ← Char.ofNat_toNat c, hsame _ (Text.Numeral.toNat_lt_of_digit? h)]

/-- The parts of a string are read up to its closing quote. -/
lemma scanString_spellAll {pieces : List Piece} {cs : List Char} (h : Piece.SpellAll pieces cs)
    (rest : List Char) : scanString (cs ++ '"' :: rest) = ⟨pieces, none, rest⟩ := by
  induction h with
  | nil => rfl
  | @cons piece pieces cs ds h hrest ih =>
    have hpush : scanString (cs ++ (ds ++ '"' :: rest)) =
        (scanString (ds ++ '"' :: rest)).push piece := by
      cases h with
      | plain hquote hbackslash hcontrol =>
        exact scanString_plain hquote hbackslash (Nat.not_lt.mpr hcontrol) _
      | @letter e c h =>
        have hletters : ∀ l ∈ letters, l.1 ≠ 'u' ∧ unescaped? l.1 = some l.2 := by decide
        exact scanString_letter (hletters (e, c) h).1 (hletters (e, c) h).2 _
      | unit ha hb hc hd =>
        refine scanString_unit ?_ _
        simp only [unit?, hexDigit?_eq_some_iff.mpr ha, hexDigit?_eq_some_iff.mpr hb,
          hexDigit?_eq_some_iff.mpr hc, hexDigit?_eq_some_iff.mpr hd]
        rfl
    rw [List.append_assoc, hpush, ih]
    rfl

/-- **The parts of a string are read** as the characters that they stand for, if there are any. -/
theorem characters_eq_ok_iff {pieces : List Piece} {cs : List Char} :
    characters pieces none = .ok cs ↔ Piece.StandFor pieces cs := by
  constructor
  · intro h
    generalize hnone : (none : Option Fault) = fault at h
    fun_induction characters pieces fault generalizing cs with
    | case1 =>
      obtain rfl := Except.ok.inj h
      exact .nil
    | case3 c pieces fault ih =>
      obtain ⟨ds, hds, rfl⟩ := map_eq_ok.mp h
      exact .char (ih hnone hds)
    | case4 n pieces fault hn ih =>
      obtain ⟨ds, hds, rfl⟩ := map_eq_ok.mp h
      exact .unit hn (ih hnone hds)
    | case8 high fault hhalf hfirst low pieces hlow ih =>
      obtain ⟨ds, hds, rfl⟩ := map_eq_ok.mp h
      exact .pair (by omega) hlow (ih hnone hds)
    | _ => cases h
  · intro h
    induction h with
    | nil => rfl
    | char h ih =>
      rw [characters, ih]
      rfl
    | unit hn h ih =>
      rw [characters.eq_def]
      simp only [if_pos hn, ih]
      rfl
    | @pair high low pieces cs hhigh hlow h ih =>
      have hhalf : ¬ (high < 0xd800 ∨ 0xe000 ≤ high) := by omega
      have hfirst : ¬ 0xdc00 ≤ high := Nat.not_le.mpr hhigh.2
      rw [characters.eq_def]
      simp only [if_neg hhalf, if_neg hfirst, if_pos hlow, ih]
      rfl

/-! ### Numbers -/

/-- A digit is no other mark. -/
lemma isDigit_properties {c : Char} (h : c.isDigit = true) :
    isSpace c = false ∧ punctuation? c = none ∧ c ≠ '"' ∧ c ≠ '-' ∧ c ≠ '+' := by
  have hall : ∀ n < 58, 48 ≤ n → isSpace (Char.ofNat n) = false ∧
      punctuation? (Char.ofNat n) = none ∧ Char.ofNat n ≠ '"' ∧ Char.ofNat n ≠ '-' ∧
      Char.ofNat n ≠ '+' := by decide
  have hbounds : 48 ≤ c.toNat ∧ c.toNat ≤ 57 := by
    simpa [Char.isDigit, UInt32.le_iff_toNat_le] using h
  have hc := hall c.toNat (by omega) hbounds.1
  rwa [Char.ofNat_toNat] at hc

/-- Digits are taken up to the next character that is none. -/
lemma IsDigits.scanDigits {digits rest : List Char} (h : IsDigits digits)
    (hrest : ∀ c ∈ rest.head?, c.isDigit = false) :
    scanDigits (digits ++ rest) = .ok (digits, rest) :=
  scanDigits_append h.1 h.2 hrest

/-- An exponent is taken up to the end of its number. -/
lemma scanOptionalExponent_spells {exponent : Option (Bool × List Char)} {cs rest : List Char}
    (h : Literal.SpellsExponent exponent cs) (hrest : EndsNumber rest) :
    scanOptionalExponent (cs ++ rest) = .ok (exponent, rest) := by
  have hdigits : ∀ negative {digits}, IsDigits digits →
      scanSigned negative (digits ++ rest) = .ok (some (negative, digits), rest) := by
    intro negative digits h
    rw [scanSigned, h.scanDigits fun c hc => (hrest c hc).1]
    rfl
  cases h with
  | none =>
    rw [List.nil_append]
    unfold scanOptionalExponent
    split
    · exact absurd rfl (hrest 'e' rfl).2.2.1
    · exact absurd rfl (hrest 'E' rfl).2.2.2
    · rfl
  | @plain e digits he h =>
    have hsign : scanExponent (digits ++ rest) = .ok (some (false, digits), rest) := by
      obtain ⟨c, cs, rfl⟩ := List.exists_cons_of_ne_nil h.1
      obtain ⟨-, -, -, hminus, hplus⟩ := isDigit_properties (h.2 c List.mem_cons_self)
      rw [← hdigits false h, List.cons_append]
      unfold scanExponent
      split
      · exact absurd (List.cons.inj ‹_›).1 hplus
      · exact absurd (List.cons.inj ‹_›).1 hminus
      · rfl
    rcases he with rfl | rfl <;> exact hsign
  | @plus e digits he h => rcases he with rfl | rfl <;> exact hdigits false h
  | @minus e digits he h => rcases he with rfl | rfl <;> exact hdigits true h

/-- Behind the digits before its point a number goes on with no digit. -/
lemma head?_exponent {exponent : Option (Bool × List Char)} {cs rest : List Char}
    (h : Literal.SpellsExponent exponent cs) (hrest : EndsNumber rest) :
    ∀ c ∈ (cs ++ rest).head?, c.isDigit = false ∧ c ≠ '.' := by
  have hletter : ∀ {e : Char} {ds : List Char}, e = 'e' ∨ e = 'E' →
      ∀ c ∈ (e :: ds).head?, c.isDigit = false ∧ c ≠ '.' := by
    intro e ds he c hc
    obtain rfl : e = c := Option.some.inj hc
    rcases he with rfl | rfl <;> decide
  cases h with
  | none => exact fun c hc => ⟨(hrest c hc).1, (hrest c hc).2.1⟩
  | plain he h => exact hletter he
  | plus he h => exact hletter he
  | minus he h => exact hletter he

/-- A fraction is taken up to the exponent or the end of its number. -/
lemma scanFraction_spells {fraction cs rest : List Char} (h : Literal.SpellsFraction fraction cs)
    (hrest : ∀ c ∈ rest.head?, c.isDigit = false ∧ c ≠ '.') :
    scanFraction (cs ++ rest) = .ok (fraction, rest) := by
  cases h with
  | none =>
    rw [List.nil_append]
    unfold scanFraction
    split
    · exact absurd rfl (hrest '.' rfl).2
    · rfl
  | point h => exact h.scanDigits fun c hc => (hrest c hc).1

/-- A number is taken up to its end. -/
lemma scanNumber_spells (negative : Bool) {whole fraction fs es rest : List Char}
    {exponent : Option (Bool × List Char)} (hwhole : IsDigits whole)
    (hzero : whole.head? = some '0' → whole = ['0'])
    (hfraction : Literal.SpellsFraction fraction fs)
    (hexponent : Literal.SpellsExponent exponent es) (hrest : EndsNumber rest) :
    scanNumber negative (whole ++ (fs ++ (es ++ rest))) =
      .ok (⟨negative, whole, fraction, exponent⟩, rest) := by
  have hbehind := head?_exponent hexponent hrest
  have hpoint : ∀ c ∈ (fs ++ (es ++ rest)).head?, c.isDigit = false := by
    cases hfraction with
    | none => exact fun c hc => (hbehind c hc).1
    | point h =>
      intro c hc
      obtain rfl : '.' = c := Option.some.inj hc
      decide
  have hzeros : ¬ (whole.head? = some '0' ∧ whole ≠ ['0']) := fun h => h.2 (hzero h.1)
  simp only [scanNumber, hwhole.scanDigits hpoint, if_neg hzeros,
    scanFraction_spells hfraction hbehind, scanOptionalExponent_spells hexponent hrest]

/-! ### Texts -/

/-- A number is one token. -/
lemma tokens_literal {literal : Literal} {cs rest : List Char} (h : literal.Spells cs)
    (hrest : EndsNumber rest) : tokens (cs ++ rest) = .number literal :: tokens rest := by
  obtain @⟨negative, whole, fraction, fs, es, exponent, hwhole, hzero, hfraction, hexponent⟩ := h
  have hscan := scanNumber_spells negative hwhole hzero hfraction hexponent hrest
  simp only [List.append_assoc]
  cases negative with
  | true =>
    refine tokens_number (by decide) (by decide) (by decide) (Or.inl rfl) ?_
    exact hscan
  | false =>
    obtain ⟨c, ds, rfl⟩ := List.exists_cons_of_ne_nil hwhole.1
    have hdigit := hwhole.2 c List.mem_cons_self
    obtain ⟨hspace, hmark, hquote, hminus, -⟩ := isDigit_properties hdigit
    refine tokens_number hspace hmark hquote (Or.inr hdigit) ?_
    rw [if_neg hminus, decide_eq_false hminus]
    exact hscan

/-- What comes behind a value: a comma, the end of an array or the end of an object. -/
def Token.FollowsValue : Token → Prop
  | .comma | .endArray | .endObject => True
  | _ => False

/-- Behind a number comes nothing but what comes behind a value. -/
def Token.MayFollow : Token → Token → Prop
  | .number _, next => next.FollowsValue
  | _, _ => True

/-- A spelled token is cut off, if a number ends where it should. -/
lemma Token.Spells.tokens {token : Token} {cs rest : List Char} (h : token.Spells cs)
    (hends : ∀ literal, token = .number literal → EndsNumber rest) :
    Json.tokens (cs ++ rest) = token :: Json.tokens rest := by
  cases h with
  | beginObject | endObject | beginArray | endArray | colon | comma =>
    exact tokens_punctuation (by decide) rfl rest
  | null | yes | no =>
    exact tokens_word (by decide) (by decide) (by decide) (by decide) rfl rest
  | number h => exact tokens_literal h (hends _ rfl)
  | @string pieces cs h =>
    have htext : '"' :: cs ++ ['"'] ++ rest = '"' :: (cs ++ '"' :: rest) := by simp
    rw [htext, tokens_quote (scanString_spellAll h rest)]

/-- A number ends before tokens that come behind a value. -/
lemma Token.SpellAll.endsNumber {ts : List Token} {cs : List Char} (h : Token.SpellAll ts cs)
    (hts : ∀ token ∈ ts.head?, token.FollowsValue) : EndsNumber cs := by
  cases h with
  | nil hgap =>
    have hnothing : EndsNumber [] := fun _ hc => absurd hc (Option.not_mem_none _)
    have hend := endsNumber_gap hgap hnothing
    rwa [List.append_nil] at hend
  | @cons gap cs rest token ts hgap h hrest =>
    refine endsNumber_gap hgap ?_
    have hfollows := hts token rfl
    cases h with
    | comma => exact Value.endsNumber_cons (Or.inl rfl) rest
    | endArray => exact Value.endsNumber_cons (Or.inr (Or.inl rfl)) rest
    | endObject => exact Value.endsNumber_cons (Or.inr (Or.inr rfl)) rest
    | _ => exact absurd hfollows id

/-- Spelled tokens are cut off one after the other, if numbers end where they should. -/
lemma Token.SpellAll.tokens {ts : List Token} {cs : List Char} (h : Token.SpellAll ts cs)
    (hchain : ts.IsChain Token.MayFollow) : Json.tokens cs = ts := by
  induction h with
  | nil hgap =>
    have htokens := tokens_gap hgap []
    rwa [List.append_nil, Json.tokens] at htokens
  | @cons gap cs rest token ts hgap h hrest ih =>
    rw [tokens_gap hgap, h.tokens, ih hchain.tail]
    rintro literal rfl
    refine hrest.endsNumber fun next hnext => ?_
    obtain ⟨us, rfl⟩ := List.head?_eq_some_iff.mp hnext
    exact (List.isChain_cons_cons.mp hchain).1

/-- Anything may stand behind what is no number. -/
lemma isChain_cons {token : Token} {rest : List Token}
    (htoken : ∀ next, token.MayFollow next) (hrest : rest.IsChain Token.MayFollow) :
    (token :: rest).IsChain Token.MayFollow :=
  List.isChain_cons.mpr ⟨fun next _ => htoken next, hrest⟩

/-- The tokens can stand where a value is: before the end, and before what comes behind a value. -/
def IsPlaced (ts : List Token) : Prop :=
  ∀ rest : List Token, (∀ token ∈ rest.head?, token.FollowsValue) →
    rest.IsChain Token.MayFollow → (ts ++ rest).IsChain Token.MayFollow

/-- One token can. -/
lemma isPlaced_singleton (token : Token) : IsPlaced [token] := by
  intro rest hfollows hrest
  refine List.isChain_cons.mpr ⟨fun next hnext => ?_, hrest⟩
  cases token with
  | number literal => exact hfollows next hnext
  | _ => trivial

/-- Tokens in brackets can, if those between the brackets can. -/
lemma IsPlaced.bracketed {ts : List Token} {first last : Token} (h : IsPlaced ts)
    (hfirst : ∀ next, first.MayFollow next) (hlast : last.FollowsValue)
    (hbehind : ∀ next, last.MayFollow next) : IsPlaced (first :: ts ++ [last]) := by
  intro rest _ hrest
  rw [List.append_assoc, List.cons_append, List.singleton_append]
  refine isChain_cons hfirst (h _ (fun token htoken => ?_) (isChain_cons hbehind hrest))
  obtain rfl := Option.some.inj htoken
  exact hlast

/-- Tokens before a comma can, if those before it and those behind it can. -/
lemma IsPlaced.comma {ts us : List Token} (h : IsPlaced ts) (hus : IsPlaced us) :
    IsPlaced (ts ++ .comma :: us) := by
  intro rest hfollows hrest
  rw [List.append_assoc, List.cons_append]
  refine h _ (fun token htoken => ?_) (isChain_cons (fun _ => trivial) (hus rest hfollows hrest))
  obtain rfl := Option.some.inj htoken
  trivial

/-- The tokens behind the name of a member can, together with the name. -/
lemma IsPlaced.member {ts : List Token} (h : IsPlaced ts) (key : List Piece) :
    IsPlaced (.string key :: .colon :: ts) := by
  intro rest hfollows hrest
  exact isChain_cons (fun _ => trivial) (isChain_cons (fun _ => trivial) (h rest hfollows hrest))

namespace Tree

mutual

theorem isPlaced_tokens : ∀ t : Tree, IsPlaced t.tokens
  | .null => isPlaced_singleton _
  | .boolean _ => isPlaced_singleton _
  | .number _ => isPlaced_singleton _
  | .string _ => isPlaced_singleton _
  | .array elements =>
    (isPlaced_elementTokens elements).bracketed (fun _ => trivial) trivial fun _ => trivial
  | .object members =>
    (isPlaced_memberTokens members).bracketed (fun _ => trivial) trivial fun _ => trivial

theorem isPlaced_elementTokens : ∀ ts : List Tree, IsPlaced (elementTokens ts)
  | [] => fun _ _ hrest => hrest
  | [t] => isPlaced_tokens t
  | t :: u :: ts => (isPlaced_tokens t).comma (isPlaced_elementTokens (u :: ts))

theorem isPlaced_memberTokens : ∀ ms : List (List Piece × Tree), IsPlaced (memberTokens ms)
  | [] => fun _ _ hrest => hrest
  | [(key, t)] => (isPlaced_tokens t).member key
  | (key, t) :: m :: ms =>
    ((isPlaced_tokens t).member key).comma (isPlaced_memberTokens (m :: ms))

end

/-- **A text of a tree** is cut into the tokens of the tree. -/
theorem IsText.tokens {t : Tree} {cs : List Char} (h : t.IsText cs) :
    Json.tokens cs = t.tokens := by
  have hchain := t.isPlaced_tokens [] (fun _ hc => absurd hc (Option.not_mem_none _)) .nil
  rw [List.append_nil] at hchain
  exact Token.SpellAll.tokens h hchain

end Tree

/-! ### Trees of values -/

namespace Value

mutual

/-- The tree of a value without doubles, as the value is written. -/
def tree : Value → Tree
  | .null => .null
  | .boolean value => .boolean value
  | .integer value => .number ⟨value < 0, Nat.toDigits 10 value.natAbs, [], none⟩
  | .real _ => .null
  | .string value => .string (value.toList.map .ofChar)
  | .array elements => .array (elementTrees elements)
  | .object members => .object (memberTrees members)

/-- The trees of elements. -/
def elementTrees : List Value → List Tree
  | [] => []
  | a :: as => a.tree :: elementTrees as

/-- The names of members and the trees of their values. -/
def memberTrees : List (String × Value) → List (List Piece × Tree)
  | [] => []
  | (name, a) :: as => (name.toList.map .ofChar, a.tree) :: memberTrees as

end

/-- The trees of members are those of each of them. -/
lemma memberTrees_eq_map (ms : List (String × Value)) :
    memberTrees ms = ms.map fun m => (m.1.toList.map .ofChar, m.2.tree) := by
  induction ms with
  | nil => rfl
  | cons m ms ih => rw [memberTrees, List.map_cons, ih]

/-- The trees of elements are those of each of them. -/
lemma elementTrees_eq_map (as : List Value) : elementTrees as = as.map tree := by
  induction as with
  | nil => rfl
  | cons a as ih => rw [elementTrees, List.map_cons, ih]

/-- A number that is not negative is written in its digits. -/
lemma tree_natural (n : Nat) :
    (natural n).tree = .number ⟨false, Nat.toDigits 10 n, [], none⟩ := by
  have hpositive : decide ((n : Int) < 0) = false :=
    decide_eq_false (Int.not_lt.mpr (Int.natCast_nonneg n))
  rw [natural, tree, hpositive, Int.natAbs_natCast]

mutual

/-- A value has the tokens of its tree. -/
theorem tokens_tree : ∀ {a : Value}, a.IsExact → a.tree.tokens = a.tokens
  | .null, _ => rfl
  | .boolean _, _ => rfl
  | .integer _, _ => rfl
  | .string _, _ => rfl
  | .array _, h => by rw [tree, Tree.tokens, tokens, tokens_elementTrees h]
  | .object _, h => by rw [tree, Tree.tokens, tokens, tokens_memberTrees h]

theorem tokens_elementTrees : ∀ {as : List Value}, AllExact as →
    Tree.elementTokens (elementTrees as) = elementTokens as
  | [], _ => rfl
  | [_], h => tokens_tree h.1
  | a :: b :: as, h => by
    have hothers := tokens_elementTrees h.2
    rw [elementTrees] at hothers
    rw [elementTrees, elementTrees, Tree.elementTokens, tokens_tree h.1, hothers]
    · rfl
    · exact List.cons_ne_nil _ _

theorem tokens_memberTrees : ∀ {ms : List (String × Value)}, MembersExact ms →
    Tree.memberTokens (memberTrees ms) = memberTokens ms
  | [], _ => rfl
  | [(_, _)], h => by rw [memberTrees, memberTrees, Tree.memberTokens, tokens_tree h.1]; rfl
  | (_, a) :: (_, _) :: ms, h => by
    have hothers := tokens_memberTrees h.2
    rw [memberTrees] at hothers
    rw [memberTrees, memberTrees, Tree.memberTokens, tokens_tree h.1, hothers]
    · rfl
    · exact List.cons_ne_nil _ _

end

end Value

namespace Tree

/-- The tokens of a tree begin, and not with the end of an array. -/
lemma exists_tokens_eq_cons (t : Tree) : ∃ u us, t.tokens = u :: us ∧ u ≠ .endArray := by
  cases t <;> exact ⟨_, _, rfl, Token.noConfusion⟩

/-- The tokens of elements begin, and not with the end of their array. -/
lemma exists_elementTokens_eq_cons (t : Tree) (ts : List Tree) (rest : List Token) :
    ∃ u us, elementTokens (t :: ts) ++ rest = u :: us ∧ u ≠ .endArray := by
  obtain ⟨u, us, hus, hu⟩ := t.exists_tokens_eq_cons
  cases ts with
  | nil => exact ⟨u, us ++ rest, by rw [elementTokens, hus, List.cons_append], hu⟩
  | cons v ts =>
    refine ⟨u, us ++ .comma :: elementTokens (v :: ts) ++ rest, ?_, hu⟩
    rw [elementTokens, hus, List.cons_append, List.cons_append]
    exact List.cons_ne_nil _ _

/-! ### Trees that nobody looks at -/

/-- Where an element can come first, it is gone over like any other value. -/
lemma run_first {token : Token} (htoken : token ≠ .endArray) (frames : List Frame)
    (rest : List Token) :
    Skipping.run ⟨.first, .array :: frames⟩ (token :: rest) =
      Skipping.run ⟨.value, .array :: frames⟩ (token :: rest) := by
  cases token with
  | endArray => exact absurd rfl htoken
  | _ => rfl

mutual

/-- A tree where a value has to come is gone over. -/
theorem run_tokens : ∀ (t : Tree) (frames : List Frame) (rest : List Token),
    Skipping.run ⟨.value, frames⟩ (t.tokens ++ rest) = Skipping.run ⟨.next, frames⟩ rest
  | .null, _, _ => rfl
  | .boolean _, _, _ => rfl
  | .number _, _, _ => rfl
  | .string _, _, _ => rfl
  | .array [], _, _ => rfl
  | .array (t :: ts), frames, rest => by
    have h := run_elementTokens (t :: ts) (List.cons_ne_nil _ _) frames rest
    obtain ⟨u, us, hus, hu⟩ := exists_elementTokens_eq_cons t ts (.endArray :: rest)
    rw [tokens, List.cons_append, List.cons_append, List.append_assoc, List.singleton_append]
    rw [hus] at h ⊢
    exact (run_first hu frames us).trans h
  | .object [], _, _ => rfl
  | .object (m :: ms), frames, rest => by
    have h := run_memberTokens (m :: ms) (List.cons_ne_nil _ _) frames rest
    rw [tokens, List.cons_append, List.cons_append, List.append_assoc, List.singleton_append]
    cases ms <;> exact h

/-- Elements are gone over up to the end of their array. -/
theorem run_elementTokens : ∀ ts : List Tree, ts ≠ [] → ∀ (frames : List Frame)
    (rest : List Token),
    Skipping.run ⟨.value, .array :: frames⟩ (elementTokens ts ++ .endArray :: rest) =
      Skipping.run ⟨.next, frames⟩ rest
  | [], hne, _, _ => absurd rfl hne
  | [t], _, frames, rest => run_tokens t (.array :: frames) (.endArray :: rest)
  | t :: u :: ts, _, frames, rest => by
    have h := run_tokens t (.array :: frames)
      (.comma :: (elementTokens (u :: ts) ++ .endArray :: rest))
    simp only [elementTokens, List.append_assoc, List.cons_append] at h ⊢
    exact h.trans (run_elementTokens (u :: ts) (List.cons_ne_nil _ _) frames rest)

/-- Members are gone over up to the end of their object. -/
theorem run_memberTokens : ∀ ms : List (List Piece × Tree), ms ≠ [] →
    ∀ (frames : List Frame) (rest : List Token),
    Skipping.run ⟨.key, .object :: frames⟩ (memberTokens ms ++ .endObject :: rest) =
      Skipping.run ⟨.next, frames⟩ rest
  | [], hne, _, _ => absurd rfl hne
  | [(_, t)], _, frames, rest => run_tokens t (.object :: frames) (.endObject :: rest)
  | (_, t) :: m :: ms, _, frames, rest => by
    have h := run_tokens t (.object :: frames)
      (.comma :: (memberTokens (m :: ms) ++ .endObject :: rest))
    simp only [memberTokens, List.append_assoc, List.cons_append] at h ⊢
    exact h.trans (run_memberTokens (m :: ms) (List.cons_ne_nil _ _) frames rest)

end

/-- **A tree is skipped**, whatever it holds and however deep it is. -/
theorem skip_tokens (t : Tree) (rest : List Token) : skip (t.tokens ++ rest) = .ok rest := by
  rw [skip, t.run_tokens]
  cases rest <;> rfl

end Tree

end Lockstep.Json
