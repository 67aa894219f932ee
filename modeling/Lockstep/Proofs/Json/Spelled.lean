import Lockstep.Proofs.Attempt
import Lockstep.Proofs.Json.Tree

/-!
# Tokens are spelled in a text

What is cut off a text as a token spells the token, and between the tokens there are gaps
(`Token.spellAll_tokens`).  So the texts of a tree are exactly those that are cut into its tokens
(`Tree.isText_iff`), and whether a text is one of them can be computed.
-/

namespace Lockstep.Json

open Text.Numeral (IsDigit)

/-- The token is whole: no fault was found where it stands. -/
def Token.IsWhole : Token → Prop
  | .brokenString _ _ | .brokenNumber _ | .broken _ => False
  | _ => True

/-! ### Strings -/

/-- Four digits spell a code unit. -/
lemma spells_unit {a b c d : Char} {n : Nat} (h : unit? a b c d = some n) :
    (Piece.unit n).Spells ['\\', 'u', a, b, c, d] := by
  simp only [unit?, Option.bind_eq_bind, Option.bind_eq_some_iff, hexDigit?_eq_some_iff] at h
  obtain ⟨i, hi, j, hj, k, hk, l, hl, heq⟩ := h
  obtain rfl := Option.some.inj heq
  exact .unit hi hj hk hl

/-- A letter behind a backslash stands for a character. -/
lemma mem_letters {e c : Char} (h : unescaped? e = some c) : (e, c) ∈ letters := by
  unfold unescaped? at h
  split at h <;> first | cases h; decide | cases h

/-- What is read of a string up to its quote spells its parts. -/
lemma exists_of_scanString {cs : List Char} (h : (scanString cs).fault = none) :
    ∃ ds, Piece.SpellAll (scanString cs).pieces ds ∧ cs = ds ++ '"' :: (scanString cs).rest := by
  fun_induction scanString cs with
  | case2 rest => exact ⟨[], .nil, rfl⟩
  | case3 a b c d rest number hunit ih =>
    obtain ⟨ds, hds, heq⟩ := ih h
    exact ⟨_, .cons (spells_unit hunit) hds, by simpa [Scanned.push] using heq⟩
  | case7 e rest _ _ c hc ih =>
    obtain ⟨ds, hds, heq⟩ := ih h
    exact ⟨_, .cons (.letter (mem_letters hc)) hds, by simpa [Scanned.push] using heq⟩
  | case10 c rest hquote _ _ hlast hbackslash hcontrol ih =>
    obtain ⟨ds, hds, heq⟩ := ih h
    have hplain : c ≠ '\\' := by
      rintro rfl
      cases rest with
      | nil => exact hlast rfl rfl
      | cons e rest => exact hbackslash e rest rfl rfl
    exact ⟨_, .cons (.plain hquote hplain (Nat.not_lt.mp hcontrol)) hds,
      by simpa [Scanned.push] using heq⟩
  | _ => cases h

/-! ### Numbers -/

/-- Digits that are taken are the beginning of the text. -/
lemma isDigits_of_scanDigits {cs digits rest : List Char}
    (h : scanDigits cs = .ok (digits, rest)) : IsDigits digits ∧ cs = digits ++ rest := by
  unfold scanDigits at h
  dsimp only at h
  split at h
  · cases h
  · rename_i hsome
    obtain ⟨rfl, rfl⟩ := Prod.mk.inj (Except.ok.inj h)
    refine ⟨⟨fun hnil => hsome (by rw [hnil]; rfl), fun c hc => ?_⟩,
      List.takeWhile_append_dropWhile.symm⟩
    exact List.all_eq_true.mp List.all_takeWhile c hc

/-- A fraction that is taken is spelled. -/
lemma exists_of_scanFraction {cs fraction rest : List Char}
    (h : scanFraction cs = .ok (fraction, rest)) :
    ∃ ds, Literal.SpellsFraction fraction ds ∧ cs = ds ++ rest := by
  unfold scanFraction at h
  split at h
  · obtain ⟨hdigits, rfl⟩ := isDigits_of_scanDigits h
    exact ⟨_, .point hdigits, rfl⟩
  · obtain ⟨rfl, rfl⟩ := Prod.mk.inj (Except.ok.inj h)
    exact ⟨[], .none, rfl⟩

/-- The digits of an exponent that are taken are those behind its sign. -/
lemma exists_of_scanSigned {negative : Bool} {cs rest : List Char}
    {exponent : Option (Bool × List Char)} (h : scanSigned negative cs = .ok (exponent, rest)) :
    ∃ digits, exponent = some (negative, digits) ∧ IsDigits digits ∧ cs = digits ++ rest := by
  obtain ⟨⟨digits, us⟩, hscan, heq⟩ := map_eq_ok.mp h
  obtain ⟨rfl, rfl⟩ := Prod.mk.inj heq
  exact ⟨digits, rfl, isDigits_of_scanDigits hscan⟩

/-- An exponent that is taken is spelled behind its letter. -/
lemma exists_of_scanExponent {e : Char} (he : e = 'e' ∨ e = 'E') {cs rest : List Char}
    {exponent : Option (Bool × List Char)} (h : scanExponent cs = .ok (exponent, rest)) :
    ∃ ds, Literal.SpellsExponent exponent ds ∧ e :: cs = ds ++ rest := by
  unfold scanExponent at h
  split at h
  all_goals obtain ⟨digits, rfl, hdigits, rfl⟩ := exists_of_scanSigned h
  · exact ⟨_, .plus he hdigits, rfl⟩
  · exact ⟨_, .minus he hdigits, rfl⟩
  · exact ⟨_, .plain he hdigits, rfl⟩

/-- An exponent that is taken, or none, is spelled. -/
lemma exists_of_scanOptionalExponent {cs rest : List Char} {exponent : Option (Bool × List Char)}
    (h : scanOptionalExponent cs = .ok (exponent, rest)) :
    ∃ ds, Literal.SpellsExponent exponent ds ∧ cs = ds ++ rest := by
  unfold scanOptionalExponent at h
  split at h
  · exact exists_of_scanExponent (.inl rfl) h
  · exact exists_of_scanExponent (.inr rfl) h
  · obtain ⟨rfl, rfl⟩ := Prod.mk.inj (Except.ok.inj h)
    exact ⟨[], .none, rfl⟩

/-- A number that is taken is spelled behind its sign. -/
lemma exists_of_scanNumber {negative : Bool} {cs rest : List Char} {literal : Literal}
    (h : scanNumber negative cs = .ok (literal, rest)) :
    ∃ ds, literal.Spells ((if negative then ['-'] else []) ++ ds) ∧ cs = ds ++ rest := by
  unfold scanNumber at h
  split at h
  · cases h
  · rename_i whole us hwhole
    split at h
    · cases h
    · rename_i hzero
      split at h
      · cases h
      · rename_i fraction vs hfraction
        split at h
        · cases h
        · rename_i exponent ws hexponent
          obtain ⟨rfl, rfl⟩ := Prod.mk.inj (Except.ok.inj h)
          obtain ⟨hdigits, rfl⟩ := isDigits_of_scanDigits hwhole
          obtain ⟨fs, hfs, rfl⟩ := exists_of_scanFraction hfraction
          obtain ⟨es, hes, rfl⟩ := exists_of_scanOptionalExponent hexponent
          refine ⟨_, .mk hdigits (fun hhead => ?_) hfs hes, by simp only [List.append_assoc]⟩
          exact Classical.not_not.mp fun hne => hzero ⟨hhead, hne⟩

/-! ### Tokens -/

/-- The rest of a word that has to be there is there. -/
lemma eq_of_scanWord {word cs rest : List Char} (h : scanWord word cs = .ok rest) :
    cs = word ++ rest := by
  fun_induction scanWord word cs with
  | case1 cs => exact Except.ok.inj h
  | case3 w word cs ih => rw [ih h, List.cons_append]
  | _ => cases h

/-- A gap in front of a text makes no difference. -/
lemma Token.SpellAll.gap {ts : List Token} {gap cs : List Char} (hgap : IsGap gap)
    (h : Token.SpellAll ts cs) : Token.SpellAll ts (gap ++ cs) := by
  have hboth : ∀ {gap' : List Char}, IsGap gap' → IsGap (gap ++ gap') := by
    intro gap' hgap' c hc
    exact (List.mem_append.mp hc).elim (hgap c) (hgap' c)
  cases h with
  | nil hgap' => exact .nil (hboth hgap')
  | cons hgap' h hrest =>
    rw [← List.append_assoc]
    exact .cons (hboth hgap') h hrest

/-- A token in front of tokens is spelled without a gap. -/
lemma Token.SpellAll.push {token : Token} {ts : List Token} {cs rest : List Char}
    (h : token.Spells cs) (hrest : Token.SpellAll ts rest) :
    Token.SpellAll (token :: ts) (cs ++ rest) :=
  .cons isGap_nil h hrest

/-- Punctuation marks spell their tokens. -/
lemma spells_punctuation {c : Char} {token : Token} (h : punctuation? c = some token) :
    token.Spells [c] := by
  unfold punctuation? at h
  split at h
  · cases h; exact .beginObject
  · cases h; exact .endObject
  · cases h; exact .beginArray
  · cases h; exact .endArray
  · cases h; exact .colon
  · cases h; exact .comma
  · cases h

/-- Words spell their tokens. -/
lemma spells_word {c : Char} {word : List Char} {token : Token}
    (h : word? c = some (word, token)) : token.Spells (c :: word) := by
  unfold word? at h
  split at h
  · cases h; exact .null
  · cases h; exact .yes
  · cases h; exact .no
  · cases h

/-- **Whole tokens are spelled** in the text that they were cut off from. -/
theorem Token.spellAll_tokens {cs : List Char} (h : ∀ token ∈ Json.tokens cs, token.IsWhole) :
    Token.SpellAll (Json.tokens cs) cs := by
  fun_induction Json.tokens cs with
  | case1 => exact .nil isGap_nil
  | case2 c cs hspace ih =>
    have hgap : IsGap [c] := fun d hd => List.mem_singleton.mp hd ▸ hspace
    exact (ih h).gap hgap
  | case3 c cs hspace token hmark ih =>
    exact .push (spells_punctuation hmark) (ih (List.forall_mem_cons.mp h).2)
  | case4 cs hfault hspace hmark ih =>
    obtain ⟨ds, hds, heq⟩ := exists_of_scanString hfault
    have hspelled := Token.SpellAll.push (.string hds) (ih (List.forall_mem_cons.mp h).2)
    have htext : '"' :: cs = '"' :: ds ++ ['"'] ++ (scanString cs).rest := by
      rw [List.append_assoc, List.singleton_append, List.cons_append, ← heq]
    rwa [htext]
  | case6 c cs hspace hquote hstart literal rest hscan hmark ih =>
    obtain ⟨ds, hds, heq⟩ := exists_of_scanNumber hscan
    have hspelled := Token.SpellAll.push (.number hds) (ih (List.forall_mem_cons.mp h).2)
    have htext : c :: cs = (if decide (c = '-') then ['-'] else []) ++ ds ++ rest := by
      rw [List.append_assoc, ← heq]
      by_cases hc : c = '-'
      · simp [hc]
      · simp [hc]
    rwa [htext]
  | case9 c cs hspace hquote hstart word token hword rest hscan hmark ih =>
    rw [eq_of_scanWord hscan]
    exact .push (spells_word hword) (ih (List.forall_mem_cons.mp h).2)
  | _ => exact absurd (h _ List.mem_cons_self) id

namespace Tree

mutual

/-- The tokens of a tree are whole. -/
theorem isWhole_tokens : ∀ t : Tree, ∀ token ∈ t.tokens, token.IsWhole
  | .null => by simp [tokens, Token.IsWhole]
  | .boolean _ => by simp [tokens, Token.IsWhole]
  | .number _ => by simp [tokens, Token.IsWhole]
  | .string _ => by simp [tokens, Token.IsWhole]
  | .array elements => by
    simpa [tokens, or_imp, forall_and, Token.IsWhole] using isWhole_elementTokens elements
  | .object members => by
    simpa [tokens, or_imp, forall_and, Token.IsWhole] using isWhole_memberTokens members

theorem isWhole_elementTokens : ∀ ts : List Tree, ∀ token ∈ elementTokens ts, token.IsWhole
  | [] => by simp [elementTokens]
  | [t] => isWhole_tokens t
  | t :: u :: ts => by
    simpa [elementTokens, or_imp, forall_and, Token.IsWhole] using
      ⟨isWhole_tokens t, isWhole_elementTokens (u :: ts)⟩

theorem isWhole_memberTokens :
    ∀ ms : List (List Piece × Tree), ∀ token ∈ memberTokens ms, token.IsWhole
  | [] => by simp [memberTokens]
  | [(key, t)] => by
    simpa [memberTokens, or_imp, forall_and, Token.IsWhole] using isWhole_tokens t
  | (key, t) :: m :: ms => by
    simpa [memberTokens, or_imp, forall_and, Token.IsWhole] using
      ⟨isWhole_tokens t, isWhole_memberTokens (m :: ms)⟩

end

/-- **The texts of a tree** are those that are cut into its tokens. -/
theorem isText_iff {t : Tree} {cs : List Char} : t.IsText cs ↔ Json.tokens cs = t.tokens := by
  constructor
  · exact IsText.tokens
  · intro h
    have hwhole : ∀ token ∈ Json.tokens cs, token.IsWhole := h ▸ t.isWhole_tokens
    have hspelled := Token.spellAll_tokens hwhole
    rwa [h] at hspelled

/-- A text of a value without doubles is a text of its tree. -/
lemma isText_of_value {a : Value} {cs : List Char} (h : a.IsText cs) (hexact : a.IsExact) :
    a.tree.IsText cs :=
  isText_iff.mpr ((h.tokens_eq hexact).trans (Value.tokens_tree hexact).symm)

instance (t : Tree) (cs : List Char) : Decidable (t.IsText cs) :=
  decidable_of_iff _ isText_iff.symm

end Tree

end Lockstep.Json
