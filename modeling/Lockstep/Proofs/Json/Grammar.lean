import Lockstep.Proofs.Json.Token

/-!
# The texts of a value

A value has many texts, as there may be gaps around each of its parts.  The grammar says which ones
these are, without a word about how a text is read; numbers and strings are only written in one
way.  The text on one line and the text over several lines are two of them.

Each text of a value is cut into the same tokens, unless there are doubles in it.
-/

namespace Lockstep.Json

/-- Nothing but characters that may stand between tokens. -/
def IsGap (cs : List Char) : Prop :=
  ∀ c ∈ cs, isSpace c = true

/-- Nothing is a gap. -/
lemma isGap_nil : IsGap [] :=
  fun _ hc => absurd hc List.not_mem_nil

/-- The start of a line is a gap. -/
lemma isGap_newLine (depth : Nat) : IsGap (Value.newLine depth) := by
  intro c hc
  rcases List.mem_cons.mp hc with rfl | hc
  · decide
  · rw [List.eq_of_mem_replicate hc]
    decide

/-- A blank is a gap. -/
lemma isGap_blank : IsGap [' '] := by
  intro c hc
  rw [List.mem_singleton.mp hc]
  rfl

/-- There are no tokens in a gap. -/
lemma tokens_gap {gap : List Char} (h : IsGap gap) (rest : List Char) :
    tokens (gap ++ rest) = tokens rest := by
  induction gap with
  | nil => rfl
  | cons c gap ih =>
    rw [List.cons_append, tokens, if_pos (h c List.mem_cons_self)]
    exact ih fun d hd => h d (List.mem_cons_of_mem _ hd)

/-- A number ends before a gap, if it ends before what comes behind the gap. -/
lemma endsNumber_gap {gap rest : List Char} (h : IsGap gap) (hrest : EndsNumber rest) :
    EndsNumber (gap ++ rest) := by
  cases gap with
  | nil => exact hrest
  | cons c gap =>
    intro d hd
    obtain rfl : c = d := Option.some.inj hd
    have hspace := h c List.mem_cons_self
    simp only [isSpace, Bool.or_eq_true, beq_iff_eq] at hspace
    rcases hspace with ((rfl | rfl) | rfl) | rfl <;> decide

namespace Value

mutual

/-- The characters spell the value, from its first character to its last one. -/
inductive Spells : Value → List Char → Prop
  | null : Spells .null (atom .null)
  | boolean (value : Bool) : Spells (.boolean value) (atom (.boolean value))
  | integer (value : Int) : Spells (.integer value) (atom (.integer value))
  | real (value : Float) : Spells (.real value) (atom (.real value))
  | string (value : String) : Spells (.string value) (stringText value)
  | array {elements : List Value} {cs : List Char} (h : SpellsElements elements cs) :
    Spells (.array elements) ('[' :: cs ++ [']'])
  | object {members : List (String × Value)} {cs : List Char} (h : SpellsMembers members cs) :
    Spells (.object members) ('\x7b' :: cs ++ ['\x7d'])

/-- The characters are a text of the value: they spell it, with gaps around it. -/
inductive IsText : Value → List Char → Prop
  | mk {a : Value} {before cs after : List Char} (hbefore : IsGap before) (h : Spells a cs)
    (hafter : IsGap after) : IsText a (before ++ cs ++ after)

/-- The characters are texts of the elements, with commas between them. -/
inductive SpellsElements : List Value → List Char → Prop
  | none {gap : List Char} (hgap : IsGap gap) : SpellsElements [] gap
  | last {a : Value} {cs : List Char} (h : IsText a cs) : SpellsElements [a] cs
  | more {a b : Value} {as : List Value} {cs rest : List Char} (h : IsText a cs)
    (hrest : SpellsElements (b :: as) rest) : SpellsElements (a :: b :: as) (cs ++ ',' :: rest)

/-- The characters are texts of the members, with commas between them: of each one its name and
its value, with a colon between these. -/
inductive SpellsMembers : List (String × Value) → List Char → Prop
  | none {gap : List Char} (hgap : IsGap gap) : SpellsMembers [] gap
  | last {name : String} {a : Value} {key cs : List Char} (hname : IsText (.string name) key)
    (h : IsText a cs) : SpellsMembers [(name, a)] (key ++ ':' :: cs)
  | more {name : String} {a : Value} {m : String × Value} {ms : List (String × Value)}
    {key cs rest : List Char} (hname : IsText (.string name) key) (h : IsText a cs)
    (hrest : SpellsMembers (m :: ms) rest) :
    SpellsMembers ((name, a) :: m :: ms) (key ++ ':' :: cs ++ ',' :: rest)

end

/-! ### Texts are cut into tokens -/

/-- A text of a string is cut into one token. -/
lemma IsText.tokens_string {s : String} {cs : List Char} (h : IsText (.string s) cs)
    (rest : List Char) :
    Json.tokens (cs ++ rest) = .string (s.toList.map .ofChar) :: Json.tokens rest := by
  obtain ⟨hbefore, hspells, hafter⟩ := h
  cases hspells
  rw [List.append_assoc, List.append_assoc, tokens_gap hbefore, tokens_stringText,
    tokens_gap hafter]

mutual

theorem Spells.tokens : ∀ {a : Value} {cs : List Char}, Spells a cs → a.IsExact →
    ∀ {rest : List Char}, EndsNumber rest → Json.tokens (cs ++ rest) = a.tokens ++ Json.tokens rest
  | _, _, .null, _, rest, _ =>
    tokens_word (by decide) (by decide) (by decide) (by decide) rfl rest
  | _, _, .boolean true, _, rest, _ =>
    tokens_word (by decide) (by decide) (by decide) (by decide) rfl rest
  | _, _, .boolean false, _, rest, _ =>
    tokens_word (by decide) (by decide) (by decide) (by decide) rfl rest
  | _, _, .integer value, _, _, hrest => tokens_integer value hrest
  | _, _, .string value, _, rest, _ => tokens_stringText value rest
  | _, _, .array h, hexact, rest, _ => by
    simp only [Value.tokens, List.cons_append, List.append_assoc, List.nil_append]
    rw [tokens_punctuation (by decide) rfl,
      SpellsElements.tokens h hexact (endsNumber_cons (Or.inr (Or.inl rfl)) rest),
      tokens_punctuation (by decide) rfl]
  | _, _, .object h, hexact, rest, _ => by
    simp only [Value.tokens, List.cons_append, List.append_assoc, List.nil_append]
    rw [tokens_punctuation (by decide) rfl,
      SpellsMembers.tokens h hexact (endsNumber_cons (Or.inr (Or.inr rfl)) rest),
      tokens_punctuation (by decide) rfl]

theorem IsText.tokens : ∀ {a : Value} {cs : List Char}, IsText a cs → a.IsExact →
    ∀ {rest : List Char}, EndsNumber rest → Json.tokens (cs ++ rest) = a.tokens ++ Json.tokens rest
  | _, _, .mk hbefore h hafter, hexact, rest, hrest => by
    rw [List.append_assoc, List.append_assoc, tokens_gap hbefore,
      Spells.tokens h hexact (endsNumber_gap hafter hrest), tokens_gap hafter]

theorem SpellsElements.tokens : ∀ {as : List Value} {cs : List Char}, SpellsElements as cs →
    AllExact as → ∀ {rest : List Char}, EndsNumber rest →
    Json.tokens (cs ++ rest) = elementTokens as ++ Json.tokens rest
  | _, _, .none hgap, _, rest, _ => tokens_gap hgap rest
  | _, _, .last h, hexact, _, hrest => IsText.tokens h hexact.1 hrest
  | _, _, .more h hrest, hexact, _, hends => by
    simp only [elementTokens, List.append_assoc, List.cons_append]
    rw [IsText.tokens h hexact.1 (endsNumber_cons (Or.inl rfl) _),
      tokens_punctuation (by decide) rfl, SpellsElements.tokens hrest hexact.2 hends]

theorem SpellsMembers.tokens : ∀ {ms : List (String × Value)} {cs : List Char},
    SpellsMembers ms cs → MembersExact ms → ∀ {rest : List Char}, EndsNumber rest →
    Json.tokens (cs ++ rest) = memberTokens ms ++ Json.tokens rest
  | _, _, .none hgap, _, rest, _ => tokens_gap hgap rest
  | _, _, .last hname h, hexact, _, hrest => by
    simp only [memberTokens, List.append_assoc, List.cons_append]
    rw [hname.tokens_string, tokens_punctuation (by decide) rfl, IsText.tokens h hexact.1 hrest]
  | _, _, .more hname h hrest, hexact, _, hends => by
    simp only [memberTokens, List.append_assoc, List.cons_append]
    rw [hname.tokens_string, tokens_punctuation (by decide) rfl,
      IsText.tokens h hexact.1 (endsNumber_cons (Or.inl rfl) _),
      tokens_punctuation (by decide) rfl, SpellsMembers.tokens hrest hexact.2 hends]

end

/-- A text that is nothing but a text of the value is cut into the tokens of the value. -/
lemma IsText.tokens_eq {a : Value} {cs : List Char} (h : IsText a cs) (hexact : a.IsExact) :
    Json.tokens cs = a.tokens := by
  have hend : EndsNumber [] := fun _ hc => absurd hc (Option.not_mem_none _)
  have htext := h.tokens hexact hend
  rwa [List.append_nil, Json.tokens, List.append_nil] at htext

/-! ### Two texts of a value -/

/-- What spells a value is a text of it. -/
lemma Spells.isText {a : Value} {cs : List Char} (h : Spells a cs) : IsText a cs := by
  have htext := IsText.mk isGap_nil h isGap_nil
  rwa [List.nil_append, List.append_nil] at htext

mutual

/-- The text on one line spells the value. -/
theorem spells_compact : ∀ a : Value, Spells a a.compact
  | .null => .null
  | .boolean value => .boolean value
  | .integer value => .integer value
  | .real value => .real value
  | .string value => .string value
  | .array elements => .array (spells_compactElements elements)
  | .object members => .object (spells_compactMembers members)

theorem spells_compactElements : ∀ as : List Value, SpellsElements as (compactElements as)
  | [] => .none isGap_nil
  | [a] => .last (spells_compact a).isText
  | a :: b :: as => .more (spells_compact a).isText (spells_compactElements (b :: as))

theorem spells_compactMembers :
    ∀ ms : List (String × Value), SpellsMembers ms (compactMembers ms)
  | [] => .none isGap_nil
  | [(name, a)] => .last (Spells.string name).isText (spells_compact a).isText
  | (name, a) :: m :: ms => by
    have h := SpellsMembers.more (Spells.string name).isText (spells_compact a).isText
      (spells_compactMembers (m :: ms))
    simpa only [compactMembers, List.append_assoc, List.cons_append] using h

end

/-- The text on one line is a text of the value. -/
theorem isText_text (a : Value) : IsText a a.text.toList := by
  rw [text, String.toList_ofList]
  exact (spells_compact a).isText

mutual

/-- The text over several lines spells the value. -/
theorem spells_pretty (depth : Nat) : ∀ a : Value, Spells a (a.pretty depth)
  | .null => .null
  | .boolean value => .boolean value
  | .integer value => .integer value
  | .real value => .real value
  | .string value => .string value
  | .array [] => .array (.none isGap_nil)
  | .array (a :: as) => by
    have h := spells_prettyElements (depth + 1) (a :: as) (List.cons_ne_nil _ _)
      (isGap_newLine depth)
    simpa only [pretty, List.append_assoc, List.cons_append] using Spells.array h
  | .object [] => .object (.none isGap_nil)
  | .object (m :: ms) => by
    have h := spells_prettyMembers (depth + 1) (m :: ms) (List.cons_ne_nil _ _)
      (isGap_newLine depth)
    simpa only [pretty, List.append_assoc, List.cons_append] using Spells.object h

theorem spells_prettyElements (depth : Nat) : ∀ as : List Value, as ≠ [] →
    ∀ {gap : List Char}, IsGap gap → SpellsElements as (prettyElements depth as ++ gap)
  | [], hne, _, _ => absurd rfl hne
  | [a], _, _, hgap => .last (.mk (isGap_newLine depth) (spells_pretty depth a) hgap)
  | a :: b :: as, _, _, hgap => by
    have ha := IsText.mk (isGap_newLine depth) (spells_pretty depth a) isGap_nil
    have h := SpellsElements.more ha
      (spells_prettyElements depth (b :: as) (List.cons_ne_nil _ _) hgap)
    simpa only [prettyElements, List.append_assoc, List.cons_append, List.nil_append] using h

theorem spells_prettyMembers (depth : Nat) : ∀ ms : List (String × Value), ms ≠ [] →
    ∀ {gap : List Char}, IsGap gap → SpellsMembers ms (prettyMembers depth ms ++ gap)
  | [], hne, _, _ => absurd rfl hne
  | [(name, a)], _, _, hgap => by
    have hname := IsText.mk (isGap_newLine depth) (Spells.string name) isGap_nil
    have h := SpellsMembers.last hname (.mk isGap_blank (spells_pretty depth a) hgap)
    simpa only [prettyMembers, List.append_assoc, List.cons_append, List.nil_append] using h
  | (name, a) :: m :: ms, _, _, hgap => by
    have hname := IsText.mk (isGap_newLine depth) (Spells.string name) isGap_nil
    have ha := IsText.mk isGap_blank (spells_pretty depth a) isGap_nil
    have h := SpellsMembers.more hname ha
      (spells_prettyMembers depth (m :: ms) (List.cons_ne_nil _ _) hgap)
    simpa only [prettyMembers, List.append_assoc, List.cons_append, List.nil_append] using h

end

end Value

end Lockstep.Json
