import Lockstep.Proofs.Json.Reader
import Mathlib.Data.List.Nodup

/-!
# Members in any order

Whoever writes an object for a structure may leave members out, take them in any order, and add
members that the structure does not have.  Such an object is an `Arrangement`.  If nothing was added
to it and nothing that has to be there was left out, it is read as the blank structure with those
fields put in that are there (`Arrangement.reads_object`).

If something was added a strict layout refuses the object, no matter what stands behind it.  So it
is refused as well if it stands deeper, within a value that is read (`Arrangement.refuses_object`,
`refuses_array`).  As the rest of the text is not looked at any more, all this is about texts and
not about tokens: the values that were added may hold anything.
-/

namespace Lockstep.Json

variable {α β σ F : Type} {read : Reader α} {v : Value}

/-! ### Refused values -/

/-- The reader refuses the value for a member that is not declared, whatever comes behind it. -/
def Refuses (read : Reader α) (v : Value) : Prop :=
  ∀ cs, v.Spells cs → ∀ rest, ∃ name known,
    read (tokens (cs ++ rest)) = .error (.mismatch (.unknownMember name known))

/-- What is refused is not changed. -/
lemma Refuses.map (h : Refuses read v) (f : α → β) : Refuses (read.map f) v := by
  intro cs hcs rest
  obtain ⟨name, known, hread⟩ := h cs hcs rest
  refine ⟨name, known, ?_⟩
  rw [Reader.map, hread]
  rfl

/-- A member that may be left out is refused if its value is. -/
lemma Refuses.defaulted (h : Refuses read v) (name : String) (put : α → σ → σ) :
    Refuses (Member.defaulted name read put).read v :=
  h.map put

/-- A text of the value is refused as well. -/
lemma Refuses.isText (h : Refuses read v) {cs : List Char} (hcs : v.IsText cs) (rest : List Char) :
    ∃ name known, read (tokens (cs ++ rest)) = .error (.mismatch (.unknownMember name known)) := by
  obtain ⟨hbefore, hspells, hafter⟩ := hcs
  rw [List.append_assoc, List.append_assoc, tokens_gap hbefore]
  exact h _ hspells _

/-- **A text of a value is refused** if the value is. -/
theorem Refuses.ofText (h : Refuses read v) {cs : List Char} (hcs : v.IsText cs) :
    ∃ name known, ofChars read cs = .error (.mismatch (.unknownMember name known)) := by
  obtain ⟨name, known, hread⟩ := h.isText hcs []
  rw [List.append_nil] at hread
  refine ⟨name, known, ?_⟩
  rw [Json.ofChars, ofTokens, hread]

/-- The value can be read or is refused. -/
def IsDecided (read : Reader α) (v : Value) : Prop :=
  (v.IsExact ∧ ∃ a, Reads read v a) ∨ Refuses read v

/-! ### Arrays -/

/-- The texts of elements are that of the first one and, behind a comma, those of the others. -/
lemma exists_of_elements {vs : List Value} {cs : List Char}
    (hcs : Value.SpellsElements (v :: vs) cs) :
    ∃ text tail, v.IsText text ∧ cs = text ++ tail ∧ (vs = [] ∧ tail = [] ∨
      ∃ further, tail = ',' :: further ∧ Value.SpellsElements vs further) := by
  cases hcs with
  | last h => exact ⟨_, [], h, (List.append_nil _).symm, Or.inl ⟨rfl, rfl⟩⟩
  | more h hrest => exact ⟨_, _, h, rfl, Or.inr ⟨_, rfl, hrest⟩⟩

/-- A text of an object begins with its brace, and so do texts of elements the first of which is
one. -/
lemma exists_tokens_of_object {ms : List (String × Value)} {vs : List Value} {cs : List Char}
    (hcs : Value.SpellsElements (.object ms :: vs) cs) (rest : List Char) :
    ∃ ts, tokens (cs ++ rest) = .beginObject :: ts := by
  obtain ⟨text, tail, ⟨hbefore, hspells, hafter⟩, rfl, -⟩ := exists_of_elements hcs
  cases hspells
  simp only [List.append_assoc, List.cons_append]
  rw [tokens_gap hbefore, tokens_punctuation (by decide) rfl]
  exact ⟨_, rfl⟩

/-- Elements are refused if one of them is. -/
lemma elements_refuses {vs : List Value} (hobjects : ∀ v ∈ vs, ∃ ms, v = .object ms)
    (h : ∀ v ∈ vs, IsDecided read v)
    (hbad : ∃ v ∈ vs, Refuses read v) {cs : List Char} (hcs : Value.SpellsElements vs cs)
    (rest : List Char) {fuel : Nat} (hfuel : (tokens (cs ++ rest)).length < fuel) :
    ∃ name known, Reader.elements read fuel (tokens (cs ++ rest)) =
      .error (.mismatch (.unknownMember name known)) := by
  induction vs generalizing cs fuel with
  | nil =>
    obtain ⟨v, hv, -⟩ := hbad
    exact absurd hv List.not_mem_nil
  | cons v vs ih =>
    obtain ⟨fuel, rfl⟩ := Nat.exists_eq_add_one.mpr (Nat.lt_of_le_of_lt (Nat.zero_le _) hfuel)
    obtain ⟨text, tail, htext, rfl, hothers⟩ := exists_of_elements hcs
    by_cases hv : Refuses read v
    · rw [List.append_assoc]
      obtain ⟨name, known, hread⟩ := hv.isText htext (tail ++ rest)
      refine ⟨name, known, ?_⟩
      rw [Reader.elements, hread]
    · obtain ⟨hexact, a, ha⟩ := (h v List.mem_cons_self).resolve_right hv
      obtain ⟨w, hw, hrefuses⟩ : ∃ w ∈ vs, Refuses read w := by
        obtain ⟨w, hw, hrefuses⟩ := hbad
        rcases List.mem_cons.mp hw with rfl | hw
        · exact absurd hrefuses hv
        · exact ⟨w, hw, hrefuses⟩
      rcases hothers with ⟨rfl, -⟩ | ⟨further, rfl, hfurther⟩
      · exact absurd hw List.not_mem_nil
      have htokens : tokens (text ++ ',' :: further ++ rest) =
          v.tokens ++ .comma :: tokens (further ++ rest) := by
        rw [List.append_assoc, List.cons_append,
          htext.tokens hexact (Value.endsNumber_cons (Or.inl rfl) _),
          tokens_punctuation (by decide) rfl]
      rw [htokens] at hfuel ⊢
      rw [List.length_append, List.length_cons] at hfuel
      have hobjects := fun x hx => hobjects x (List.mem_cons_of_mem v hx)
      obtain ⟨name, known, hread⟩ := ih hobjects
        (fun x hx => h x (List.mem_cons_of_mem v hx)) ⟨w, hw, hrefuses⟩ hfurther
        (by omega : (tokens (further ++ rest)).length < fuel)
      -- the next element is an object and not the end of the array
      obtain ⟨ts, hts⟩ : ∃ ts, tokens (further ++ rest) = .beginObject :: ts := by
        obtain ⟨x, xs, rfl⟩ := List.exists_cons_of_ne_nil (List.ne_nil_of_mem hw)
        obtain ⟨ms, rfl⟩ := hobjects x List.mem_cons_self
        exact exists_tokens_of_object hfurther rest
      refine ⟨name, known, ?_⟩
      rw [hts] at hread ⊢
      rw [elements_of_comma (ha _) Token.noConfusion, Reader.map, hread]
      rfl

/-- **An array of objects is refused** if one of them is, and if those before it are read. -/
theorem refuses_array {vs : List Value} (hobjects : ∀ v ∈ vs, ∃ ms, v = .object ms)
    (h : ∀ v ∈ vs, IsDecided read v) (hbad : ∃ v ∈ vs, Refuses read v) :
    Refuses (Reader.array read) (.array vs) := by
  intro text htext rest
  cases htext with
  | @array _ cs hcs =>
    obtain ⟨name, known, hread⟩ :=
      elements_refuses hobjects h hbad hcs (']' :: rest) (Nat.lt_succ_self _)
    obtain ⟨ts, hts⟩ : ∃ ts, tokens (cs ++ ']' :: rest) = .beginObject :: ts := by
      obtain ⟨v, hv, -⟩ := hbad
      obtain ⟨x, xs, rfl⟩ := List.exists_cons_of_ne_nil (List.ne_nil_of_mem hv)
      obtain ⟨ms, rfl⟩ := hobjects x List.mem_cons_self
      exact exists_tokens_of_object hcs _
    refine ⟨name, known, ?_⟩
    rw [List.cons_append, List.cons_append, List.append_assoc, List.singleton_append,
      tokens_punctuation (by decide) rfl, hts]
    rw [hts] at hread
    exact hread

/-! ### Arrangements -/

/-- What stands in an object: a field of a structure, or something else. -/
inductive Item (F : Type) where
  | field (f : F)
  | stray (name : String) (value : Value)

namespace Item

/-- The field that it is. -/
def field? : Item F → Option F
  | field f => some f
  | stray _ _ => none

/-- The member that it makes. -/
def member (name : F → String) (value : F → Value) : Item F → String × Value
  | field f => (name f, value f)
  | stray name value => (name, value)

end Item

/-- Some fields of a structure in some order, each at most once, among members of other names. -/
structure Arrangement (name : F → String) where
  items : List (Item F)
  nodup : (items.filterMap Item.field?).Nodup
  undeclared : ∀ stray value, .stray stray value ∈ items → ∀ f, name f ≠ stray

namespace Arrangement

variable {name : F → String}

/-- The fields that are there. -/
def fields (A : Arrangement name) : List F :=
  A.items.filterMap Item.field?

/-- Something is there that is no field. -/
def HasStray (A : Arrangement name) : Prop :=
  ∃ stray value, .stray stray value ∈ A.items

/-- The fields among fields are all of them. -/
lemma filterMap_field? (fields : List F) :
    (fields.map Item.field).filterMap Item.field? = fields := by
  rw [List.filterMap_map]
  exact List.filterMap_some

/-- These fields, and nothing else. -/
def ofFields (fields : List F) (h : fields.Nodup) : Arrangement name where
  items := fields.map Item.field
  nodup := (filterMap_field? fields).symm ▸ h
  undeclared := by
    intro stray v hv
    obtain ⟨f, -, hf⟩ := List.mem_map.mp hv
    cases hf

/-- They are there. -/
lemma fields_ofFields (fields : List F) (h : fields.Nodup) :
    (ofFields fields h : Arrangement name).fields = fields :=
  filterMap_field? fields

/-- There are only fields then. -/
lemma not_hasStray_ofFields (fields : List F) (h : fields.Nodup) :
    ¬ (ofFields fields h : Arrangement name).HasStray := by
  rintro ⟨stray, v, hv⟩
  obtain ⟨f, -, hf⟩ := List.mem_map.mp hv
  cases hf

/-- The object with these members. -/
def object (A : Arrangement name) (value : F → Value) : Value :=
  .object (A.items.map (Item.member name value))

end Arrangement

/-! ### Objects for a structure -/

/-- The layout has these fields under these names, and no others. -/
structure Layout.Declares (layout : Layout σ) (name : F → String) (declared : F → Member σ) :
    Prop where
  strict : layout.strict = true
  injective : Function.Injective name
  find : ∀ f, layout.members.find? (·.name == name f) = some (declared f)
  mem : ∀ m ∈ layout.members, ∃ f, declared f = m

namespace Layout.Declares

variable {layout : Layout σ} {name : F → String} {declared : F → Member σ}

/-- Among fields of different names each is found under its own. -/
lemma find?_map {fields : List F} (hname : ∀ f, (declared f).name = name f)
    (hnodup : (fields.map name).Nodup) {f : F} (hf : f ∈ fields) :
    (fields.map declared).find? (·.name == name f) = some (declared f) := by
  induction fields with
  | nil => exact absurd hf List.not_mem_nil
  | cons g fields ih =>
    obtain ⟨hg, hnodup⟩ := List.nodup_cons.mp hnodup
    rw [List.map_cons, List.find?_cons, hname]
    rcases List.mem_cons.mp hf with rfl | hf
    · rw [beq_self_eq_true]
    · have hne : (name g == name f) = false := by
        rw [beq_eq_false_iff_ne]
        exact fun heq => hg (heq ▸ List.mem_map_of_mem hf)
      rw [hne]
      exact ih hnodup hf

/-- A layout has the fields that its members are listed for. -/
lemma of_members (hstrict : layout.strict = true) (fields : List F) (hall : ∀ f, f ∈ fields)
    (hmembers : layout.members = fields.map declared) (hname : ∀ f, (declared f).name = name f)
    (hnodup : (fields.map name).Nodup) : layout.Declares name declared where
  strict := hstrict
  injective f g h := List.inj_on_of_nodup_map hnodup (hall f) (hall g) h
  find f := by
    rw [hmembers]
    exact find?_map hname hnodup (hall f)
  mem m hm := by
    rw [hmembers] at hm
    obtain ⟨f, -, rfl⟩ := List.mem_map.mp hm
    exact ⟨f, rfl⟩

/-- The field is called as the layout calls it. -/
lemma name_eq (hd : layout.Declares name declared) (f : F) : (declared f).name = name f := by
  have hfound := List.find?_some (hd.find f)
  simpa using hfound

/-- Under the name of no field there is none. -/
lemma find_none (hd : layout.Declares name declared) {stray : String}
    (hstray : ∀ f, name f ≠ stray) : layout.members.find? (·.name == stray) = none := by
  rw [List.find?_eq_none]
  intro m hm hname
  obtain ⟨f, rfl⟩ := hd.mem m hm
  refine hstray f ?_
  rw [← hd.name_eq]
  simpa using hname

/-- When one of several fields has been seen the others are still new. -/
lemma fresh (hd : layout.Declares name declared) {f : F} {fields : List F}
    (hnodup : (f :: fields).Nodup) {seen : List String} (hnew : ∀ g ∈ f :: fields, name g ∉ seen) :
    ∀ g ∈ fields, name g ∉ name f :: seen := by
  intro g hg hseen
  rcases List.mem_cons.mp hseen with heq | hseen
  · exact (List.nodup_cons.mp hnodup).1 (hd.injective heq ▸ hg)
  · exact hnew g (List.mem_cons_of_mem _ hg) hseen

variable {value : F → Value} {update : F → σ → σ}

/-- Fields that were not seen before are filled in one after the other. -/
lemma fills (hd : layout.Declares name declared) {fields : List F} (hnodup : fields.Nodup)
    (hreads : ∀ f ∈ fields, Reads (declared f).read (value f) (update f)) {seen : List String}
    (hnew : ∀ f ∈ fields, name f ∉ seen) (draft : σ) :
    layout.Fills (fields.map fun f => (name f, value f)) seen draft
      (fields.foldl (fun draft f => update f draft) draft) := by
  induction fields generalizing seen draft with
  | nil => exact .done
  | cons f fields ih =>
    refine .next (hd.find f) (hnew f List.mem_cons_self) (hreads f List.mem_cons_self) ?_
    exact ih (List.nodup_cons.mp hnodup).2 (fun g hg => hreads g (List.mem_cons_of_mem _ hg))
      (hd.fresh hnodup hnew) _

/-- Nothing is missing if all fields are there that have to be there. -/
lemma missing?_eq_none (hd : layout.Declares name declared) {fields : List F}
    (hneeded : ∀ f, (declared f).required = true → f ∈ fields) {seen : List String}
    (hseen : ∀ f ∈ fields, name f ∈ seen) : layout.missing? seen = none := by
  rw [missing?, List.find?_eq_none]
  intro m hm hmissing
  obtain ⟨f, rfl⟩ := hd.mem m hm
  rw [Bool.and_eq_true] at hmissing
  have hthere := hseen f (hneeded f hmissing.1)
  rw [← hd.name_eq] at hthere
  simp [hthere] at hmissing

end Layout.Declares

namespace Arrangement

variable {layout : Layout σ} {name : F → String} {declared : F → Member σ} {value : F → Value}
  {update : F → σ → σ}

/-- Where there are only fields, the members are theirs. -/
lemma members_eq (A : Arrangement name) (hpure : ¬ A.HasStray) :
    A.items.map (Item.member name value) = A.fields.map fun f => (name f, value f) := by
  have hitems : ∀ items : List (Item F), (∀ stray v, .stray stray v ∉ items) →
      items.map (Item.member name value) =
        (items.filterMap Item.field?).map fun f => (name f, value f) := by
    intro items hnone
    induction items with
    | nil => rfl
    | cons item items ih =>
      have hothers := ih fun stray v hv => hnone stray v (List.mem_cons_of_mem _ hv)
      cases item with
      | field f => exact congrArg ((name f, value f) :: ·) hothers
      | stray stray v => exact absurd List.mem_cons_self (hnone stray v)
  exact hitems A.items fun stray v hv => hpure ⟨stray, v, hv⟩

/-- The object of an arrangement holds no doubles if its fields do not. -/
lemma isExact_object (A : Arrangement name) (hpure : ¬ A.HasStray)
    (hexact : ∀ f ∈ A.fields, (value f).IsExact) : (A.object value).IsExact := by
  rw [object, A.members_eq hpure]
  refine Value.membersExact_iff.mpr fun m hm => ?_
  obtain ⟨f, hf, rfl⟩ := List.mem_map.mp hm
  exact hexact f hf

/-- **An arrangement is read** as the blank structure with the fields that are there put in, if
nothing was added and nothing that has to be there is missing. -/
theorem reads_object (hd : layout.Declares name declared) (A : Arrangement name)
    (hpure : ¬ A.HasStray) (hexact : ∀ f ∈ A.fields, (value f).IsExact)
    (hreads : ∀ f ∈ A.fields, Reads (declared f).read (value f) (update f))
    (hneeded : ∀ f, (declared f).required = true → f ∈ A.fields) :
    Reads layout.reader (A.object value)
      (A.fields.foldl (fun draft f => update f draft) layout.blank) := by
  have hobject := A.isExact_object hpure hexact
  rw [object, A.members_eq hpure] at hobject ⊢
  refine Layout.reads_object
    (hd.fills A.nodup hreads (fun _ _ => List.not_mem_nil) layout.blank) hobject ?_
  refine hd.missing?_eq_none hneeded fun f hf => ?_
  rw [List.mem_reverse, List.map_map]
  exact List.mem_map_of_mem hf

end Arrangement

/-! ### Refused objects -/

/-- The texts of members are that of the first one and, behind a comma, those of the others. -/
lemma exists_of_members {key : String} {ms : List (String × Value)} {cs : List Char}
    (hcs : Value.SpellsMembers ((key, v) :: ms) cs) :
    ∃ text tail, v.IsText text ∧ (∀ rest, tokens (cs ++ rest) =
      .string (key.toList.map .ofChar) :: .colon :: tokens (text ++ (tail ++ rest))) ∧
      (ms = [] ∧ tail = [] ∨
        ∃ further, tail = ',' :: further ∧ Value.SpellsMembers ms further) := by
  cases hcs with
  | last hname h =>
    refine ⟨_, [], h, fun rest => ?_, Or.inl ⟨rfl, rfl⟩⟩
    rw [List.append_assoc, List.cons_append, hname.tokens_string,
      tokens_punctuation (by decide) rfl, List.nil_append]
  | more hname h hrest =>
    refine ⟨_, _, h, fun rest => ?_, Or.inr ⟨_, rfl, hrest⟩⟩
    simp only [List.append_assoc, List.cons_append]
    rw [hname.tokens_string, tokens_punctuation (by decide) rfl]

variable {layout : Layout σ} {name : F → String} {declared : F → Member σ} {value : F → Value}

/-- The object is refused when it comes to this. -/
def Item.IsRefused (declared : F → Member σ) (value : F → Value) : Item F → Prop
  | field f => Refuses (declared f).read (value f)
  | stray _ _ => True

/-- Members are refused if one of them is. -/
lemma Layout.Declares.entries_refuses (hd : layout.Declares name declared) {items : List (Item F)}
    (hundeclared : ∀ stray v, .stray stray v ∈ items → ∀ f, name f ≠ stray)
    (hnodup : (items.filterMap Item.field?).Nodup)
    (h : ∀ f ∈ items.filterMap Item.field?, IsDecided (declared f).read (value f))
    (hbad : ∃ item ∈ items, item.IsRefused declared value)
    {seen : List String} (hnew : ∀ f ∈ items.filterMap Item.field?, name f ∉ seen) (draft : σ)
    {cs : List Char} (hcs : Value.SpellsMembers (items.map (Item.member name value)) cs)
    (rest : List Char) {fuel : Nat} (hfuel : (tokens (cs ++ rest)).length < fuel) (first : Bool) :
    ∃ stray known, layout.entries fuel first seen draft (tokens (cs ++ rest)) =
      .error (.mismatch (.unknownMember stray known)) := by
  induction items generalizing seen draft cs fuel first with
  | nil =>
    obtain ⟨item, hmem, -⟩ := hbad
    exact absurd hmem List.not_mem_nil
  | cons item items ih =>
    obtain ⟨fuel, rfl⟩ := Nat.exists_eq_add_one.mpr (Nat.lt_of_le_of_lt (Nat.zero_le _) hfuel)
    obtain ⟨text, tail, htext, htokens, hothers⟩ := exists_of_members hcs
    cases item with
    | stray stray v =>
      have hnone := hd.find_none (hundeclared stray v List.mem_cons_self)
      refine ⟨stray, layout.members.map (·.name), ?_⟩
      simp only [htokens, entries, characters_map_ofChar, String.ofList_toList, entry,
        hnone, hd.strict, if_true]
    | field f =>
      by_cases hf : Refuses (declared f).read (value f)
      · obtain ⟨stray, known, hread⟩ :=
          (hf.map fun update => (name f :: seen, update draft)).isText htext (tail ++ rest)
        have hentry := entry_colon (hd.find f) (hnew f List.mem_cons_self) draft
        refine ⟨stray, known, ?_⟩
        simp only [htokens, entries, characters_map_ofChar, String.ofList_toList,
          hentry, hread]
      · obtain ⟨hexact, update, hread⟩ := (h f List.mem_cons_self).resolve_right hf
        obtain ⟨item, hmem, hrefused⟩ : ∃ item ∈ items, item.IsRefused declared value := by
          obtain ⟨item, hmem, hrefused⟩ := hbad
          rcases List.mem_cons.mp hmem with rfl | hmem
          · exact absurd hrefused hf
          · exact ⟨item, hmem, hrefused⟩
        rcases hothers with ⟨hnil, -⟩ | ⟨further, rfl, hfurther⟩
        · rw [List.map_eq_nil_iff.mp hnil] at hmem
          exact absurd hmem List.not_mem_nil
        have hrest : tokens (text ++ (',' :: further ++ rest)) =
            (value f).tokens ++ .comma :: tokens (further ++ rest) := by
          rw [List.cons_append, htext.tokens hexact (Value.endsNumber_cons (Or.inl rfl) _),
            tokens_punctuation (by decide) rfl]
        rw [htokens, hrest] at hfuel
        simp only [List.length_cons, List.length_append] at hfuel
        obtain ⟨stray, known, hrefuses⟩ := ih
          (fun stray v hmem => hundeclared stray v (List.mem_cons_of_mem _ hmem))
          (List.nodup_cons.mp hnodup).2 (fun g hg => h g (List.mem_cons_of_mem _ hg))
          ⟨item, hmem, hrefused⟩ (hd.fresh hnodup hnew) (update draft) hfurther
          (by omega : (tokens (further ++ rest)).length < fuel) false
        have hvalue := entry_tokens (hd.find f) (hnew f List.mem_cons_self) hread draft
          (.comma :: tokens (further ++ rest))
        refine ⟨stray, known, ?_⟩
        simp only [htokens, hrest, entries, characters_map_ofChar,
          String.ofList_toList, hvalue, hrefuses]

/-- **An arrangement is refused** if something was added to it, or to what it holds. -/
theorem Arrangement.refuses_object (hd : layout.Declares name declared) (A : Arrangement name)
    (h : ∀ f ∈ A.fields, IsDecided (declared f).read (value f))
    (hbad : A.HasStray ∨ ∃ f ∈ A.fields, Refuses (declared f).read (value f)) :
    Refuses layout.reader (A.object value) := by
  obtain ⟨item, hmem, hrefused⟩ : ∃ item ∈ A.items, item.IsRefused declared value := by
    rcases hbad with ⟨stray, v, hmem⟩ | ⟨f, hf, hrefused⟩
    · exact ⟨_, hmem, trivial⟩
    · obtain ⟨item, hmem, hitem⟩ := List.mem_filterMap.mp hf
      cases item with
      | field g =>
        obtain rfl : g = f := Option.some.inj hitem
        exact ⟨_, hmem, hrefused⟩
      | stray stray v => cases hitem
  intro text htext rest
  cases htext with
  | @object _ cs hcs =>
    obtain ⟨stray, known, hread⟩ := hd.entries_refuses A.undeclared A.nodup h
      ⟨item, hmem, hrefused⟩ (fun _ _ => List.not_mem_nil) layout.blank hcs ('\x7d' :: rest)
      (Nat.lt_succ_self _) true
    -- there is a member
    obtain ⟨pieces, ts, hts⟩ :
        ∃ pieces ts, tokens (cs ++ '\x7d' :: rest) = .string pieces :: ts := by
      obtain ⟨item, items, hitems⟩ := List.exists_cons_of_ne_nil (List.ne_nil_of_mem hmem)
      rw [hitems] at hcs
      obtain ⟨_, _, -, htokens, -⟩ := exists_of_members hcs
      exact ⟨_, _, htokens _⟩
    refine ⟨stray, known, ?_⟩
    rw [List.cons_append, List.cons_append, List.append_assoc, List.singleton_append,
      tokens_punctuation (by decide) rfl, hts]
    rw [hts] at hread
    exact hread

/-! ### Structures and their fields -/

/-- The fields of a structure, as its layout has them, and what it means to take some of them from
another structure. -/
structure Fields (layout : Layout σ) (F : Type) where
  /-- All fields in the order of their declaration. -/
  all : List F
  name : F → String
  declared : F → Member σ
  /-- Takes a field from one structure into another one. -/
  put : σ → F → σ → σ
  /-- The structure with those fields replaced that are taken from another one. -/
  taking : σ → List F → σ → σ
  mem_all : ∀ f, f ∈ all
  strict : layout.strict = true
  members_eq : layout.members = all.map declared
  name_eq : ∀ f, (declared f).name = name f
  nodup : (all.map name).Nodup
  taking_nil : ∀ s d, taking d [] s = d
  taking_cons : ∀ s d f fields, taking d (f :: fields) s = taking (put s f d) fields s

namespace Fields

variable {layout : Layout σ} (S : Fields layout F)

/-- The layout has these fields and no others. -/
lemma declares : layout.Declares S.name S.declared :=
  .of_members S.strict S.all S.mem_all S.members_eq S.name_eq S.nodup

/-- Fields are taken one after the other. -/
lemma foldl_put (fields : List F) (s d : σ) :
    fields.foldl (fun d f => S.put s f d) d = S.taking d fields s := by
  induction fields generalizing d with
  | nil => exact (S.taking_nil s d).symm
  | cons f fields ih => rw [List.foldl_cons, ih, S.taking_cons]

/-- **A structure is read from an arrangement** to which nothing was added: those of its fields that
are there are taken into the blank structure. -/
theorem reads_arranged {A : Arrangement S.name} (hpure : ¬ A.HasStray) {value : F → Value} {s : σ}
    (hvalue : ∀ f ∈ A.fields,
      (value f).IsExact ∧ Reads (S.declared f).read (value f) (S.put s f))
    (hneeded : ∀ f, (S.declared f).required = true → f ∈ A.fields) :
    (A.object value).IsExact ∧
      Reads layout.reader (A.object value) (S.taking layout.blank A.fields s) := by
  have hexact : ∀ f ∈ A.fields, (value f).IsExact := fun f hf => (hvalue f hf).1
  refine ⟨A.isExact_object hpure hexact, ?_⟩
  rw [← S.foldl_put]
  exact A.reads_object S.declares hpure hexact (fun f hf => (hvalue f hf).2) hneeded

/-- **A structure is refused** if something was added to its fields. -/
theorem refuses_arranged {A : Arrangement S.name} (hstray : A.HasStray) {value : F → Value} {s : σ}
    (hvalue : ∀ f, (value f).IsExact ∧ Reads (S.declared f).read (value f) (S.put s f)) :
    Refuses layout.reader (A.object value) :=
  A.refuses_object S.declares (fun f _ => Or.inl ⟨(hvalue f).1, _, (hvalue f).2⟩) (Or.inl hstray)

/-- All fields in the order of their declaration, and nothing else. -/
def inOrder : Arrangement S.name :=
  .ofFields S.all S.nodup.of_map

/-- Each field is among all of them. -/
lemma mem_inOrder (f : F) : f ∈ S.inOrder.fields := by
  rw [inOrder, Arrangement.fields_ofFields]
  exact S.mem_all f

/-- Nothing else is there. -/
lemma not_hasStray_inOrder : ¬ S.inOrder.HasStray :=
  Arrangement.not_hasStray_ofFields _ _

end Fields

end Lockstep.Json
