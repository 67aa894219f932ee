import Lockstep.Json.Reader
import Lockstep.Proofs.Attempt
import Lockstep.Proofs.Json.Tree

/-!
# Which trees are read

What a reader accepts is said about trees (`Accepts`).  A reader that is at the tokens of a tree
either refuses them or takes all of them and none behind them, and what it answers with follows from
the tree.  This is so for numbers, strings, arrays and structures, each of them accepted if its
parts are.  Of an object for a structure each name has to be a text, and members of other names are
passed over (`Layout.Gathers`); an array holds the members in their order (`Layout.Lists`).
-/

namespace Lockstep.Json

variable {α β σ : Type} {read : Reader α} {P : Tree → α → Prop} {t : Tree} {a : α}

/-- The reader accepts these trees as these values, and no others.  It takes the tokens of the tree
and none behind them. -/
def Accepts (read : Reader α) (P : Tree → α → Prop) : Prop :=
  ∀ t rest a rest', read (t.tokens ++ rest) = .ok (a, rest') ↔ P t a ∧ rest' = rest

/-- The reader takes the tree as this value, whatever comes behind it. -/
def Takes (read : Reader α) (t : Tree) (a : α) : Prop :=
  ∀ rest, read (t.tokens ++ rest) = .ok (a, rest)

/-- A reader takes what it accepts. -/
lemma Accepts.takes_iff (h : Accepts read P) : Takes read t a ↔ P t a := by
  constructor
  · exact fun htakes => ((h t [] a []).mp (htakes [])).1
  · exact fun ht rest => (h t rest a rest).mpr ⟨ht, rfl⟩

/-- A reader that accepts some trees accepts those that it takes. -/
lemma Accepts.takes (h : Accepts read P) : Accepts read (Takes read) := by
  intro t rest a rest'
  rw [h.takes_iff]
  exact h t rest a rest'

/-- A changed value is accepted if the value is. -/
lemma Accepts.map (h : Accepts read P) (f : α → β) :
    Accepts (read.map f) fun t b => ∃ a, P t a ∧ f a = b := by
  intro t rest b rest'
  rw [Reader.map, map_eq_ok]
  constructor
  · rintro ⟨⟨a, u⟩, hread, hb⟩
    obtain ⟨ha, rfl⟩ := (h t rest a u).mp hread
    obtain ⟨rfl, rfl⟩ := Prod.mk.inj hb
    exact ⟨⟨a, ha, rfl⟩, rfl⟩
  · rintro ⟨⟨a, ha, rfl⟩, rfl⟩
    exact ⟨(a, rest'), (h t rest' a rest').mpr ⟨ha, rfl⟩, rfl⟩

/-- A changed value is taken if the value is. -/
lemma Takes.map (h : Takes read t a) (f : α → β) : Takes (read.map f) t (f a) := by
  intro rest
  rw [Reader.map, h rest]
  rfl

/-- **A text of a tree is read** exactly if the tree is accepted. -/
theorem Accepts.ofChars (h : Accepts read P) {cs : List Char} (hcs : t.IsText cs) :
    ofChars read cs = .ok a ↔ P t a := by
  have hread := h t [] a []
  rw [List.append_nil] at hread
  rw [Json.ofChars, hcs.tokens, ofTokens]
  constructor
  · intro hok
    split at hok
    · cases hok
    · rename_i b heq
      obtain rfl := Except.ok.inj hok
      exact (hread.mp heq).1
    · cases hok
  · intro ha
    rw [hread.mpr ⟨ha, rfl⟩]

/-! ### Simple values -/

namespace Tree

/-- The tree is a number whose value is this one, below the bound. -/
def IsInteger (bound : Nat) : Tree → Nat → Prop
  | .number literal, n => literal.value? = some (.integer n) ∧ n < bound
  | _, _ => False

/-- The tree is a string that stands for these characters. -/
def IsString : Tree → String → Prop
  | .string pieces, s => Piece.StandFor pieces s.toList
  | _, _ => False

/-- The tree is an array with elements for these values. -/
def HasElements (P : Tree → α → Prop) : Tree → List α → Prop
  | .array ts, as => List.Forall₂ P ts as
  | _, _ => False

end Tree

/-- An integer is read from its number. -/
lemma accepts_natural (title : String) (bound : Nat) :
    Accepts (Reader.natural title bound) (Tree.IsInteger bound) := by
  intro t rest n rest'
  cases t with
  | number literal =>
    rw [Tree.tokens, List.singleton_append, Reader.natural, Tree.IsInteger]
    constructor
    · intro hread
      split at hread
      · cases hread
      · rename_i value hvalue
        split at hread
        · rename_i hbounds
          obtain ⟨rfl, rfl⟩ := Prod.mk.inj (Except.ok.inj hread)
          have hnat : ((value.toNat : Nat) : Int) = value := Int.toNat_of_nonneg hbounds.1
          exact ⟨⟨by rw [hnat]; exact hvalue, by omega⟩, rfl⟩
        · cases hread
      · cases hread
    · rintro ⟨⟨hvalue, hbound⟩, rfl⟩
      have hbounds : 0 ≤ (n : Int) ∧ (n : Int) < bound := by omega
      simp only [hvalue, if_pos hbounds, Int.toNat_natCast]
  | _ => exact iff_of_false nofun fun h => h.1

/-- A string is read from the parts that spell it. -/
lemma accepts_string : Accepts Reader.string Tree.IsString := by
  intro t rest s rest'
  cases t with
  | string pieces =>
    rw [Tree.tokens, List.singleton_append, Reader.string, Tree.IsString, ← characters_eq_ok_iff]
    constructor
    · intro hread
      split at hread
      · rename_i cs hcs
        obtain ⟨rfl, rfl⟩ := Prod.mk.inj (Except.ok.inj hread)
        exact ⟨by rw [String.toList_ofList, hcs], rfl⟩
      · cases hread
    · rintro ⟨hcs, rfl⟩
      simp only [hcs, String.ofList_toList]
  | _ => exact iff_of_false nofun fun h => h.1

/-! ### Arrays -/

namespace Tree

/-- The tokens of elements behind another one, with the commas in front of them. -/
def furtherTokens : List Tree → List Token
  | [] => []
  | t :: ts => .comma :: elementTokens (t :: ts)

/-- The first of several elements comes first. -/
lemma elementTokens_cons (t : Tree) (ts : List Tree) :
    elementTokens (t :: ts) = t.tokens ++ furtherTokens ts := by
  cases ts with
  | nil => rw [furtherTokens, elementTokens, List.append_nil]
  | cons u ts => rfl

/-- Each element takes a token at least. -/
lemma length_le_elementTokens (ts : List Tree) : ts.length ≤ (elementTokens ts).length := by
  induction ts with
  | nil => exact Nat.le_refl _
  | cons t ts ih =>
    obtain ⟨u, us, hus, -⟩ := t.exists_tokens_eq_cons
    have hfurther : (elementTokens ts).length ≤ (furtherTokens ts).length := by
      cases ts with
      | nil => exact Nat.le_refl _
      | cons v ts => exact Nat.le_succ _
    rw [elementTokens_cons, hus, List.length_append, List.length_cons, List.length_cons]
    omega

end Tree

/-- How one element is read: it is the last one, or a comma and further elements follow. -/
lemma elements_succ_eq_ok_iff {fuel : Nat} {ts rest : List Token} {as : List α} :
    Reader.elements read (fuel + 1) ts = .ok (as, rest) ↔
      ∃ a us, read ts = .ok (a, us) ∧ (us = .endArray :: rest ∧ as = [a] ∨
        ∃ vs bs, us = .comma :: vs ∧ vs.head? ≠ some .endArray ∧
          Reader.elements read fuel vs = .ok (bs, rest) ∧ as = a :: bs) := by
  rw [Reader.elements]
  constructor
  · intro h
    split at h
    · cases h
    · rename_i a us hread
      obtain ⟨rfl, rfl⟩ := Prod.mk.inj (Except.ok.inj h)
      exact ⟨a, _, hread, .inl ⟨rfl, rfl⟩⟩
    · cases h
    · rename_i a us hnot hread
      obtain ⟨⟨bs, vs⟩, hothers, heq⟩ := map_eq_ok.mp h
      obtain ⟨rfl, rfl⟩ := Prod.mk.inj heq
      refine ⟨a, _, hread, .inr ⟨us, bs, rfl, fun hhead => ?_, hothers, rfl⟩⟩
      obtain ⟨tail, rfl⟩ := List.head?_eq_some_iff.mp hhead
      exact hnot tail rfl
    · cases h
  · rintro ⟨a, us, hread, ⟨rfl, rfl⟩ | ⟨vs, bs, rfl, hhead, hothers, rfl⟩⟩
    · rw [hread]
    · rw [hread]
      have hmap : (Reader.elements read fuel).map (a :: ·) vs = .ok (a :: bs, rest) := by
        rw [Reader.map, hothers]
        rfl
      match vs, hhead with
      | [], _ => exact hmap
      | v :: vs, hhead => cases v <;> first | exact hmap | exact absurd rfl hhead

/-- Elements are read if each of them is taken. -/
lemma elements_of_takes {ts : List Tree} {as : List α} (h : List.Forall₂ (Takes read) ts as)
    (hne : ts ≠ []) {fuel : Nat} (hfuel : ts.length ≤ fuel) (rest : List Token) :
    Reader.elements read fuel (Tree.elementTokens ts ++ .endArray :: rest) = .ok (as, rest) := by
  induction h generalizing fuel with
  | nil => exact absurd rfl hne
  | @cons t a ts as ht hts ih =>
    obtain ⟨fuel, rfl⟩ := Nat.exists_eq_add_one.mpr (Nat.lt_of_lt_of_le (Nat.succ_pos _) hfuel)
    rw [elements_succ_eq_ok_iff, Tree.elementTokens_cons, List.append_assoc]
    refine ⟨a, _, ht _, ?_⟩
    cases hts with
    | nil => exact .inl ⟨rfl, rfl⟩
    | @cons u b ts as hu hts =>
      have hothers := ih (List.cons_ne_nil u ts) (Nat.le_of_succ_le_succ hfuel)
      refine .inr ⟨_, b :: as, rfl, ?_, hothers, rfl⟩
      -- the next element is not the end of the array behind a comma
      obtain ⟨v, vs, hvs, hv⟩ := Tree.exists_elementTokens_eq_cons u ts (.endArray :: rest)
      change (Tree.elementTokens (u :: ts) ++ .endArray :: rest).head? ≠ _
      rw [hvs, List.head?_cons]
      exact fun heq => hv (Option.some.inj heq)

/-- Elements that are read are accepted. -/
lemma forall₂_of_elements (h : Accepts read P) {ts : List Tree} (hne : ts ≠ []) {fuel : Nat}
    {as : List α} {rest rest' : List Token}
    (hread : Reader.elements read fuel (Tree.elementTokens ts ++ .endArray :: rest) =
      .ok (as, rest')) : List.Forall₂ P ts as ∧ rest' = rest := by
  induction ts generalizing fuel as with
  | nil => exact absurd rfl hne
  | cons t ts ih =>
    cases fuel with
    | zero => cases hread
    | succ fuel =>
      rw [elements_succ_eq_ok_iff, Tree.elementTokens_cons, List.append_assoc] at hread
      obtain ⟨a, us, hfirst, hbehind⟩ := hread
      obtain ⟨ha, rfl⟩ := (h t _ a us).mp hfirst
      cases ts with
      | nil =>
        obtain ⟨heq, rfl⟩ | ⟨vs, bs, heq, -⟩ := hbehind
        · exact ⟨.cons ha .nil, (List.cons.inj heq).2.symm⟩
        · cases heq
      | cons u ts =>
        obtain ⟨heq, -⟩ | ⟨vs, bs, heq, -, hothers, rfl⟩ := hbehind
        · cases heq
        · obtain rfl := (List.cons.inj heq).2
          obtain ⟨hbs, hrest⟩ := ih (List.cons_ne_nil u ts) hothers
          exact ⟨.cons ha hbs, hrest⟩

/-- An array with elements is read as its elements are. -/
lemma array_tokens_cons (read : Reader α) (t : Tree) (ts : List Tree) (rest : List Token) :
    ∃ fuel, (t :: ts).length ≤ fuel ∧ Reader.array read ((Tree.array (t :: ts)).tokens ++ rest) =
      Reader.elements read fuel (Tree.elementTokens (t :: ts) ++ .endArray :: rest) := by
  refine ⟨(Tree.elementTokens (t :: ts) ++ .endArray :: rest).length + 1, ?_, ?_⟩
  · have hlength := Tree.length_le_elementTokens (t :: ts)
    rw [List.length_append]
    omega
  · rw [Tree.tokens, List.cons_append, List.cons_append, List.append_assoc, List.singleton_append]
    obtain ⟨v, vs, hvs, hv⟩ := Tree.exists_elementTokens_eq_cons t ts (.endArray :: rest)
    rw [hvs]
    cases v with
    | endArray => exact absurd rfl hv
    | _ => rfl

/-- **An array is taken** if its elements are. -/
theorem Takes.array {ts : List Tree} {as : List α} (h : List.Forall₂ (Takes read) ts as) :
    Takes (Reader.array read) (.array ts) as := by
  intro rest
  cases h with
  | nil => rfl
  | @cons t a ts as ht hts =>
    obtain ⟨fuel, hfuel, hread⟩ := array_tokens_cons read t ts rest
    rw [hread]
    exact elements_of_takes (.cons ht hts) (List.cons_ne_nil t ts) hfuel rest

/-- **Arrays are read** element by element. -/
theorem accepts_array (h : Accepts read P) :
    Accepts (Reader.array read) (Tree.HasElements P) := by
  intro t rest as rest'
  cases t with
  | array ts =>
    constructor
    · intro hread
      cases ts with
      | nil =>
        obtain ⟨rfl, rfl⟩ := Prod.mk.inj (Except.ok.inj hread)
        exact ⟨.nil, rfl⟩
      | cons t ts =>
        obtain ⟨fuel, -, heq⟩ := array_tokens_cons read t ts rest
        rw [heq] at hread
        exact forall₂_of_elements h (List.cons_ne_nil t ts) hread
    · rintro ⟨hall, rfl⟩
      exact Takes.array (List.Forall₂.imp (fun _ _ => h.takes_iff.mpr) hall) rest'
  | _ => exact iff_of_false nofun fun h => h.1

/-! ### Objects -/

namespace Tree

/-- The tokens of members behind another one, with the commas in front of them. -/
def furtherMemberTokens : List (List Piece × Tree) → List Token
  | [] => []
  | m :: ms => .comma :: memberTokens (m :: ms)

/-- The first of several members comes first. -/
lemma memberTokens_cons (key : List Piece) (t : Tree) (ms : List (List Piece × Tree)) :
    memberTokens ((key, t) :: ms) =
      .string key :: .colon :: (t.tokens ++ furtherMemberTokens ms) := by
  cases ms with
  | nil => rw [furtherMemberTokens, memberTokens, List.append_nil]
  | cons m ms => rfl

/-- Each member takes a token at least. -/
lemma length_le_memberTokens (ms : List (List Piece × Tree)) :
    ms.length ≤ (memberTokens ms).length := by
  induction ms with
  | nil => exact Nat.le_refl _
  | cons m ms ih =>
    obtain ⟨key, t⟩ := m
    have hfurther : (memberTokens ms).length ≤ (furtherMemberTokens ms).length := by
      cases ms with
      | nil => exact Nat.le_refl _
      | cons m ms => exact Nat.le_succ _
    rw [memberTokens_cons, List.length_cons, List.length_cons, List.length_cons, List.length_append]
    omega

end Tree

namespace Layout

variable {layout : Layout σ} {seen seen' : List String} {draft draft' final : σ} {name : String}

/-- What a member of this name does: one that is declared and has not been seen before is put into
the structure, and one that is not declared is passed over. -/
inductive Admits (layout : Layout σ) (name : String) (t : Tree) :
    List String → σ → List String → σ → Prop where
  | declared {seen : List String} {draft : σ} {m : Member σ} {update : σ → σ}
    (hfind : layout.members.find? (·.name == name) = some m) (hnew : name ∉ seen)
    (htakes : Takes m.read t update) : Admits layout name t seen draft (name :: seen) (update draft)
  | stray {seen : List String} {draft : σ}
    (hfind : layout.members.find? (·.name == name) = none) (hstrict : layout.strict = false) :
    Admits layout name t seen draft seen draft

/-- What members do one after the other, whose names are texts. -/
inductive Gathers (layout : Layout σ) :
    List (List Piece × Tree) → List String → σ → List String → σ → Prop where
  | done {seen : List String} {draft : σ} : Gathers layout [] seen draft seen draft
  | next {key : List Piece} {name : String} {t : Tree} {ms : List (List Piece × Tree)}
    {seen seen' seen'' : List String} {draft draft' final : σ}
    (hname : Piece.StandFor key name.toList)
    (hfirst : layout.Admits name t seen draft seen' draft')
    (hrest : Gathers layout ms seen' draft' seen'' final) :
    Gathers layout ((key, t) :: ms) seen draft seen'' final

/-- Behind the name of a member and the colon comes what is read as the member. -/
lemma entry_colon {m : Member σ} (hfind : layout.members.find? (·.name == name) = some m)
    (hnew : name ∉ seen) (draft : σ) (ts : List Token) :
    layout.entry seen draft name (.colon :: ts) =
      m.read.map (fun update => (name :: seen, update draft)) ts := by
  have hcontains : seen.contains name = false := by simpa using hnew
  rw [entry, hfind]
  simp only [hcontains, Bool.false_eq_true, if_false]

/-- What a member does is read behind its name and a colon. -/
lemma Admits.entry {t : Tree} (h : layout.Admits name t seen draft seen' draft')
    (rest : List Token) : layout.entry seen draft name (.colon :: (t.tokens ++ rest)) =
      .ok ((seen', draft'), rest) := by
  cases h with
  | declared hfind hnew htakes =>
    rw [entry_colon hfind hnew]
    exact (htakes.map _) rest
  | stray hfind hstrict =>
    simp only [Layout.entry, hfind, hstrict, Bool.false_eq_true, if_false, t.skip_tokens]

/-- What is read behind a name and a colon is what a member does. -/
lemma admits_of_entry (h : ∀ m ∈ layout.members, Accepts m.read (Takes m.read)) {t : Tree}
    {rest rest' : List Token}
    (hread : layout.entry seen draft name (.colon :: (t.tokens ++ rest)) =
      .ok ((seen', draft'), rest')) :
    layout.Admits name t seen draft seen' draft' ∧ rest' = rest := by
  cases hfind : layout.members.find? (·.name == name) with
  | some m =>
    by_cases hseen : name ∈ seen
    · have hcontains : seen.contains name = true := by simpa using hseen
      simp only [Layout.entry, hfind, hcontains, if_true] at hread
      cases hread
    · rw [entry_colon hfind hseen, Reader.map, map_eq_ok] at hread
      obtain ⟨⟨update, us⟩, hread, heq⟩ := hread
      obtain ⟨htakes, rfl⟩ := (h m (List.mem_of_find?_eq_some hfind) t rest update us).mp hread
      obtain ⟨hput, rfl⟩ := Prod.mk.inj heq
      obtain ⟨rfl, rfl⟩ := Prod.mk.inj hput
      exact ⟨.declared hfind hseen htakes, rfl⟩
  | none =>
    cases hstrict : layout.strict with
    | true =>
      simp only [Layout.entry, hfind, hstrict, if_true] at hread
      cases hread
    | false =>
      simp only [Layout.entry, hfind, hstrict, Bool.false_eq_true, if_false, t.skip_tokens]
        at hread
      obtain ⟨heq, rfl⟩ := Prod.mk.inj (Except.ok.inj hread)
      obtain ⟨rfl, rfl⟩ := Prod.mk.inj heq
      exact ⟨.stray hfind hstrict, rfl⟩

/-- How one member is read: it is the last one and none is missing, or a comma and further members
follow. -/
lemma entries_succ_eq_ok_iff {fuel : Nat} {first : Bool} {key : List Piece}
    {ts rest : List Token} :
    layout.entries (fuel + 1) first seen draft (.string key :: ts) = .ok (final, rest) ↔
      ∃ (name : String) (seen' : List String) (draft' : σ) (us : List Token),
        Piece.StandFor key name.toList ∧
        layout.entry seen draft name ts = .ok ((seen', draft'), us) ∧
        (us = .endObject :: rest ∧ layout.finish seen' draft' = .ok final ∨
          ∃ vs, us = .comma :: vs ∧
            layout.entries fuel false seen' draft' vs = .ok (final, rest)) := by
  rw [entries]
  simp only [← characters_eq_ok_iff]
  constructor
  · intro h
    split at h
    · cases h
    · rename_i cs hname
      rw [← String.toList_ofList (l := cs)] at hname
      split at h
      · cases h
      · rename_i seen' draft' us hentry
        obtain ⟨final', hfinish, heq⟩ := map_eq_ok.mp h
        obtain ⟨rfl, rfl⟩ := Prod.mk.inj heq
        exact ⟨_, seen', draft', _, hname, hentry, .inl ⟨rfl, hfinish⟩⟩
      · rename_i seen' draft' us hentry
        exact ⟨_, seen', draft', _, hname, hentry, .inr ⟨us, rfl, h⟩⟩
      · cases h
  · rintro ⟨name, seen', draft', us, hname, hentry, ⟨rfl, hfinish⟩ | ⟨vs, rfl, hrest⟩⟩
    · simp only [hname, String.ofList_toList, hentry, hfinish]
      rfl
    · simp only [hname, String.ofList_toList, hentry, hrest]

/-- Ending an object does not change the structure, and nothing is missing then. -/
lemma finish_eq_ok_iff :
    layout.finish seen draft = .ok final ↔ layout.missing? seen = none ∧ draft = final := by
  unfold finish
  cases hmissing : layout.missing? seen with
  | some m => simp
  | none => simp

/-- What members do one after the other is read. -/
lemma Gathers.entries {ms : List (List Piece × Tree)}
    (h : layout.Gathers ms seen draft seen' final) (hnone : layout.missing? seen' = none)
    (hne : ms ≠ []) {fuel : Nat} (hfuel : ms.length ≤ fuel) (first : Bool) (rest : List Token) :
    layout.entries fuel first seen draft (Tree.memberTokens ms ++ .endObject :: rest) =
      .ok (final, rest) := by
  induction h generalizing fuel first with
  | done => exact absurd rfl hne
  | @next key name t ms seen seen' seen'' draft draft' final hname hfirst hrest ih =>
    obtain ⟨fuel, rfl⟩ := Nat.exists_eq_add_one.mpr (Nat.lt_of_lt_of_le (Nat.succ_pos _) hfuel)
    rw [Tree.memberTokens_cons, List.cons_append, List.cons_append, List.append_assoc,
      entries_succ_eq_ok_iff]
    refine ⟨name, seen', draft', _, hname, hfirst.entry _, ?_⟩
    cases ms with
    | nil =>
      cases hrest
      exact .inl ⟨rfl, finish_eq_ok_iff.mpr ⟨hnone, rfl⟩⟩
    | cons m ms =>
      have hothers := ih hnone (List.cons_ne_nil m ms) (Nat.le_of_succ_le_succ hfuel) false
      exact .inr ⟨_, rfl, hothers⟩

/-- Members that are read do what they do one after the other, and then none is missing. -/
lemma gathers_of_entries (h : ∀ m ∈ layout.members, Accepts m.read (Takes m.read))
    {ms : List (List Piece × Tree)} (hne : ms ≠ []) {fuel : Nat} {first : Bool}
    {rest rest' : List Token}
    (hread : layout.entries fuel first seen draft (Tree.memberTokens ms ++ .endObject :: rest) =
      .ok (final, rest')) :
    (∃ seen', layout.Gathers ms seen draft seen' final ∧ layout.missing? seen' = none) ∧
      rest' = rest := by
  induction ms generalizing fuel first seen draft with
  | nil => exact absurd rfl hne
  | cons m ms ih =>
    obtain ⟨key, t⟩ := m
    cases fuel with
    | zero => cases hread
    | succ fuel =>
      rw [Tree.memberTokens_cons, List.cons_append, List.cons_append, List.append_assoc,
        entries_succ_eq_ok_iff] at hread
      obtain ⟨name, seen', draft', us, hname, hentry, hbehind⟩ := hread
      obtain ⟨hadmits, rfl⟩ := admits_of_entry h hentry
      cases ms with
      | nil =>
        obtain ⟨heq, hfinish⟩ | ⟨vs, heq, -⟩ := hbehind
        · obtain ⟨hnone, rfl⟩ := finish_eq_ok_iff.mp hfinish
          exact ⟨⟨seen', .next hname hadmits .done, hnone⟩, (List.cons.inj heq).2.symm⟩
        · cases heq
      | cons m ms =>
        obtain ⟨heq, -⟩ | ⟨vs, heq, hothers⟩ := hbehind
        · cases heq
        · obtain rfl := (List.cons.inj heq).2
          obtain ⟨⟨seen'', hgathers, hnone⟩, hrest⟩ := ih (List.cons_ne_nil m ms) hothers
          exact ⟨⟨seen'', .next hname hadmits hgathers, hnone⟩, hrest⟩

/-- An object with members is read as its members are. -/
lemma reader_tokens_cons (m : List Piece × Tree) (ms : List (List Piece × Tree))
    (rest : List Token) : ∃ fuel, (m :: ms).length ≤ fuel ∧
      layout.reader ((Tree.object (m :: ms)).tokens ++ rest) =
        layout.entries fuel true [] layout.blank
          (Tree.memberTokens (m :: ms) ++ .endObject :: rest) := by
  refine ⟨(Tree.memberTokens (m :: ms) ++ .endObject :: rest).length + 1, ?_, ?_⟩
  · have hlength := Tree.length_le_memberTokens (m :: ms)
    rw [List.length_append]
    omega
  · rw [Tree.tokens, List.cons_append, List.cons_append, List.append_assoc, List.singleton_append]
    cases ms <;> rfl

/-- **An object is taken** as the structure that its members make up, if none is missing. -/
theorem Gathers.takes_reader {ms : List (List Piece × Tree)}
    (h : layout.Gathers ms [] layout.blank seen final) (hnone : layout.missing? seen = none) :
    Takes layout.reader (.object ms) final := by
  intro rest
  cases ms with
  | nil =>
    cases h
    change (layout.finish [] layout.blank).map (fun a => (a, rest)) = _
    rw [finish_eq_ok_iff.mpr ⟨hnone, rfl⟩]
    rfl
  | cons m ms =>
    obtain ⟨fuel, hfuel, hread⟩ := layout.reader_tokens_cons m ms rest
    rw [hread]
    exact h.entries hnone (List.cons_ne_nil m ms) hfuel true rest

/-! ### Arrays for structures -/

/-- What the elements of an array do as the members of these declarations, one after the other.
Members that need not be there may be left out at the end. -/
inductive Lists : List (Member σ) → List Tree → σ → σ → Prop where
  | done {draft : σ} : Lists [] [] draft draft
  | item {m : Member σ} {members : List (Member σ)} {t : Tree} {ts : List Tree} {draft final : σ}
    {update : σ → σ} (htakes : Takes m.read t update)
    (hrest : Lists members ts (update draft) final) : Lists (m :: members) (t :: ts) draft final
  | left {m : Member σ} {members : List (Member σ)} {draft final : σ} (hfree : m.required = false)
    (hrest : Lists members [] draft final) : Lists (m :: members) [] draft final

/-- Nothing but the end of the array may come behind all members. -/
lemma closing_cons_ne_ok {v : Token} {vs : List Token} {r : σ × List Token} (hv : v ≠ .endArray) :
    closing draft (v :: vs) ≠ .ok r := by
  unfold closing
  split
  · exact absurd (List.cons.inj ‹_›).1 hv
  · exact nofun
  · exact nofun

/-- How one element is read as a member: the first one at once, and the others behind a comma. -/
lemma positions_cons_eq_ok_iff {m : Member σ} {members : List (Member σ)} {k : Nat} {v : Token}
    {vs rest : List Token} (hv : v ≠ .endArray) :
    layout.positions (m :: members) k draft (if k = 0 then v :: vs else .comma :: v :: vs) =
        .ok (final, rest) ↔
      ∃ update us, m.read (v :: vs) = .ok (update, us) ∧
        layout.positions members (k + 1) (update draft) us = .ok (final, rest) := by
  have hok : ∀ update us, m.read (v :: vs) = .ok (update, us) →
      layout.positions (m :: members) k draft (if k = 0 then v :: vs else .comma :: v :: vs) =
        layout.positions members (k + 1) (update draft) us := by
    intro update us hread
    cases k <;> cases v <;> first | exact absurd rfl hv | simp [positions, hread]
  have herror : ∀ e, m.read (v :: vs) = .error e →
      layout.positions (m :: members) k draft (if k = 0 then v :: vs else .comma :: v :: vs) =
        .error e := by
    intro e hread
    cases k <;> cases v <;> first | exact absurd rfl hv | simp [positions, hread]
  constructor
  · intro h
    cases hread : m.read (v :: vs) with
    | error e => cases (herror e hread).symm.trans h
    | ok r => exact ⟨r.1, r.2, rfl, (hok r.1 r.2 hread).symm.trans h⟩
  · rintro ⟨update, us, hread, h⟩
    exact (hok update us hread).trans h

/-- The end of the array is also where members are that were left out. -/
lemma positions_end_eq_ok_iff {members : List (Member σ)} {k : Nat} {rest rest' : List Token} :
    layout.positions members k draft (.endArray :: rest) = .ok (final, rest') ↔
      Lists members [] draft final ∧ rest' = rest := by
  induction members generalizing k with
  | nil =>
    constructor
    · intro hread
      obtain ⟨rfl, rfl⟩ := Prod.mk.inj (Except.ok.inj hread)
      exact ⟨.done, rfl⟩
    · rintro ⟨⟨⟩, rfl⟩
      rfl
  | cons m members ih =>
    rw [positions]
    split
    · rename_i hrequired
      refine iff_of_false nofun ?_
      rintro ⟨_ | _ | ⟨hfree, -⟩, -⟩
      cases hrequired.symm.trans hfree
    · rename_i hfree
      rw [ih]
      refine and_congr_left fun _ => ⟨.left (by simpa using hfree), ?_⟩
      rintro (_ | _ | ⟨-, hrest⟩)
      exact hrest

/-- Elements are read as what they do as members. -/
lemma positions_eq_ok_iff {members : List (Member σ)}
    (h : ∀ m ∈ members, Accepts m.read (Takes m.read)) {ts : List Tree} {k : Nat}
    {rest rest' : List Token} :
    layout.positions members k draft
        ((if k = 0 then Tree.elementTokens ts else Tree.furtherTokens ts) ++ .endArray :: rest) =
        .ok (final, rest') ↔ Lists members ts draft final ∧ rest' = rest := by
  induction ts generalizing members k draft with
  | nil =>
    have hnone : (if k = 0 then Tree.elementTokens [] else Tree.furtherTokens []) = [] := by
      rw [Tree.elementTokens, Tree.furtherTokens, ite_self]
    rw [hnone]
    exact positions_end_eq_ok_iff
  | cons t ts ih =>
    obtain ⟨v, vs, hvs, hv⟩ := Tree.exists_elementTokens_eq_cons t ts (.endArray :: rest)
    have htokens : (if k = 0 then Tree.elementTokens (t :: ts) else Tree.furtherTokens (t :: ts)) ++
        .endArray :: rest = if k = 0 then v :: vs else .comma :: v :: vs := by
      rw [Tree.furtherTokens, ← hvs]
      split <;> rfl
    rw [htokens]
    cases members with
    | nil =>
      refine iff_of_false ?_ nofun
      cases k with
      | zero => exact closing_cons_ne_ok hv
      | succ k => exact closing_cons_ne_ok Token.noConfusion
    | cons m members =>
      obtain ⟨hm, hmembers⟩ := List.forall_mem_cons.mp h
      rw [Tree.elementTokens_cons, List.append_assoc] at hvs
      rw [positions_cons_eq_ok_iff hv, ← hvs]
      constructor
      · rintro ⟨update, us, hread, hothers⟩
        obtain ⟨htakes, rfl⟩ := (hm t _ update us).mp hread
        obtain ⟨hlists, hrest⟩ := (ih hmembers (k := k + 1)).mp hothers
        exact ⟨.item htakes hlists, hrest⟩
      · rintro ⟨_ | ⟨htakes, hlists⟩, rfl⟩
        exact ⟨_, _, htakes _, (ih hmembers (k := k + 1)).mpr ⟨hlists, rfl⟩⟩

/-- The tree is made of members for this structure, either with their names or in their order. -/
def IsMadeOf (layout : Layout σ) : Tree → σ → Prop
  | .object ms, a => ∃ seen, layout.Gathers ms [] layout.blank seen a ∧ layout.missing? seen = none
  | .array ts, a => Lists layout.members ts layout.blank a
  | _, _ => False

/-- **Structures are read** member by member. -/
theorem accepts_reader (h : ∀ m ∈ layout.members, Accepts m.read (Takes m.read)) :
    Accepts layout.reader layout.IsMadeOf := by
  intro t rest final rest'
  cases t with
  | object ms =>
    constructor
    · intro hread
      cases ms with
      | nil =>
        obtain ⟨a, hfinish, heq⟩ := map_eq_ok.mp hread
        obtain ⟨rfl, rfl⟩ := Prod.mk.inj heq
        obtain ⟨hnone, rfl⟩ := finish_eq_ok_iff.mp hfinish
        exact ⟨⟨[], .done, hnone⟩, rfl⟩
      | cons m ms =>
        obtain ⟨fuel, -, heq⟩ := layout.reader_tokens_cons m ms rest
        rw [heq] at hread
        exact gathers_of_entries h (List.cons_ne_nil m ms) hread
    · rintro ⟨⟨seen, hgathers, hnone⟩, rfl⟩
      exact hgathers.takes_reader hnone rest'
  | array ts =>
    rw [IsMadeOf, ← positions_eq_ok_iff h (k := 0), if_pos rfl, Tree.tokens, List.cons_append,
      List.cons_append, List.append_assoc, List.singleton_append]
    rfl
  | _ => exact iff_of_false nofun fun h => h.1

end Layout

end Lockstep.Json
