import Lockstep.Proofs.Json.Reader

/-!
# Structures told by their parts

A structure has parts, and a tree tells the structure if it tells each part.  An object tells a part
under its name, wherever the name stands, and may say anything under other names; an array tells the
parts in their order.  Neither the order nor what is said beside matters to a reader
(`Layout.Describes.isMadeOf`).  An object in which the name of a part occurs twice, or in which a
part is missing that has to be there, tells no structure at all and is refused
(`Layout.not_isFlawed`).
-/

namespace Lockstep.Json

variable {σ : Type}

/-- A part of a structure. -/
structure Part where
  name : String
  /-- The tree tells this part. -/
  IsToldBy : Tree → Prop
  /-- The part need not be told. -/
  MayLack : Prop

/-! ### Names -/

/-- The member has this name. -/
def IsNamed (name : String) (m : List Piece × Tree) : Prop :=
  Piece.StandFor m.1 name.toList

/-- Two members have this name. -/
def IsTwice (name : String) (ms : List (List Piece × Tree)) : Prop :=
  ∃ m n, [m, n].Sublist ms ∧ IsNamed name m ∧ IsNamed name n

/-- The members tell the parts, each under its name, and none of them twice.  All names are texts,
also those that are not the names of parts. -/
structure TellByName (parts : List Part) (ms : List (List Piece × Tree)) : Prop where
  named : ∀ m ∈ ms, ∃ name, IsNamed name m
  once : ∀ p ∈ parts, ¬ IsTwice p.name ms
  told : ∀ p ∈ parts, (∃ m ∈ ms, IsNamed p.name m ∧ p.IsToldBy m.2) ∨
    p.MayLack ∧ ∀ m ∈ ms, ¬ IsNamed p.name m

/-- The elements tell the parts in their order.  Parts that need not be told may be left out at the
end. -/
inductive TellInOrder : List Part → List Tree → Prop where
  | done : TellInOrder [] []
  | item {p : Part} {parts : List Part} {t : Tree} {ts : List Tree} (h : p.IsToldBy t)
    (hrest : TellInOrder parts ts) : TellInOrder (p :: parts) (t :: ts)
  | left {p : Part} {parts : List Part} (h : p.MayLack) (hrest : TellInOrder parts []) :
    TellInOrder (p :: parts) []

namespace Tree

/-- The tree tells the parts, as an object or as an array. -/
def Tells (parts : List Part) : Tree → Prop
  | .object ms => TellByName parts ms
  | .array ts => TellInOrder parts ts
  | _ => False

/-- The tree is an object in which a declared name occurs twice or one that is needed does not
occur. -/
def IsFlawed (declared needed : List String) : Tree → Prop
  | .object ms =>
    (∃ name ∈ declared, IsTwice name ms) ∨ ∃ name ∈ needed, ∀ m ∈ ms, ¬ IsNamed name m
  | _ => False

end Tree

instance (pieces : List Piece) (cs : List Char) : Decidable (Piece.StandFor pieces cs) :=
  decidable_of_iff _ characters_eq_ok_iff

instance (name : String) (m : List Piece × Tree) : Decidable (IsNamed name m) :=
  inferInstanceAs (Decidable (Piece.StandFor m.1 name.toList))

/-- A member has one name. -/
lemma IsNamed.unique {name name' : String} {m : List Piece × Tree} (h : IsNamed name m)
    (h' : IsNamed name' m) : name = name' := by
  have hread := characters_eq_ok_iff.mpr h
  exact String.ext (Except.ok.inj (hread.symm.trans (characters_eq_ok_iff.mpr h')))

/-- A name occurs twice if it does behind the first member, or if the first member has it and so
does another one. -/
lemma isTwice_cons {name : String} {m : List Piece × Tree} {ms : List (List Piece × Tree)} :
    IsTwice name (m :: ms) ↔ IsTwice name ms ∨ IsNamed name m ∧ ∃ n ∈ ms, IsNamed name n := by
  constructor
  · rintro ⟨a, b, hsub, ha, hb⟩
    cases hsub with
    | cons _ hsub => exact .inl ⟨a, b, hsub, ha, hb⟩
    | cons_cons _ hsub => exact .inr ⟨ha, b, List.singleton_sublist.mp hsub, hb⟩
  · rintro (⟨a, b, hsub, ha, hb⟩ | ⟨hm, n, hn, hname⟩)
    · exact ⟨a, b, hsub.cons m, ha, hb⟩
    · exact ⟨m, n, (List.singleton_sublist.mpr hn).cons_cons m, hm, hname⟩

instance decidableIsTwice (name : String) :
    (ms : List (List Piece × Tree)) → Decidable (IsTwice name ms)
  | [] => .isFalse fun ⟨_, _, hsub, _⟩ => nomatch hsub
  | _ :: ms =>
    have := decidableIsTwice name ms
    decidable_of_iff _ isTwice_cons.symm

/-- What has a name that occurs once is one member. -/
lemma eq_of_not_isTwice {name : String} {m n : List Piece × Tree}
    {ms : List (List Piece × Tree)} (honce : ¬ IsTwice name ms) (hm : m ∈ ms) (hn : n ∈ ms)
    (hmname : IsNamed name m) (hnname : IsNamed name n) : m = n := by
  induction ms with
  | nil => cases hm
  | cons first ms ih =>
    rw [isTwice_cons, not_or] at honce
    rcases List.mem_cons.mp hm with rfl | hm' <;> rcases List.mem_cons.mp hn with rfl | hn'
    · rfl
    · exact absurd ⟨hmname, n, hn', hnname⟩ honce.2
    · exact absurd ⟨hnname, m, hm', hmname⟩ honce.2
    · exact ih honce.1 hm' hn'

/-- What stands under the name of a part tells the part. -/
lemma TellByName.isToldBy {parts : List Part} {ms : List (List Piece × Tree)}
    (h : TellByName parts ms) {p : Part} (hp : p ∈ parts) {m : List Piece × Tree} (hm : m ∈ ms)
    (hname : IsNamed p.name m) : p.IsToldBy m.2 := by
  rcases h.told p hp with ⟨n, hn, hnname, htold⟩ | ⟨-, hnone⟩
  · rwa [eq_of_not_isTwice (h.once p hp) hm hn hname hnname]
  · exact absurd hname (hnone m hm)

/-! ### Structures -/

/-- What a declared member has to do with a part.  They have the same name, and a part that need not
be told is read by a member that may be left out.  Reading what tells the part adds the part to what
was read before. -/
structure Member.Reads (m : Member σ) (p : Part) (draft : List String → σ) : Prop where
  name_eq : m.name = p.name
  optional : p.MayLack → m.required = false
  takes : ∀ t, p.IsToldBy t → ∃ update, Takes m.read t update ∧
    ∀ seen, update (draft seen) = draft (p.name :: seen)

/-- The layout reads a structure from what tells its parts.  When only some of the parts have been
told, the structure is there as this draft. -/
structure Layout.Describes (layout : Layout σ) (s : σ) (parts : List Part)
    (draft : List String → σ) : Prop where
  free : layout.strict = false
  blank : draft [] = layout.blank
  whole : ∀ seen, (∀ p ∈ parts, p.name ∈ seen ∨ p.MayLack) → draft seen = s
  members : List.Forall₂ (fun m p => m.Reads p draft) layout.members parts
  nodup : (parts.map Part.name).Nodup

/-- What is related to one thing of a list is among the things that are related to the list. -/
lemma exists_mem_of_forall₂ {α β : Type} {R : α → β → Prop} {as : List α} {bs : List β}
    (h : List.Forall₂ R as bs) {a : α} (ha : a ∈ as) : ∃ b ∈ bs, R a b := by
  induction h with
  | nil => cases ha
  | @cons c b as bs hb _ ih =>
    rcases List.mem_cons.mp ha with rfl | ha
    · exact ⟨b, List.mem_cons_self, hb⟩
    · obtain ⟨d, hd, hR⟩ := ih ha
      exact ⟨d, List.mem_cons_of_mem b hd, hR⟩

/-! ### Written members -/

/-- A written name is the name of its member and no other one is. -/
lemma isNamed_written {name written : String} {t : Tree} :
    IsNamed name (written.toList.map .ofChar, t) ↔ written = name := by
  rw [IsNamed, ← characters_eq_ok_iff, characters_map_ofChar, Except.ok.injEq, String.toList_inj]

/-- Among written members there is one with a name if the name was written. -/
lemma exists_isNamed_written {name : String} {ms : List (String × Value)} :
    (∃ n ∈ Value.memberTrees ms, IsNamed name n) ↔ name ∈ ms.map Prod.fst := by
  rw [Value.memberTrees_eq_map, List.mem_map]
  constructor
  · rintro ⟨n, hn, hname⟩
    obtain ⟨m, hm, rfl⟩ := List.mem_map.mp hn
    exact ⟨m, hm, isNamed_written.mp hname⟩
  · rintro ⟨m, hm, rfl⟩
    exact ⟨_, List.mem_map_of_mem hm, isNamed_written.mpr rfl⟩

/-- No name was written twice if no two are the same. -/
lemma not_isTwice_written {ms : List (String × Value)} (h : (ms.map Prod.fst).Nodup)
    (name : String) : ¬ IsTwice name (Value.memberTrees ms) := by
  induction ms with
  | nil =>
    rintro ⟨_, _, hsub, -⟩
    cases hsub
  | cons m ms ih =>
    obtain ⟨hfresh, hothers⟩ := List.nodup_cons.mp h
    rw [Value.memberTrees, isTwice_cons, exists_isNamed_written, isNamed_written]
    rintro (htwice | ⟨rfl, hagain⟩)
    · exact ih hothers htwice
    · exact hfresh hagain

/-- Members that are written in the order of the parts tell the parts. -/
lemma tellByName_written {parts : List Part} {ms : List (String × Value)}
    (h : List.Forall₂ (fun p m => p.name = m.1 ∧ p.IsToldBy m.2.tree) parts ms)
    (hnodup : (parts.map Part.name).Nodup) : TellByName parts (Value.memberTrees ms) where
  named := by
    rw [Value.memberTrees_eq_map]
    intro n hn
    obtain ⟨m, -, rfl⟩ := List.mem_map.mp hn
    exact ⟨m.1, isNamed_written.mpr rfl⟩
  once p _ := by
    have hnames : parts.map Part.name = ms.map Prod.fst := by
      rw [← List.forall₂_eq_eq_eq, List.forall₂_map_left_iff, List.forall₂_map_right_iff]
      exact h.imp fun p m hm => hm.1
    exact not_isTwice_written (hnames ▸ hnodup) p.name
  told p hp := by
    obtain ⟨m, hm, hname, htold⟩ := exists_mem_of_forall₂ h hp
    rw [Value.memberTrees_eq_map]
    exact .inl ⟨_, List.mem_map_of_mem hm, isNamed_written.mpr hname.symm, htold⟩

/-! ### Structures that are told -/

namespace Layout.Describes

variable {layout : Layout σ} {s : σ} {parts : List Part} {draft : List String → σ}

/-- Under the name of a part its member is found. -/
lemma exists_find (hd : layout.Describes s parts draft) {p : Part} (hp : p ∈ parts) :
    ∃ m, layout.members.find? (·.name == p.name) = some m ∧ m.Reads p draft := by
  have hmembers := hd.members
  have hnodup := hd.nodup
  clear hd
  generalize layout.members = members at hmembers
  induction hmembers with
  | nil => cases hp
  | @cons m q members parts hm hmembers ih =>
    obtain ⟨hq, hnodup⟩ := List.nodup_cons.mp hnodup
    rw [List.find?_cons, hm.name_eq]
    rcases List.mem_cons.mp hp with rfl | hp
    · rw [beq_self_eq_true]
      exact ⟨m, rfl, hm⟩
    · have hne : (q.name == p.name) = false := by
        rw [beq_eq_false_iff_ne]
        exact fun heq => hq (heq ▸ List.mem_map_of_mem hp)
      rw [hne]
      exact ih hp hnodup

/-- Under other names there is nothing. -/
lemma find_eq_none (hd : layout.Describes s parts draft) {name : String}
    (hname : ∀ p ∈ parts, p.name ≠ name) : layout.members.find? (·.name == name) = none := by
  rw [List.find?_eq_none]
  intro m hm
  obtain ⟨p, hp, hread⟩ := exists_mem_of_forall₂ hd.members hm
  rw [hread.name_eq]
  simpa using hname p hp

/-- Members that tell parts which have not been told before are gathered. -/
lemma exists_gathers (hd : layout.Describes s parts draft) {ms : List (List Piece × Tree)}
    (hnamed : ∀ m ∈ ms, ∃ name, IsNamed name m)
    (htold : ∀ p ∈ parts, ∀ m ∈ ms, IsNamed p.name m → p.IsToldBy m.2)
    (honce : ∀ p ∈ parts, ¬ IsTwice p.name ms) {seen : List String}
    (hnew : ∀ p ∈ parts, p.name ∈ seen → ∀ m ∈ ms, ¬ IsNamed p.name m) :
    ∃ seen', layout.Gathers ms seen (draft seen) seen' (draft seen') ∧ seen ⊆ seen' ∧
      ∀ p ∈ parts, (∃ m ∈ ms, IsNamed p.name m) → p.name ∈ seen' := by
  induction ms generalizing seen with
  | nil =>
    refine ⟨seen, .done, List.Subset.refl seen, ?_⟩
    rintro p hp ⟨m, hm, -⟩
    cases hm
  | cons m ms ih =>
    obtain ⟨⟨name, hname⟩, hnamed⟩ := List.forall_mem_cons.mp hnamed
    have htold' : ∀ p ∈ parts, ∀ n ∈ ms, IsNamed p.name n → p.IsToldBy n.2 :=
      fun p hp n hn => htold p hp n (List.mem_cons_of_mem m hn)
    have honce' : ∀ p ∈ parts, ¬ IsTwice p.name ms :=
      fun p hp htwice => honce p hp (isTwice_cons.mpr (.inl htwice))
    have hnew' : ∀ p ∈ parts, p.name ∈ seen → ∀ n ∈ ms, ¬ IsNamed p.name n :=
      fun p hp hseen n hn => hnew p hp hseen n (List.mem_cons_of_mem m hn)
    by_cases hpart : ∃ p ∈ parts, p.name = name
    · obtain ⟨p, hp, rfl⟩ := hpart
      obtain ⟨member, hfind, hmember⟩ := hd.exists_find hp
      obtain ⟨update, htakes, hupdate⟩ := hmember.takes m.2 (htold p hp m List.mem_cons_self hname)
      have hfresh : p.name ∉ seen := fun hseen => hnew p hp hseen m List.mem_cons_self hname
      have hlater : ∀ q ∈ parts, q.name ∈ p.name :: seen → ∀ n ∈ ms, ¬ IsNamed q.name n := by
        intro q hq hmem n hn hqname
        rcases List.mem_cons.mp hmem with heq | hmem
        · rw [heq] at hqname
          exact honce p hp (isTwice_cons.mpr (.inr ⟨hname, n, hn, hqname⟩))
        · exact hnew' q hq hmem n hn hqname
      obtain ⟨seen', hgathers, hsub, hall⟩ := ih hnamed htold' honce' hlater
      obtain ⟨hmem, hsub⟩ := List.cons_subset.mp hsub
      rw [← hupdate] at hgathers
      refine ⟨seen', .next hname (.declared hfind hfresh htakes) hgathers, hsub, ?_⟩
      rintro q hq ⟨n, hn, hqname⟩
      rcases List.mem_cons.mp hn with rfl | hn
      · rwa [hqname.unique hname]
      · exact hall q hq ⟨n, hn, hqname⟩
    · have hstray : ∀ p ∈ parts, p.name ≠ name := fun p hp heq => hpart ⟨p, hp, heq⟩
      obtain ⟨seen', hgathers, hsub, hall⟩ := ih hnamed htold' honce' hnew'
      refine ⟨seen', .next hname (.stray (hd.find_eq_none hstray) hd.free) hgathers, hsub, ?_⟩
      rintro q hq ⟨n, hn, hqname⟩
      rcases List.mem_cons.mp hn with rfl | hn
      · exact absurd (hqname.unique hname) (hstray q hq)
      · exact hall q hq ⟨n, hn, hqname⟩

/-- Elements that tell parts in their order are what the members of the parts take. -/
lemma exists_lists {members : List (Member σ)} {parts : List Part}
    (hmembers : List.Forall₂ (fun m p => m.Reads p draft) members parts) {ts : List Tree}
    (htold : TellInOrder parts ts) (seen : List String) :
    ∃ seen', Lists members ts (draft seen) (draft seen') ∧ seen ⊆ seen' ∧
      ∀ p ∈ parts, p.name ∈ seen' ∨ p.MayLack := by
  induction htold generalizing members seen with
  | done =>
    cases hmembers
    exact ⟨seen, .done, List.Subset.refl seen, nofun⟩
  | @item p parts t ts h hrest ih =>
    obtain ⟨m, members, hm, hothers, rfl⟩ := List.forall₂_cons_right_iff.mp hmembers
    obtain ⟨update, htakes, hupdate⟩ := hm.takes t h
    obtain ⟨seen', hlists, hseen, hall⟩ := ih hothers (p.name :: seen)
    rw [← hupdate] at hlists
    obtain ⟨hp, hseen⟩ := List.cons_subset.mp hseen
    exact ⟨seen', .item htakes hlists, hseen, List.forall_mem_cons.mpr ⟨.inl hp, hall⟩⟩
  | @left p parts h hrest ih =>
    obtain ⟨m, members, hm, hothers, rfl⟩ := List.forall₂_cons_right_iff.mp hmembers
    obtain ⟨seen', hlists, hseen, hall⟩ := ih hothers seen
    exact ⟨seen', .left (hm.optional h) hlists, hseen, List.forall_mem_cons.mpr ⟨.inr h, hall⟩⟩

/-- **What tells the parts of a structure** is what the layout reads as the structure. -/
theorem isMadeOf (hd : layout.Describes s parts draft) {t : Tree} (h : t.Tells parts) :
    layout.IsMadeOf t s := by
  cases t with
  | object ms =>
    have hblank : ∀ p ∈ parts, p.name ∈ [] → ∀ m ∈ ms, ¬ IsNamed p.name m :=
      fun _ _ hmem => absurd hmem List.not_mem_nil
    obtain ⟨seen, hgathers, -, hseen⟩ := hd.exists_gathers h.named
      (fun p hp m hm => h.isToldBy hp hm) h.once hblank
    have hlacks : ∀ p ∈ parts, p.name ∈ seen ∨ p.MayLack := by
      intro p hp
      rcases h.told p hp with ⟨m, hm, hname, -⟩ | ⟨hlack, -⟩
      · exact .inl (hseen p hp ⟨m, hm, hname⟩)
      · exact .inr hlack
    rw [hd.blank, hd.whole seen hlacks] at hgathers
    refine ⟨seen, hgathers, ?_⟩
    rw [missing?, List.find?_eq_none]
    intro m hm hmissing
    obtain ⟨p, hp, hread⟩ := exists_mem_of_forall₂ hd.members hm
    rw [Bool.and_eq_true, hread.name_eq] at hmissing
    rcases hlacks p hp with hmem | hlack
    · simp [hmem] at hmissing
    · cases hmissing.1.symm.trans (hread.optional hlack)
  | array ts =>
    obtain ⟨seen, hlists, -, hall⟩ := exists_lists hd.members h []
    rw [hd.blank, hd.whole seen hall] at hlists
    exact hlists
  | _ => exact absurd h id

end Layout.Describes

/-! ### Numbers and texts -/

section

variable {α : Type} {read : Reader α} {P : Tree → α → Prop} {a : α}

/-- A part that is a number, in its digits. -/
def Part.natural (name : String) (n : Nat) : Part where
  name := name
  IsToldBy t := t = .number ⟨false, Nat.toDigits 10 n, [], none⟩
  MayLack := False

/-- A part that is a text. -/
def Part.text (name s : String) : Part where
  name := name
  IsToldBy t := t.IsString s
  MayLack := False

/-- A number is read from its digits. -/
lemma Reads.takes_natural {n : Nat} (h : Reads read (.natural n) a) {name : String} {t : Tree}
    (ht : (Part.natural name n).IsToldBy t) : Takes read t a := by
  obtain rfl : t = .number ⟨false, Nat.toDigits 10 n, [], none⟩ := ht
  have hexact : (Value.natural n).IsExact := trivial
  rw [← Value.tree_natural]
  exact (reads_iff_takes hexact).mp h

/-- A text is read from its characters. -/
lemma takes_text {name s : String} {t : Tree} (ht : (Part.text name s).IsToldBy t) :
    Takes Reader.string t s :=
  accepts_string.takes_iff.mpr ht

/-- A part is read as a member that has to be there, if it is read and put into the draft. -/
lemma Member.reads_needed {p : Part} {draft : List String → σ} {put : α → σ → σ}
    (htakes : ∀ t, p.IsToldBy t → Takes read t a)
    (hput : ∀ seen, put a (draft seen) = draft (p.name :: seen)) (hlack : ¬ p.MayLack) :
    (Member.needed p.name read put).Reads p draft where
  name_eq := rfl
  optional h := absurd h hlack
  takes t ht := ⟨put a, (htakes t ht).map put, hput⟩

/-- A part is read as a member that may be left out, if it is read and put into the draft. -/
lemma Member.reads_defaulted {p : Part} {draft : List String → σ} {put : α → σ → σ}
    (htakes : ∀ t, p.IsToldBy t → Takes read t a)
    (hput : ∀ seen, put a (draft seen) = draft (p.name :: seen)) :
    (Member.defaulted p.name read put).Reads p draft where
  name_eq := rfl
  optional _ := rfl
  takes t ht := ⟨put a, (htakes t ht).map put, hput⟩

/-- A member that has to be there accepts what is accepted as its value. -/
lemma Accepts.needed (h : Accepts read P) (name : String) (put : α → σ → σ) :
    Accepts (Member.needed name read put).read (Takes (Member.needed name read put).read) :=
  (h.map put).takes

/-- A member that may be left out accepts what is accepted as its value. -/
lemma Accepts.defaulted (h : Accepts read P) (name : String) (put : α → σ → σ) :
    Accepts (Member.defaulted name read put).read (Takes (Member.defaulted name read put).read) :=
  (h.map put).takes

end

/-! ### Refused objects -/

namespace Layout

variable {layout : Layout σ} {ms : List (List Piece × Tree)} {seen seen' : List String}
  {draft final : σ} {m : Member σ}

/-- What has been seen does not come again. -/
lemma Gathers.not_isNamed (h : layout.Gathers ms seen draft seen' final) (hm : m ∈ layout.members)
    (hseen : m.name ∈ seen) : ∀ n ∈ ms, ¬ IsNamed m.name n := by
  induction h with
  | done => exact fun _ hn => absurd hn List.not_mem_nil
  | @next key name t ms seen seen' seen'' draft draft' final hname hfirst hrest ih =>
    have hother : m.name ≠ name ∧ m.name ∈ seen' := by
      cases hfirst with
      | declared hfind hnew htakes =>
        exact ⟨fun heq => hnew (heq ▸ hseen), List.mem_cons_of_mem name hseen⟩
      | stray hfind hstrict =>
        refine ⟨fun heq => ?_, hseen⟩
        have hno := List.find?_eq_none.mp hfind m hm
        simp [heq] at hno
    exact List.forall_mem_cons.mpr ⟨fun hnamed => hother.1 (hnamed.unique hname), ih hother.2⟩

/-- What the first member of a name does is to be seen. -/
lemma Admits.mem_of_isNamed {t : Tree} {draft' : σ}
    (h : layout.Admits m.name t seen draft seen' draft') (hm : m ∈ layout.members) :
    m.name ∈ seen' := by
  cases h with
  | declared hfind hnew htakes => exact List.mem_cons_self
  | stray hfind hstrict =>
    have hno := List.find?_eq_none.mp hfind m hm
    simp at hno

/-- No name of a declared member occurs twice among members that are gathered. -/
lemma Gathers.not_isTwice (h : layout.Gathers ms seen draft seen' final)
    (hm : m ∈ layout.members) : ¬ IsTwice m.name ms := by
  induction h with
  | done =>
    rintro ⟨_, _, hsub, -⟩
    cases hsub
  | @next key name t ms seen seen' seen'' draft draft' final hname hfirst hrest ih =>
    rw [isTwice_cons]
    rintro (htwice | ⟨hnamed, n, hn, hagain⟩)
    · exact ih htwice
    · obtain rfl : m.name = name := hnamed.unique hname
      exact hrest.not_isNamed hm (hfirst.mem_of_isNamed hm) n hn hagain

/-- What has been seen in the end was seen before or is the name of a member. -/
lemma Gathers.exists_isNamed (h : layout.Gathers ms seen draft seen' final) {name : String}
    (hname : name ∈ seen') : name ∈ seen ∨ ∃ n ∈ ms, IsNamed name n := by
  induction h with
  | done => exact .inl hname
  | @next key first t ms seen seen' seen'' draft draft' final hfirst hadmits hrest ih =>
    rcases ih hname with hmem | ⟨n, hn, hnamed⟩
    · cases hadmits with
      | declared hfind hnew htakes =>
        rcases List.mem_cons.mp hmem with rfl | hmem
        · exact .inr ⟨(key, t), List.mem_cons_self, hfirst⟩
        · exact .inl hmem
      | stray hfind hstrict => exact .inl hmem
    · exact .inr ⟨n, List.mem_cons_of_mem _ hn, hnamed⟩

/-- What stands under the name of a declared member is taken as the member. -/
lemma Gathers.takes (h : layout.Gathers ms seen draft seen' final) {name : String}
    (hfind : layout.members.find? (·.name == name) = some m) {n : List Piece × Tree} (hn : n ∈ ms)
    (hname : IsNamed name n) : ∃ update, Takes m.read n.2 update := by
  induction h with
  | done => cases hn
  | @next key first t ms seen seen' seen'' draft draft' final hfirst hadmits hrest ih =>
    rcases List.mem_cons.mp hn with rfl | hn
    · obtain rfl : name = first := hname.unique hfirst
      cases hadmits with
      | declared hfind' hnew htakes =>
        obtain rfl := Option.some.inj (hfind.symm.trans hfind')
        exact ⟨_, htakes⟩
      | stray hnone hstrict => cases hnone.symm.trans hfind
    · exact ih hn

/-- What stands at the place of a member is taken as the member. -/
lemma Lists.takes {members : List (Member σ)} {ts : List Tree} (h : Lists members ts draft final)
    {i : Nat} {m : Member σ} {t : Tree} (hm : members[i]? = some m) (ht : ts[i]? = some t) :
    ∃ update, Takes m.read t update := by
  induction h generalizing i with
  | done => cases ht
  | @item m₁ members t₁ ts draft final update htakes hrest ih =>
    cases i with
    | zero =>
      obtain rfl := Option.some.inj hm
      obtain rfl := Option.some.inj ht
      exact ⟨update, htakes⟩
    | succ i => exact ih hm ht
  | left hfree hrest ih => cases ht

/-- **A flawed object** is not made of the members of a structure. -/
theorem not_isFlawed {declared needed : List String} {t : Tree} {a : σ}
    (hdeclared : ∀ name ∈ declared, ∃ m ∈ layout.members, m.name = name)
    (hneeded : ∀ name ∈ needed, ∃ m ∈ layout.members, m.name = name ∧ m.required = true)
    (h : layout.IsMadeOf t a) : ¬ t.IsFlawed declared needed := by
  cases t with
  | object ms =>
    obtain ⟨seen, hgathers, hmissing⟩ := h
    rintro (⟨name, hname, htwice⟩ | ⟨name, hname, hnone⟩)
    · obtain ⟨m, hm, rfl⟩ := hdeclared name hname
      exact hgathers.not_isTwice hm htwice
    · obtain ⟨m, hm, rfl, hrequired⟩ := hneeded name hname
      have hseen : m.name ∈ seen := by
        have hno := List.find?_eq_none.mp hmissing m hm
        simpa [hrequired] using hno
      rcases hgathers.exists_isNamed hseen with hmem | ⟨n, hn, hnamed⟩
      · cases hmem
      · exact hnone n hn hnamed
  | _ => exact id

end Layout

end Lockstep.Json
