import Lockstep.Proofs.Json.Accepts

/-!
# Reading what was written

A reader reads a written value as something if it takes exactly the tokens of the value and answers
with that (`Json.Reads`).  These are the tokens of the tree of the value, so what is said about
trees is true of values (`Json.reads_iff_takes`): numbers that fit, strings, arrays and objects are
read.

An object is read member by member.  What has been read so far is a draft of the structure and the
names that have been seen, and each member adds to both (`Json.Layout.Fills`).
-/

namespace Lockstep.Json

/-! ### Numbers -/

/-- The digits of a number that fits sixty-four bits are taken as the number. -/
lemma Literal.absorb_toDigits {n : Nat} (hn : n < UInt64.size) :
    absorb 0 (Nat.toDigits 10 n) = (n, []) := by
  have hread := Text.read_toDigits (f := absorb) (by decide : 1 < 10)
    (fun value d rest hd hvalue => ?_) hn []
  · rw [List.append_nil] at hread
    exact hread
  · have hall : ∀ d < 10, Literal.digit d.digitChar = d := by decide
    rw [absorb, hall d hd, if_pos hvalue]

/-- A number that fits sixty-four bits has its value. -/
lemma Literal.value?_toDigits {n : Nat} (hn : n < UInt64.size) :
    (⟨false, Nat.toDigits 10 n, [], none⟩ : Literal).value? = some (.integer n) := by
  simp only [value?, absorb_toDigits hn, Bool.false_eq_true, if_false]

/-! ### Values -/

variable {α β σ : Type} {read : Reader α} {v : Value} {a : α}

/-- The reader takes the tokens of the value and answers with that. -/
def Reads (read : Reader α) (v : Value) (a : α) : Prop :=
  ∀ rest, read (v.tokens ++ rest) = .ok (a, rest)

/-- What is read may be changed. -/
lemma Reads.map (h : Reads read v a) (f : α → β) : Reads (read.map f) v (f a) := by
  intro rest
  rw [Reader.map, h rest]
  rfl

/-- A member that has to be there is read as a change of the structure. -/
lemma Reads.needed (h : Reads read v a) (name : String) (put : α → σ → σ) :
    Reads (Member.needed name read put).read v (put a) :=
  h.map put

/-- A member that may be left out is read as a change of the structure. -/
lemma Reads.defaulted (h : Reads read v a) (name : String) (put : α → σ → σ) :
    Reads (Member.defaulted name read put).read v (put a) :=
  h.map put

/-- **A text of a value is read** as the reader reads the value. -/
theorem Reads.ofText (h : Reads read v a) (hexact : v.IsExact) {cs : List Char}
    (hcs : v.IsText cs) : ofChars read cs = .ok a := by
  have hread := h []
  rw [List.append_nil] at hread
  rw [Json.ofChars, hcs.tokens_eq hexact, ofTokens, hread]

/-- Whether a value is read depends on its tree. -/
lemma reads_iff_takes (hexact : v.IsExact) : Reads read v a ↔ Takes read v.tree a := by
  rw [Reads, Takes, Value.tokens_tree hexact]

/-- A number within its bound is read. -/
lemma reads_natural {n bound : Nat} (hn : n < bound) (hbound : bound ≤ UInt64.size)
    (title : String) : Reads (Reader.natural title bound) (.natural n) n := by
  have hvalue := Literal.value?_toDigits (Nat.lt_of_lt_of_le hn hbound)
  have hexact : (Value.natural n).IsExact := trivial
  rw [reads_iff_takes hexact, Value.tree_natural, (accepts_natural title bound).takes_iff]
  exact ⟨hvalue, hn⟩

/-- A number of sixty-four bits is read. -/
lemma reads_uint64 (n : UInt64) : Reads Reader.uint64 (.natural n.toNat) n := by
  have h := (reads_natural n.toNat_lt_size (Nat.le_refl _) "u64").map UInt64.ofNat
  rwa [UInt64.ofNat_toNat] at h

/-- A number of sixty-four bits that counts something is read. -/
lemma reads_count (n : UInt64) : Reads Reader.count (.natural n.toNat) n := by
  have h := (reads_natural n.toNat_lt_size (Nat.le_refl _) "usize").map UInt64.ofNat
  rwa [UInt64.ofNat_toNat] at h

/-- A number of thirty-two bits is read. -/
lemma reads_uint32 (n : UInt32) : Reads Reader.uint32 (.natural n.toNat) n := by
  have h := (reads_natural n.toNat_lt_size (by decide) "u32").map UInt32.ofNat
  rwa [UInt32.ofNat_toNat] at h

/-- A number of eight bits is read. -/
lemma reads_uint8 (n : UInt8) : Reads Reader.uint8 (.natural n.toNat) n := by
  have h := (reads_natural n.toNat_lt_size (by decide) "u8").map UInt8.ofNat
  rwa [UInt8.ofNat_toNat] at h

/-- A string is read. -/
lemma reads_string (s : String) : Reads Reader.string (.string s) s := by
  have hexact : (Value.string s).IsExact := trivial
  rw [reads_iff_takes hexact, accepts_string.takes_iff]
  exact characters_eq_ok_iff.mp (characters_map_ofChar s.toList)

/-- A truth value is read. -/
lemma reads_boolean (value : Bool) : Reads Reader.boolean (.boolean value) value :=
  fun _ => rfl

/-- A number that may be missing is written without doubles. -/
lemma isExact_nullable (number : Option UInt64) :
    ((number.map fun n => Value.natural n.toNat).getD .null).IsExact := by
  cases number with
  | none => trivial
  | some n => trivial

/-- A number that may be missing is read; a missing one is written as `null`. -/
lemma reads_nullable {read : Reader UInt64} (h : ∀ n, Reads read (.natural n.toNat) n)
    (number : Option UInt64) :
    Reads (Reader.nullable read) ((number.map fun n => Value.natural n.toNat).getD .null)
      number := by
  cases number with
  | none => exact fun _ => rfl
  | some n => exact (h n).map some

/-- The name of a variant is read as the variant. -/
lemma reads_choice {variants : List (String × α)} {name : String}
    (h : variants.lookup name = some a) : Reads (Reader.choice variants) (.string name) a := by
  intro rest
  have hname := reads_string name rest
  rw [Value.tokens, List.singleton_append] at hname ⊢
  simp only [Reader.choice, hname, Reader.variant, h]
  rfl

/-! ### Arrays -/

/-- Behind a comma the next element is read. -/
lemma elements_of_comma {ts rest : List Token} {t : Token}
    (hread : read ts = .ok (a, .comma :: t :: rest)) (ht : t ≠ .endArray) (fuel : Nat) :
    Reader.elements read (fuel + 1) ts = (Reader.elements read fuel).map (a :: ·) (t :: rest) := by
  rw [Reader.elements, hread]
  cases t with
  | endArray => exact absurd rfl ht
  | _ => rfl

/-- **An array is read** if its elements are. -/
theorem reads_array {vs : List Value} {as : List α} (h : List.Forall₂ (Reads read) vs as)
    (hexact : ∀ v ∈ vs, v.IsExact) : Reads (Reader.array read) (.array vs) as := by
  have htrees : List.Forall₂ (Takes read) (Value.elementTrees vs) as := by
    induction h with
    | nil => exact .nil
    | @cons v a vs as hv hvs ih =>
      obtain ⟨hfirst, hothers⟩ := List.forall_mem_cons.mp hexact
      exact .cons ((reads_iff_takes hfirst).mp hv) (ih hothers)
  have harray : (Value.array vs).IsExact := Value.allExact_iff.mpr hexact
  exact (reads_iff_takes harray).mpr (Takes.array htrees)

/-- Strings are written without doubles. -/
lemma isExact_strings (strings : List String) :
    (Value.array (strings.map .string)).IsExact := by
  refine Value.allExact_iff.mpr fun v hv => ?_
  obtain ⟨s, -, rfl⟩ := List.mem_map.mp hv
  trivial

/-- Strings are read. -/
lemma reads_strings (strings : List String) :
    Reads (Reader.array Reader.string) (.array (strings.map .string)) strings := by
  refine reads_array ?_ (Value.allExact_iff.mp (isExact_strings strings))
  rw [List.forall₂_map_left_iff]
  exact List.forall₂_same.mpr fun s _ => reads_string s

/-! ### Objects -/

namespace Layout

variable {layout : Layout σ} {ms : List (String × Value)} {seen : List String} {draft final : σ}

/-- Members that can be read one after the other.  Of none of them the name has been seen before;
they turn one draft of the structure into another one. -/
inductive Fills (layout : Layout σ) : List (String × Value) → List String → σ → σ → Prop where
  | done {seen : List String} {draft : σ} : Fills layout [] seen draft draft
  | next {name : String} {v : Value} {ms : List (String × Value)} {seen : List String}
      {draft final : σ} {m : Member σ} {update : σ → σ}
      (hfind : layout.members.find? (·.name == name) = some m) (hnew : name ∉ seen)
      (hread : Reads m.read v update)
      (hrest : Fills layout ms (name :: seen) (update draft) final) :
      Fills layout ((name, v) :: ms) seen draft final

/-- The value behind the name of a member is read. -/
lemma entry_tokens {name : String} {m : Member σ} {update : σ → σ}
    (hfind : layout.members.find? (·.name == name) = some m) (hnew : name ∉ seen)
    (hread : Reads m.read v update) (draft : σ) (rest : List Token) :
    layout.entry seen draft name (.colon :: (v.tokens ++ rest)) =
      .ok ((name :: seen, update draft), rest) := by
  rw [entry_colon hfind hnew]
  exact (hread.map fun update => (name :: seen, update draft)) rest

/-- Written members are gathered as they are read. -/
lemma Fills.gathers (h : layout.Fills ms seen draft final) (hexact : Value.MembersExact ms) :
    layout.Gathers (Value.memberTrees ms) seen draft ((ms.map (·.1)).reverse ++ seen) final := by
  induction h with
  | done => exact .done
  | @next name v ms seen draft final m update hfind hnew hread hrest ih =>
    obtain ⟨hfirst, hothers⟩ := hexact
    have hname := characters_eq_ok_iff.mp (characters_map_ofChar name.toList)
    have hseen : (((name, v) :: ms).map (·.1)).reverse ++ seen =
        (ms.map (·.1)).reverse ++ name :: seen := by
      rw [List.map_cons, List.reverse_cons, List.append_assoc, List.singleton_append]
    rw [hseen]
    exact .next hname (.declared hfind hnew ((reads_iff_takes hfirst).mp hread)) (ih hothers)

/-- **A structure is read from an object** whose members can be read, if none of those that have to
be there is missing. -/
theorem reads_object (h : layout.Fills ms [] layout.blank final)
    (hexact : (Value.object ms).IsExact) (hall : layout.missing? (ms.map (·.1)).reverse = none) :
    Reads layout.reader (.object ms) final := by
  have hgathers := h.gathers hexact
  rw [List.append_nil] at hgathers
  exact (reads_iff_takes hexact).mpr (hgathers.takes_reader hall)

end Layout

end Lockstep.Json
