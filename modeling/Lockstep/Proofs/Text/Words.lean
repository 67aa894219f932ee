import Lockstep.Text.Blank
import Lockstep.Text.Lines
import Mathlib.Tactic.Lemma

/-!
# Words put together and cut apart

Words with a blank in front of each of them are cut into the same words again, and only words come
out of cutting a text; `words_eq_iff` says which.  Lines are cut apart at the breaks that end them,
as `linesBy_eq_iff` says.  Trimming takes blanks off both ends and nothing else.
-/

namespace Lockstep.Text

/-! ### Words -/

/-- A word is not empty and holds no blank. -/
lemma isWord_iff {cs : List Char} :
    isWord cs = true ↔ cs ≠ [] ∧ ∀ c ∈ cs, isBlank c = false := by
  simp [isWord]

/-- A word behind a word makes a longer word. -/
lemma isWord_append {v w : List Char} (hv : isWord v = true) (hw : isWord w = true) :
    isWord (v ++ w) = true := by
  rw [isWord_iff] at hv hw ⊢
  refine ⟨List.append_ne_nil_of_left_ne_nil hv.1 w, fun c hc => ?_⟩
  rcases List.mem_append.mp hc with hmem | hmem
  · exact hv.2 c hmem
  · exact hw.2 c hmem

/-- What a text is cut into are words. -/
lemma isWord_of_mem_words {w cs : List Char} (h : w ∈ words cs) : isWord w = true :=
  isWord_iff.mpr ⟨ne_nil_of_mem_words h, fun _ hc => not_isBlank_of_mem_words h hc⟩

/-- A word ends before a blank. -/
lemma takeWhile_dropWhile_word {w rest : List Char} (hw : ∀ c ∈ w, isBlank c = false)
    (hrest : ∀ c ∈ rest.head?, isBlank c = true) :
    (w ++ rest).takeWhile (!isBlank ·) = w ∧ (w ++ rest).dropWhile (!isBlank ·) = rest := by
  have hvisible : ∀ c ∈ w, (!isBlank c) = true := fun c hc => by rw [hw c hc, Bool.not_false]
  rw [List.takeWhile_append_of_pos hvisible, List.dropWhile_append_of_pos hvisible]
  cases rest with
  | nil => exact ⟨List.append_nil w, rfl⟩
  | cons c rest => simp [hrest c rfl]

/-- A word at the beginning of a text is the first word of the text. -/
lemma words_append {w rest : List Char} (hw : isWord w = true)
    (hrest : ∀ c ∈ rest.head?, isBlank c = true) : words (w ++ rest) = w :: words rest := by
  obtain ⟨hne, hvisible⟩ := isWord_iff.mp hw
  cases w with
  | nil => exact absurd rfl hne
  | cons c w =>
    have hc : isBlank c = false := hvisible c List.mem_cons_self
    obtain ⟨htake, hdrop⟩ := takeWhile_dropWhile_word
      (fun d hd => hvisible d (List.mem_cons_of_mem _ hd)) hrest
    rw [List.cons_append, words_cons_visible hc, htake, hdrop]

/-- **Words with a blank in front of each of them are cut apart again.** -/
theorem words_flatMap_blank {ws : List (List Char)} (h : ∀ w ∈ ws, isWord w = true) :
    words (ws.flatMap (' ' :: ·)) = ws := by
  induction ws with
  | nil => exact words_nil
  | cons w ws ih =>
    have hrest : ∀ c ∈ (ws.flatMap (' ' :: ·)).head?, isBlank c = true := by
      intro c hc
      cases ws with
      | nil => cases hc
      | cons _ _ =>
        obtain rfl : ' ' = c := Option.some.inj hc
        decide
    rw [List.flatMap_cons, List.cons_append, words_cons_blank (by decide),
      words_append (h w List.mem_cons_self) hrest, ih fun v hv => h v (List.mem_cons_of_mem _ hv)]

/-- Words with a blank in front of each of them do not end with a blank. -/
lemma not_isBlank_getLast?_flatMap {ws : List (List Char)} (h : ∀ w ∈ ws, isWord w = true) :
    ∀ c ∈ (ws.flatMap (' ' :: ·)).getLast?, isBlank c = false := by
  intro c hc
  cases hws : ws.getLast? with
  | none =>
    rw [List.getLast?_eq_none_iff.mp hws] at hc
    cases hc
  | some w =>
    obtain ⟨front, rfl⟩ := List.getLast?_eq_some_iff.mp hws
    obtain ⟨hne, hvisible⟩ := isWord_iff.mp (h w (List.mem_append_right _ List.mem_cons_self))
    obtain ⟨d, hd⟩ := Option.ne_none_iff_exists'.mp (mt List.getLast?_eq_none_iff.mp hne)
    rw [List.flatMap_append, List.flatMap_singleton, List.getLast?_append, List.getLast?_cons, hd]
      at hc
    obtain rfl : d = c := Option.some.inj hc
    exact hvisible d (List.mem_of_getLast? hd)

/-- The text consists of those words, with any blanks between them and at both ends; each word
goes on up to a blank or the end of the text. -/
inductive Splits : List Char → List (List Char) → Prop
  | done : Splits [] []
  | blank {c : Char} {cs : List Char} {ws : List (List Char)} (hc : isBlank c = true)
      (hrest : Splits cs ws) : Splits (c :: cs) ws
  | word {w cs : List Char} {ws : List (List Char)} (hw : isWord w = true)
      (hends : ∀ c ∈ cs.head?, isBlank c = true) (hrest : Splits cs ws) : Splits (w ++ cs) (w :: ws)

/-- **The words of a text** are those it consists of. -/
theorem words_eq_iff {cs : List Char} {ws : List (List Char)} : words cs = ws ↔ Splits cs ws := by
  constructor
  · rintro rfl
    fun_induction words cs with
    | case1 => exact .done
    | case2 c cs hc ih => exact .blank hc ih
    | case3 c cs hc ih =>
      have hcut : words (c :: cs) = _ := words_cons_visible (Bool.not_eq_true _ ▸ hc)
      have hword : isWord (c :: cs.takeWhile (!isBlank ·)) = true :=
        isWord_of_mem_words (hcut ▸ List.mem_cons_self)
      have hends : ∀ d ∈ (cs.dropWhile (!isBlank ·)).head?, isBlank d = true := by
        intro d hd
        have := List.head?_dropWhile_not (!isBlank ·) cs
        rw [Option.mem_def.mp hd] at this
        simpa using this
      have h := Splits.word hword hends ih
      rwa [List.cons_append, List.takeWhile_append_dropWhile] at h
  · intro h
    induction h with
    | done => exact words_nil
    | blank hc _ ih => rw [words_cons_blank hc, ih]
    | word hw hends _ ih => rw [words_append hw hends, ih]

/-! ### Lines -/

/-- **A line is cut off at the break that ends it.** -/
theorem linesBy_line {α : Type} (isBreak : α → Bool) {b : α} (hb : isBreak b = true)
    {line : List α} (hline : ∀ a ∈ line, isBreak a = false) (rest : List α) :
    linesBy isBreak (line ++ b :: rest) = line :: linesBy isBreak rest := by
  induction line with
  | nil => rw [List.nil_append, linesBy_cons_of_break hb]
  | cons a line ih =>
    have hothers := ih fun c hc => hline c (List.mem_cons_of_mem _ hc)
    have hne : line ++ b :: rest ≠ [] := List.append_ne_nil_of_right_ne_nil _ (List.cons_ne_nil _ _)
    rw [List.cons_append, linesBy_cons_of_not_break (hline a List.mem_cons_self) hne, hothers,
      List.modifyHead_cons]

/-- The text is cut into those lines at its breaks.  Each line goes on up to the break that ends it;
only the last one may end with the text, and then it is not empty. -/
inductive IsCut {α : Type} (isBreak : α → Bool) : List α → List (List α) → Prop
  | none : IsCut isBreak [] []
  | last {line : List α} (hne : line ≠ []) (hline : ∀ a ∈ line, isBreak a = false) :
    IsCut isBreak line [line]
  | line {line rest : List α} {b : α} {ls : List (List α)} (hline : ∀ a ∈ line, isBreak a = false)
    (hb : isBreak b = true) (hrest : IsCut isBreak rest ls) :
    IsCut isBreak (line ++ b :: rest) (line :: ls)

/-- **The lines of a text** are those into which it is cut. -/
theorem linesBy_eq_iff {α : Type} {isBreak : α → Bool} {text : List α} {ls : List (List α)} :
    linesBy isBreak text = ls ↔ IsCut isBreak text ls := by
  constructor
  · rintro rfl
    fun_induction linesBy isBreak text with
    | case1 => exact .none
    | case2 a rest ih =>
      have hline : ∀ c ∈ (a :: rest).takeWhile (!isBreak ·), isBreak c = false := fun c hc => by
        simpa using List.all_eq_true.mp List.all_takeWhile c hc
      have hwhole := List.takeWhile_append_dropWhile (p := (!isBreak ·)) (l := a :: rest)
      cases hdrop : (a :: rest).dropWhile (!isBreak ·) with
      | nil =>
        rw [hdrop, List.append_nil] at hwhole
        rw [hwhole] at hline ⊢
        rw [List.drop_nil, linesBy_nil]
        exact .last (List.cons_ne_nil _ _) hline
      | cons b more =>
        have hb : isBreak b = true := by
          have := List.head?_dropWhile_not (!isBreak ·) (a :: rest)
          rw [hdrop] at this
          simpa using this
        rw [hdrop] at hwhole ih
        have hcut := IsCut.line hline hb ih
        rwa [List.drop_succ_cons, List.drop_zero, hwhole] at hcut
  · intro h
    induction h with
    | none => exact linesBy_nil isBreak
    | @last line hne hline =>
      obtain ⟨a, rest, rfl⟩ := List.exists_cons_of_ne_nil hne
      have hkept : ∀ c ∈ a :: rest, (!isBreak c) = true := fun c hc => by rw [hline c hc]; rfl
      have hdrop : ((a :: rest) ++ []).dropWhile (!isBreak ·) = [] :=
        List.dropWhile_append_of_pos hkept
      have hwhole := List.takeWhile_append_dropWhile (p := (!isBreak ·)) (l := a :: rest)
      rw [List.append_nil] at hdrop
      rw [hdrop, List.append_nil] at hwhole
      rw [linesBy, hwhole, hdrop, List.drop_nil, linesBy_nil]
    | line hline hb _ ih => rw [linesBy_line isBreak hb hline, ih]

/-! ### Trimming -/

/-- Blanks in front of a text that does not begin with one are dropped. -/
lemma dropWhile_isBlank_append {front cs : List Char} (hfront : ∀ c ∈ front, isBlank c = true)
    (hcs : ∀ c ∈ cs.head?, isBlank c = false) : (front ++ cs).dropWhile isBlank = cs := by
  rw [List.dropWhile_append_of_pos hfront]
  cases cs with
  | nil => rfl
  | cons c cs => exact List.dropWhile_cons_of_neg (by rw [hcs c rfl]; exact Bool.noConfusion)

/-- **Trimming takes the blanks off both ends** of a text that begins and ends otherwise. -/
theorem trim_append {front cs back : List Char} (hfront : ∀ c ∈ front, isBlank c = true)
    (hback : ∀ c ∈ back, isBlank c = true) (hne : cs ≠ [])
    (hhead : ∀ c ∈ cs.head?, isBlank c = false) (hlast : ∀ c ∈ cs.getLast?, isBlank c = false) :
    trim (front ++ cs ++ back) = cs := by
  have hbegins : ∀ c ∈ (cs ++ back).head?, isBlank c = false := by
    obtain ⟨d, ds, rfl⟩ := List.exists_cons_of_ne_nil hne
    exact hhead
  have hends : ∀ c ∈ cs.reverse.head?, isBlank c = false := by
    rw [List.head?_reverse]
    exact hlast
  have hreversed : ∀ c ∈ back.reverse, isBlank c = true :=
    fun c hc => hback c (List.mem_reverse.mp hc)
  rw [trim, List.append_assoc, dropWhile_isBlank_append hfront hbegins, List.reverse_append,
    dropWhile_isBlank_append hreversed hends, List.reverse_reverse]

/-- Nothing is trimmed off a text that begins and ends visibly. -/
lemma trim_eq_self {cs : List Char} (hne : cs ≠ []) (hhead : ∀ c ∈ cs.head?, isBlank c = false)
    (hlast : ∀ c ∈ cs.getLast?, isBlank c = false) : trim cs = cs := by
  have hnone : ∀ c ∈ ([] : List Char), isBlank c = true := fun _ hc => absurd hc List.not_mem_nil
  have htrim := trim_append hnone hnone hne hhead hlast
  rwa [List.nil_append, List.append_nil] at htrim

/-- A blank at the end of a text is trimmed off. -/
lemma trim_concat {c : Char} (hc : isBlank c = true) (cs : List Char) :
    trim (cs ++ [c]) = trim cs := by
  have hsingle : [c].dropWhile isBlank = [] := List.dropWhile_cons_of_pos hc
  rw [trim, trim, List.dropWhile_append, hsingle]
  split
  · rename_i hempty
    rw [List.isEmpty_iff.mp hempty]
  · rw [List.reverse_append, List.reverse_singleton, List.singleton_append,
      List.dropWhile_cons_of_pos hc]

/-- A trimmed text is a part of the text. -/
lemma trim_infix (cs : List Char) : trim cs <:+: cs := by
  have hback : trim cs <+: cs.dropWhile isBlank := by
    rw [trim, ← List.reverse_suffix, List.reverse_reverse]
    exact List.dropWhile_suffix _
  exact hback.isInfix.trans (List.dropWhile_suffix _).isInfix

/-- A trimmed text begins with the first character that is not blank. -/
lemma head?_trim (cs : List Char) : (trim cs).head? = cs.find? (!isBlank ·) := by
  have hfind : cs.find? (!isBlank ·) = (cs.dropWhile isBlank).head? := by
    induction cs with
    | nil => rfl
    | cons c cs ih =>
      rw [List.find?_cons, List.dropWhile_cons]
      cases isBlank c with
      | true => exact ih
      | false => rfl
  rw [hfind, trim, List.head?_reverse]
  cases hrest : cs.dropWhile isBlank with
  | nil => rfl
  | cons c rest =>
    have hc : isBlank c = false := by
      have := List.head?_dropWhile_not isBlank cs
      rw [hrest] at this
      simpa using this
    have hkeep : ([c] : List Char).dropWhile isBlank = [c] :=
      List.dropWhile_cons_of_neg (by rw [hc]; exact Bool.noConfusion)
    rw [List.reverse_cons, List.dropWhile_append, hkeep]
    split
    · rfl
    · rw [List.getLast?_append, List.getLast?_singleton, Option.some_or]
      rfl

end Lockstep.Text
