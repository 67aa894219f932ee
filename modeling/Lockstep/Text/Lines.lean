/-!
# Lines

A text is cut into lines at its breaks.  A break ends the line before it, so that no line begins
behind the last one.  The main statements say how the lines of a text follow from its first break,
and that a text that ends with a break can be read apart from what comes behind it.
-/

namespace Lockstep.Text

variable {α : Type}

/-- The lines of a text, without the breaks that end them. -/
def linesBy (isBreak : α → Bool) (text : List α) : List (List α) :=
  match text with
  | [] => []
  | a :: rest =>
    (a :: rest).takeWhile (!isBreak ·) ::
      linesBy isBreak (((a :: rest).dropWhile (!isBreak ·)).drop 1)
termination_by text.length
decreasing_by
  have := (List.dropWhile_sublist (!isBreak ·) (l := a :: rest)).length_le
  simp only [List.length_drop, List.length_cons] at this ⊢
  omega

@[simp] theorem linesBy_nil (isBreak : α → Bool) : linesBy isBreak [] = [] := by
  rw [linesBy]

/-- A break at the beginning ends an empty line. -/
theorem linesBy_cons_of_break {isBreak : α → Bool} {b : α} (hb : isBreak b = true)
    (rest : List α) : linesBy isBreak (b :: rest) = [] :: linesBy isBreak rest := by
  rw [linesBy, List.takeWhile_cons_of_neg (by simp [hb]), List.dropWhile_cons_of_neg (by simp [hb]),
    List.drop_succ_cons, List.drop_zero]

/-- Anything else at the beginning belongs to the first line. -/
theorem linesBy_cons_of_not_break {isBreak : α → Bool} {a : α} (ha : isBreak a = false)
    {rest : List α} (h : rest ≠ []) :
    linesBy isBreak (a :: rest) = (linesBy isBreak rest).modifyHead (a :: ·) := by
  cases rest with
  | nil => exact absurd rfl h
  | cons c rest =>
    rw [linesBy, linesBy, List.takeWhile_cons_of_pos (by simp [ha]),
      List.dropWhile_cons_of_pos (by simp [ha]), List.modifyHead_cons]

/-- Behind a break the lines of the rest begin. -/
theorem linesBy_append {isBreak : α → Bool} {b : α} (hb : isBreak b = true)
    (first rest : List α) :
    linesBy isBreak (first ++ b :: rest) =
      linesBy isBreak (first ++ [b]) ++ linesBy isBreak rest := by
  induction first with
  | nil => rw [List.nil_append, List.nil_append, linesBy_cons_of_break hb,
      linesBy_cons_of_break hb, linesBy_nil, List.singleton_append]
  | cons a first ih =>
    rw [List.cons_append, List.cons_append]
    cases ha : isBreak a with
    | true => rw [linesBy_cons_of_break ha, linesBy_cons_of_break ha, ih, List.cons_append]
    | false =>
      have hne : linesBy isBreak (first ++ [b]) ≠ [] := by
        intro h
        cases first with
        | nil => rw [List.nil_append, linesBy_cons_of_break hb] at h; cases h
        | cons c first => rw [List.cons_append, linesBy] at h; cases h
      obtain ⟨line, ls, hls⟩ := List.exists_cons_of_ne_nil hne
      rw [linesBy_cons_of_not_break ha (by simp), linesBy_cons_of_not_break ha (by simp), ih, hls,
        List.cons_append, List.modifyHead_cons, List.modifyHead_cons, List.cons_append]

end Lockstep.Text
