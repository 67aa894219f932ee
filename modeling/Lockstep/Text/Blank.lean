/-!
# Blank characters, words and trimming

A character is blank when it has the Unicode property `White_Space`.  A line is cut into words at
its blanks; a run of blanks counts as one cut, and blanks at either end produce no word.  The main
statements say that no word is empty and that no word holds a blank.
-/

namespace Lockstep.Text

/-- The ranges of code points with the property `White_Space`, in ascending order. -/
def blankRanges : List (Nat × Nat) :=
  [(0x09, 0x0d), (0x20, 0x20), (0x85, 0x85), (0xa0, 0xa0), (0x1680, 0x1680), (0x2000, 0x200a),
    (0x2028, 0x2029), (0x202f, 0x202f), (0x205f, 0x205f), (0x3000, 0x3000)]

/-- A code point lies in one of the given ranges. -/
def inRanges (ranges : List (Nat × Nat)) (n : Nat) : Bool :=
  ranges.any fun r => decide (r.1 ≤ n) && decide (n ≤ r.2)

/-- A character is blank when it has the property `White_Space`. -/
def isBlank (c : Char) : Bool :=
  inRanges blankRanges c.toNat

/-- The words of a text: its longest runs without a blank, in order. -/
def words : List Char → List (List Char)
  | [] => []
  | c :: cs =>
    if isBlank c then words cs
    else (c :: cs.takeWhile (!isBlank ·)) :: words (cs.dropWhile (!isBlank ·))
termination_by cs => cs.length
decreasing_by
  · simp
  · exact Nat.lt_succ_of_le (List.dropWhile_sublist _).length_le

@[simp] theorem words_nil : words [] = [] := by
  simp [words]

theorem words_cons_blank {c : Char} {cs : List Char} (h : isBlank c = true) :
    words (c :: cs) = words cs := by
  rw [words, if_pos h]

theorem words_cons_visible {c : Char} {cs : List Char} (h : isBlank c = false) :
    words (c :: cs) =
      (c :: cs.takeWhile (!isBlank ·)) :: words (cs.dropWhile (!isBlank ·)) := by
  rw [words, if_neg (by simp [h])]

/-- No word is empty. -/
theorem ne_nil_of_mem_words {w cs : List Char} (h : w ∈ words cs) : w ≠ [] := by
  fun_induction words cs with
  | case1 => simp at h
  | case2 c cs _ ih => exact ih h
  | case3 c cs _ ih =>
    rcases List.mem_cons.1 h with rfl | h
    · simp
    · exact ih h

/-- No word holds a blank. -/
theorem not_isBlank_of_mem_words {w cs : List Char} {c : Char} (hw : w ∈ words cs) (hc : c ∈ w) :
    isBlank c = false := by
  fun_induction words cs with
  | case1 => simp at hw
  | case2 _ _ _ ih => exact ih hw
  | case3 d cs hd ih =>
    rcases List.mem_cons.1 hw with rfl | hw
    · rcases List.mem_cons.1 hc with rfl | hc
      · simpa using hd
      · have := List.all_eq_true.1 (List.all_takeWhile (p := (!isBlank ·)) (l := cs)) c hc
        simpa using this
    · exact ih hw

/-- A text that is a word of its own: it is not empty and holds no blank. -/
def isWord (cs : List Char) : Bool :=
  !cs.isEmpty && cs.all (!isBlank ·)

/-- The text without the blanks at its two ends. -/
def trim (cs : List Char) : List Char :=
  ((cs.dropWhile isBlank).reverse.dropWhile isBlank).reverse

end Lockstep.Text
