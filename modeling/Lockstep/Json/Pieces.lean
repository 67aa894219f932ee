import Lockstep.Json.Value

/-!
# Writing JSON piece by piece

The text of a value is not handed on as a whole.  Every mark and every number is a piece of its own;
of a string the quotes, the longest runs of characters that stand for themselves, and each of the
other characters are.  Where a writer fails between two pieces, only the pieces before are written.

The main statement says that the pieces make up the text.
-/

namespace Lockstep.Json

/-- A character that stands for itself within a JSON string. -/
def isPlain (c : Char) : Bool :=
  escaped c == [c]

/-- Cuts characters into the longest runs of plain ones, and the others one by one. -/
def runs : List Char → List (List Char)
  | [] => []
  | c :: cs =>
    if isPlain c then
      match runs cs with
      | (d :: run) :: rest =>
        if isPlain d then (c :: d :: run) :: rest else [c] :: (d :: run) :: rest
      | rest => [c] :: rest
    else [c] :: runs cs

theorem flatten_runs (cs : List Char) : (runs cs).flatten = cs := by
  fun_induction runs cs <;> simp_all

/-- The pieces of a string. -/
def stringPieces (s : String) : List (List Char) :=
  ['"'] :: (runs s.toList).map (·.flatMap escaped) ++ [['"']]

theorem flatten_map_flatMap {α β : Type} (f : α → List β) (ls : List (List α)) :
    (ls.map (·.flatMap f)).flatten = ls.flatten.flatMap f := by
  induction ls with
  | nil => rfl
  | cons l ls ih => simp [ih]

theorem flatten_stringPieces (s : String) : (stringPieces s).flatten = stringText s := by
  simp [stringPieces, stringText, flatten_map_flatMap, flatten_runs]

namespace Value

mutual

/-- The pieces of a value on one line. -/
def pieces : Value → List (List Char)
  | .string value => stringPieces value
  | .array elements => ['['] :: elementPieces elements ++ [[']']]
  | .object members => ['\x7b'] :: memberPieces members ++ [['\x7d']]
  | value => [value.atom]

/-- The pieces of elements and of the commas between them. -/
def elementPieces : List Value → List (List Char)
  | [] => []
  | [a] => a.pieces
  | a :: as => a.pieces ++ [','] :: elementPieces as

/-- The pieces of members and of the commas between them. -/
def memberPieces : List (String × Value) → List (List Char)
  | [] => []
  | [(name, a)] => stringPieces name ++ [':'] :: a.pieces
  | (name, a) :: as => stringPieces name ++ [':'] :: a.pieces ++ [','] :: memberPieces as

end

mutual

/-- The pieces make up the text of a value. -/
theorem flatten_pieces : ∀ a : Value, a.pieces.flatten = a.compact
  | .null => by simp [pieces, compact]
  | .boolean _ => by simp [pieces, compact]
  | .integer _ => by simp [pieces, compact]
  | .real _ => by simp [pieces, compact]
  | .string _ => by simp [pieces, compact, atom, flatten_stringPieces]
  | .array elements => by simp [pieces, compact, flatten_elementPieces elements]
  | .object members => by simp [pieces, compact, flatten_memberPieces members]

theorem flatten_elementPieces :
    ∀ as : List Value, (elementPieces as).flatten = compactElements as
  | [] => by simp [elementPieces, compactElements]
  | [a] => by simp [elementPieces, compactElements, flatten_pieces a]
  | a :: b :: as => by
    simp [elementPieces, compactElements, flatten_pieces a, flatten_elementPieces (b :: as)]

theorem flatten_memberPieces :
    ∀ as : List (String × Value), (memberPieces as).flatten = compactMembers as
  | [] => by simp [memberPieces, compactMembers]
  | [(name, a)] => by
    simp [memberPieces, compactMembers, flatten_stringPieces, flatten_pieces a]
  | (name, a) :: b :: as => by
    simp [memberPieces, compactMembers, flatten_stringPieces, flatten_pieces a,
      flatten_memberPieces (b :: as)]

end

end Value

end Lockstep.Json
