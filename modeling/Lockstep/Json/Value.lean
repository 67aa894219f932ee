import Lockstep.Decimal.Shortest

/-!
# Writing JSON

A value is written on one line without blanks, or over several lines with two blanks for each level.
Doubles are written in their shortest form; a double that is infinite or not a number is written as
`null`.
-/

namespace Lockstep.Json

/-- A JSON value whose members are in the order in which they are written. -/
inductive Value where
  | null
  | boolean (value : Bool)
  | integer (value : Int)
  | real (value : Float)
  | string (value : String)
  | array (elements : List Value)
  | object (members : List (String × Value))

/-- One character as it stands within a JSON string. -/
def escaped (c : Char) : List Char :=
  match c with
  | '"' => ['\\', '"']
  | '\\' => ['\\', '\\']
  | '\x08' => ['\\', 'b']
  | '\t' => ['\\', 't']
  | '\n' => ['\\', 'n']
  | '\x0c' => ['\\', 'f']
  | '\r' => ['\\', 'r']
  | c =>
    if c.toNat < 0x20 then
      ['\\', 'u', '0', '0', Nat.digitChar (c.toNat / 16), Nat.digitChar (c.toNat % 16)]
    else [c]

/-- A string in JSON. -/
def stringText (s : String) : List Char :=
  '"' :: s.toList.flatMap escaped ++ ['"']

namespace Value

/-- A number that is not negative. -/
def natural (n : Nat) : Value :=
  .integer n

/-- The text of a value that holds no other values. -/
def atom : Value → List Char
  | .null => "null".toList
  | .boolean true => "true".toList
  | .boolean false => "false".toList
  | .integer value => value.repr.toList
  | .real value => ((Decimal.jsonText value).getD "null").toList
  | .string value => stringText value
  | .array _ => []
  | .object _ => []

mutual

/-- The text of a value on one line. -/
def compact : Value → List Char
  | .array elements => '[' :: compactElements elements ++ [']']
  | .object members => '\x7b' :: compactMembers members ++ ['\x7d']
  | value => value.atom

/-- Elements with commas between them. -/
def compactElements : List Value → List Char
  | [] => []
  | [a] => a.compact
  | a :: as => a.compact ++ ',' :: compactElements as

/-- Members with commas between them. -/
def compactMembers : List (String × Value) → List Char
  | [] => []
  | [(name, a)] => stringText name ++ ':' :: a.compact
  | (name, a) :: as => stringText name ++ ':' :: a.compact ++ ',' :: compactMembers as

end

/-- The start of a line that is indented by that many levels. -/
def newLine (depth : Nat) : List Char :=
  '\n' :: List.replicate (2 * depth) ' '

mutual

/-- The text of a value over several lines, of which the first is already indented. -/
def pretty (depth : Nat) : Value → List Char
  | .array [] => ['[', ']']
  | .array elements => '[' :: prettyElements (depth + 1) elements ++ newLine depth ++ [']']
  | .object [] => ['\x7b', '\x7d']
  | .object members =>
    '\x7b' :: prettyMembers (depth + 1) members ++ newLine depth ++ ['\x7d']
  | value => value.atom

/-- Elements on lines of their own. -/
def prettyElements (depth : Nat) : List Value → List Char
  | [] => []
  | [a] => newLine depth ++ a.pretty depth
  | a :: as => newLine depth ++ a.pretty depth ++ ',' :: prettyElements depth as

/-- Members on lines of their own. -/
def prettyMembers (depth : Nat) : List (String × Value) → List Char
  | [] => []
  | [(name, a)] => newLine depth ++ stringText name ++ [':', ' '] ++ a.pretty depth
  | (name, a) :: as =>
    newLine depth ++ stringText name ++ [':', ' '] ++ a.pretty depth ++
      ',' :: prettyMembers depth as

end

/-- The text of a value on one line. -/
def text (value : Value) : String :=
  String.ofList value.compact

/-- The text of a value over several lines. -/
def prettyText (value : Value) : String :=
  String.ofList (value.pretty 0)

example : text (.array [.natural 1, .object [("a", .null)], .array []]) =
    "[1,\x7b\"a\":null\x7d,[]]" := by decide +kernel

example : prettyText (.object [("a", .array [.natural 1, .natural 2])]) =
    "\x7b\n  \"a\": [\n    1,\n    2\n  ]\n\x7d" := by decide +kernel

end Value

end Lockstep.Json
