import Lockstep.Json.Token
import Lockstep.Text.Quoted

/-!
# Refused JSON texts

A text is refused because it is no JSON text, or because it does not fit the type that is wanted.
The first reason from the left counts.
-/

namespace Lockstep.Json

/-- A value that stands where another kind of value is wanted. -/
inductive Found where
  | null
  | boolean (value : Bool)
  | integer (value : Int)
  | real (value : Float)
  | text (value : String)
  | sequence
  | map

/-- The value as messages show it. -/
def Found.message : Found → String
  | .null => "null"
  | .boolean value => "boolean `" ++ (if value then "true" else "false") ++ "`"
  | .integer value => "integer `" ++ value.repr ++ "`"
  | .real value => "floating point `" ++ (Decimal.jsonText value).getD "" ++ "`"
  | .text value => "string " ++ Text.quoted value
  | .sequence => "sequence"
  | .map => "map"

/-- Why a JSON text does not fit a type. -/
inductive Mismatch where
  | invalidType (found : Found) (expected : String)
  | invalidValue (found : Int) (expected : String)
  /-- A structure written as an array has too few elements. -/
  | invalidLength (length : Nat) (title : String) (size : Nat)
  | unknownMember (name : String) (known : List String)
  | repeatedMember (name : String)
  | missingMember (name : String)
  | unknownVariant (name : String) (known : List String)

/-- A list of names to choose from. -/
def choice : List String → String
  | [] => "none"
  | [a] => "`" ++ a ++ "`"
  | [a, b] => "`" ++ a ++ "` or `" ++ b ++ "`"
  | names => "one of " ++ Text.commaSeparated (names.map fun name => "`" ++ name ++ "`")

/-- The sentence shown for a text that does not fit. -/
def Mismatch.message : Mismatch → String
  | .invalidType found expected => "invalid type: " ++ found.message ++ ", expected " ++ expected
  | .invalidValue found expected =>
    "invalid value: " ++ (Found.integer found).message ++ ", expected " ++ expected
  | .invalidLength length title size =>
    "invalid length " ++ length.repr ++ ", expected " ++ title ++ " with " ++ size.repr ++
      " elements"
  | .unknownMember name known => "unknown field `" ++ name ++ "`, expected " ++ choice known
  | .repeatedMember name => "duplicate field `" ++ name ++ "`"
  | .missingMember name => "missing field `" ++ name ++ "`"
  | .unknownVariant name known => "unknown variant `" ++ name ++ "`, expected " ++ choice known

/-- Why a JSON text is refused. -/
inductive Failure where
  | mismatch (cause : Mismatch)
  | fault (fault : Fault)

/-- The sentence shown for a text that is refused. -/
def Failure.message : Failure → String
  | .mismatch cause => cause.message
  | .fault f => f.message

end Lockstep.Json
