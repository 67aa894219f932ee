import Lockstep.Json.Reader
import Lockstep.Text.Bytes

/-!
# JSON texts in bytes

Bytes that are no text can still be cut into tokens.  A byte that belongs to no character starts no
token.  Within a string it is only noticed when the string is complete, so that everything else that
is wrong with the string comes first.
-/

namespace Lockstep.Json

/-- What stands for a byte that belongs to no character: like the byte, it takes one byte, means
nothing by itself and may stand in a string. -/
def stray : Char := '\x7f'

/-- The tokens of bytes, up to the first place where there is none. -/
def tokensOfBytes (bytes : ByteArray) : List Token :=
  let all := tokens (Text.markedChars stray bytes)
  let leading := tokens (Text.leadingChars bytes)
  let complete := all.take (leading.length - 1)
  match leading.getLast?, all.drop (leading.length - 1) with
  | some (.brokenString _ .endsInString), .string pieces :: _ =>
    complete ++ [.brokenString pieces .badText]
  | _, _ => all

/-- Reads bytes that hold nothing but one value. -/
def ofBytes {α : Type} (read : Reader α) (bytes : ByteArray) : Except Failure α :=
  ofTokens read (tokensOfBytes bytes)

example : tokensOfBytes ⟨#[0x22, 0xff, 0x22, 0x2c]⟩ = [.brokenString [.char stray] .badText] := by
  decide +kernel

example : tokensOfBytes ⟨#[0x22, 0xff, 0x01, 0x22]⟩ = [.brokenString [.char stray] .control] := by
  decide +kernel

end Lockstep.Json
