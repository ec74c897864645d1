import RuleTable.Json.Basic

/-!
# Writing JSON

A JSON value as text, without space between its parts.
-/

set_option autoImplicit false

namespace RuleTable

open Text

namespace Json

/-- A digit of base sixteen. -/
def hexDigit (n : Nat) : Char := Nat.digitChar n

/-- A UTF-16 unit by its number. -/
def writeUnit (code : Nat) : Text :=
  ['\\', 'u', hexDigit (code / 0x1000 % 16), hexDigit (code / 0x100 % 16),
    hexDigit (code / 0x10 % 16), hexDigit (code % 16)]

/-- A piece of a string as it is written. -/
def writePiece : StringPiece → Text
  | .char '"' => ['\\', '"']
  | .char '\\' => ['\\', '\\']
  | .char c => if c.toNat < 0x20 then writeUnit c.toNat else [c]
  | .unit code => writeUnit code

/-- A string as it is written. -/
def writeString (pieces : List StringPiece) : Text :=
  ['"'] ++ pieces.flatMap writePiece ++ ['"']

mutual

/-- **A value as it is written**, without space. -/
def write : Json → Text
  | null => "null".toList
  | bool true => "true".toList
  | bool false => "false".toList
  | number digits => digits
  | string pieces => writeString pieces
  | array items => ['['] ++ writeItems items ++ [']']
  | object fields => ['\x7b'] ++ writeFields fields ++ ['\x7d']

/-- Items with commas between them. -/
def writeItems : List Json → Text
  | [] => []
  | [item] => write item
  | item :: items => write item ++ [','] ++ writeItems items

/-- Fields with commas between them. -/
def writeFields : List (List StringPiece × Json) → Text
  | [] => []
  | [(key, value)] => writeString key ++ [':'] ++ write value
  | (key, value) :: fields =>
      writeString key ++ [':'] ++ write value ++ [','] ++ writeFields fields

end

end Json

end RuleTable
