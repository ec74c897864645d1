import RuleTable.Text.Digits

/-!
# JSON values

The values in which settings are given. They keep what settings can tell apart: a number keeps
its digits as written, the fields of an object keep their order and may repeat, and a string keeps
the UTF-16 units that it gives by number, because such units need not add up to characters.
-/

set_option autoImplicit false

namespace RuleTable

open Text

/-! ## Values -/

/-- A piece of a string: a character, or a UTF-16 unit given by its number. -/
inductive StringPiece
  | char (c : Char)
  | unit (code : Nat)
deriving DecidableEq

/-- **A JSON value.** -/
inductive Json
  | null
  | bool (value : Bool)
  | number (digits : Text)
  | string (pieces : List StringPiece)
  | array (items : List Json)
  | object (fields : List (List StringPiece × Json))
deriving Inhabited

/-- Whether a UTF-16 unit is the first of a pair. -/
def isHighUnit (code : Nat) : Bool := 0xD800 ≤ code && code < 0xDC00

/-- Whether a UTF-16 unit is the second of a pair. -/
def isLowUnit (code : Nat) : Bool := 0xDC00 ≤ code && code < 0xE000

/-- **The text of a string**; `none` when it holds half a pair of units. -/
def textOfPieces? : List StringPiece → Option Text
  | [] => some []
  | .char c :: pieces => (textOfPieces? pieces).map (c :: ·)
  | .unit high :: .unit low :: pieces =>
      if isHighUnit high then
        if isLowUnit low then
          (textOfPieces? pieces).map
            (Char.ofNat (0x10000 + (high - 0xD800) * 0x400 + (low - 0xDC00)) :: ·)
        else none
      else if isLowUnit high then none
      else (textOfPieces? (.unit low :: pieces)).map (Char.ofNat high :: ·)
  | .unit code :: pieces =>
      if isHighUnit code || isLowUnit code then none
      else (textOfPieces? pieces).map (Char.ofNat code :: ·)

/-! ## Simple values -/

namespace Json

/-- The pieces of a text. -/
def piecesOfText (text : Text) : List StringPiece := text.map .char

/-- The string of a text. -/
def ofText (text : Text) : Json := string (piecesOfText text)

/-- The number of a count. -/
def ofCount (n : Nat) : Json := number (ofNat n)

/-- The object of fields. -/
def record (fields : List (String × Json)) : Json :=
  object (fields.map fun (key, value) => (piecesOfText key.toList, value))

/-- The text of a value that is a string. -/
def text? : Json → Option Text
  | string pieces => textOfPieces? pieces
  | _ => none

/-- The truth value of a value that is one. -/
def bool? : Json → Option Bool
  | bool value => some value
  | _ => none

/-- The largest count there is. -/
def maxCount : Nat := Nat.pow 2 64 - 1

/-- **The count of a value**: digits only, no more than the largest count. -/
def count? : Json → Option Nat
  | number digits => (number? 10 decimalDigit? digits).filter (· ≤ maxCount)
  | _ => none

end Json

end RuleTable
