import RuleTable.Text.Basic

/-!
# Digits

Reading numbers in a base: the value of a digit, and of a text of digits of any length. A number is
read without a bound, or into a word of 32 bits if it fits into one.
-/

set_option autoImplicit false

namespace RuleTable.Text

/-- The value of a decimal digit. -/
def decimalDigit? (c : Char) : Option Nat :=
  if c.isDigit then some (c.toNat - '0'.toNat) else none

/-- The value of a hexadecimal digit, in either case. -/
def hexDigit? (c : Char) : Option Nat :=
  if c.isDigit then some (c.toNat - '0'.toNat)
  else if 'a' ≤ c ∧ c ≤ 'f' then some (c.toNat - 'a'.toNat + 10)
  else if 'A' ≤ c ∧ c ≤ 'F' then some (c.toNat - 'A'.toNat + 10)
  else none

/-- The number that a text of digits adds to, when `value` stands for the digits before it. -/
def numberFrom? (base : Nat) (digit? : Char → Option Nat) (value : Nat) : Text → Option Nat
  | [] => some value
  | c :: text =>
      match digit? c with
      | some digit => numberFrom? base digit? (value * base + digit) text
      | none => none

/-- **The number of one or more digits** in a base. -/
def number? (base : Nat) (digit? : Char → Option Nat) (text : Text) : Option Nat :=
  if text.isEmpty then none else numberFrom? base digit? 0 text

/-! ## Words of 32 bits -/

/-- A number as a word; `none` if it does not fit into 32 bits. -/
def wordOf? (number : Nat) : Option UInt32 :=
  if number < UInt32.size then some (UInt32.ofNat number) else none

/-- A word with one more digit behind it. Neither the product nor the sum may leave 32 bits. -/
def pushDigit? (base : Nat) (word : UInt32) (digit : Nat) : Option UInt32 :=
  (wordOf? (word.toNat * base)).bind fun product => wordOf? (product.toNat + digit)

/-- The word that a text of digits adds to, when `word` stands for the digits before it. -/
def wordFrom? (base : Nat) (digit? : Char → Option Nat) (word : UInt32) : Text → Option UInt32
  | [] => some word
  | c :: text =>
      match (digit? c).bind (pushDigit? base word) with
      | some next => wordFrom? base digit? next text
      | none => none

/-- **The word of one or more digits** in a base. -/
def word? (base : Nat) (digit? : Char → Option Nat) (text : Text) : Option UInt32 :=
  if text.isEmpty then none else wordFrom? base digit? 0 text

end RuleTable.Text
