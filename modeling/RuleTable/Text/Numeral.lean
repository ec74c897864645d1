import RuleTable.Text.Basic

/-!
# Numerals

Which texts are numbers. A **numeral** starts with a digit, a sign or a point and reads as a
decimal number: an optional sign, digits with at most one point and at least one digit, and an
optional exponent. After a sign the words for infinity and for an undefined value count as
numbers too. No length is too long, and no value too large.
-/

set_option autoImplicit false

namespace RuleTable.Text

/-- The text without the sign it may start with. -/
def dropSign : Text → Text
  | [] => []
  | c :: text => if c == '+' || c == '-' then text else c :: text

/-- Whether a text is one or more digits. -/
def isDigits (text : Text) : Bool := ! text.isEmpty && text.all Char.isDigit

/-- Whether a text is empty or an exponent: the letter e, an optional sign and digits. -/
def isExponent : Text → Bool
  | [] => true
  | c :: text => c.toLower == 'e' && isDigits (dropSign text)

/-- **A decimal without sign**: digits with at most one point, at least one digit among them, and
an optional exponent. -/
def isUnsignedDecimal (text : Text) : Bool :=
  let whole := text.takeWhile Char.isDigit
  match text.dropWhile Char.isDigit with
  | '.' :: rest =>
      let fraction := rest.takeWhile Char.isDigit
      ! (whole.isEmpty && fraction.isEmpty) && isExponent (rest.dropWhile Char.isDigit)
  | rest => ! whole.isEmpty && isExponent rest

/-- Whether a text is a word for infinity or for an undefined value. -/
def isNumberWord (text : Text) : Bool :=
  sameLetters text "inf".toList || sameLetters text "infinity".toList
    || sameLetters text "nan".toList

/-- **A numeral**: a decimal, or a sign and a number word. -/
def isNumeral : Text → Bool
  | [] => false
  | c :: text =>
      if c == '+' || c == '-' then isUnsignedDecimal text || isNumberWord text
      else (c.isDigit || c == '.') && isUnsignedDecimal (c :: text)

end RuleTable.Text
