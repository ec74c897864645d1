import RuleTable.Text.Digits

/-!
# References

How markup writes the characters it keeps for itself. Five characters have a **named reference**
(`&amp;` and its like), and any character can be given by the number of its code point, in decimal
or in hexadecimal. Escaping writes the five by name; decoding resolves every reference.
-/

set_option autoImplicit false

namespace RuleTable

open Text

/-! ## Writing -/

/-- Whether markup keeps a character for itself. -/
def isReserved (c : Char) : Bool :=
  c == '&' || c == '<' || c == '>' || c == '"' || c == '\''

/-- The reference by name that a reserved character is written as. -/
def nameReference : Char → Text
  | '&' => "&amp;".toList
  | '<' => "&lt;".toList
  | '>' => "&gt;".toList
  | '"' => "&quot;".toList
  | _ => "&apos;".toList

/-- What the writer puts out for the text that follows `run`. The run holds the characters since the
last reference, last one first, and is put out in one piece when the next reference or the end
comes. -/
def writeEscapedFrom (run : Text) : Text → Text
  | [] => run.reverse
  | c :: text =>
      if isReserved c then run.reverse ++ nameReference c ++ writeEscapedFrom [] text
      else writeEscapedFrom (c :: run) text

/-- **A text written for markup**: each reserved character by its reference, and what stands between
them as it is. -/
def writeEscaped (text : Text) : Text := writeEscapedFrom [] text

/-- **A text escaped**: without reserved characters it is left alone, else it is written for
markup. -/
def escape (text : Text) : Text := if text.any isReserved then writeEscaped text else text

/-! ## Reading -/

/-- The word of a text of digits, before which a plus sign may stand. -/
def codeWord? (base : Nat) (digit? : Char → Option Nat) : Text → Option UInt32
  | '+' :: text => word? base digit? text
  | text => word? base digit? text

/-- The character of a code point; a surrogate is none, nor is a word above U+10FFFF. -/
def charOfCode? (code : UInt32) : Option Char :=
  if h : code.isValidChar then some ⟨code, h⟩ else none

/-- **The character that a reference stands for**, given what stands between `&` and `;`. -/
def referenced? (body : Text) : Option Char :=
  if body = "amp".toList then some '&'
  else if body = "lt".toList then some '<'
  else if body = "gt".toList then some '>'
  else if body = "quot".toList then some '"'
  else if body = "apos".toList then some '\''
  else match body with
    | '#' :: 'x' :: digits => (codeWord? 16 hexDigit? digits).bind charOfCode?
    | '#' :: 'X' :: digits => (codeWord? 16 hexDigit? digits).bind charOfCode?
    | '#' :: digits => (codeWord? 10 decimalDigit? digits).bind charOfCode?
    | _ => none

/-- A text with its references resolved. `body` is what has been read of a reference that is
open, last character first; `none` when none is open. -/
def decodeFrom : Option Text → Text → Option Text
  | none, [] => some []
  | some _, [] => none
  | none, c :: text =>
      if c = '&' then decodeFrom (some []) text else (decodeFrom none text).map (c :: ·)
  | some body, c :: text =>
      if c = ';' then
        match referenced? body.reverse with
        | some d => (decodeFrom none text).map (d :: ·)
        | none => none
      else decodeFrom (some (c :: body)) text

/-- **A text with its references resolved**; `none` when a reference is not closed or stands for
nothing. A reference reaches from `&` to the next `;`. -/
def decode (text : Text) : Option Text := decodeFrom none text

end RuleTable
