import RuleTable.Json.Basic

/-!
# Reading JSON

From a text to the JSON value that it holds. A reader takes the text that is left and returns what
it read and what is left after it.
-/

set_option autoImplicit false

namespace RuleTable

open Text

namespace Json

/-! ## Space and literals -/

/-- Whether a character may stand between the parts of a value. -/
def isSpace (c : Char) : Bool := c == ' ' || c == '\n' || c == '\t' || c == '\r'

/-- The text without the space it starts with. -/
def skipSpace (text : Text) : Text := text.dropWhile isSpace

/-- What follows a word at the start of a text. -/
def dropLiteral? (word text : Text) : Option Text :=
  if word.isPrefixOf text then some (text.drop word.length) else none

/-! ## Strings -/

/-- The character that an escape of one letter stands for. -/
def escaped? : Char → Option Char
  | '"' => some '"'
  | '\\' => some '\\'
  | '/' => some '/'
  | 'b' => some '\x08'
  | 'f' => some '\x0c'
  | 'n' => some '\n'
  | 'r' => some '\r'
  | 't' => some '\t'
  | _ => none

/-- The pieces of a string from after its opening quote, and what follows the closing one. -/
def readPieces : Text → Option (List StringPiece × Text)
  | [] => none
  | '"' :: text => some ([], text)
  | '\\' :: 'u' :: a :: b :: c :: d :: text => do
      let code ← number? 16 hexDigit? [a, b, c, d]
      let (pieces, rest) ← readPieces text
      return (.unit code :: pieces, rest)
  | '\\' :: c :: text => do
      let c ← escaped? c
      let (pieces, rest) ← readPieces text
      return (.char c :: pieces, rest)
  | c :: text => do
      if c == '\\' || c.toNat < 0x20 then
        none
      let (pieces, rest) ← readPieces text
      return (.char c :: pieces, rest)

/-! ## Numbers -/

/-- The digits at the start of a text, of which there must be one, and what follows them. -/
def readDigits (text : Text) : Option (Text × Text) :=
  match text.takeWhile Char.isDigit with
  | [] => none
  | digits => some (digits, text.dropWhile Char.isDigit)

/-- The whole part of a number, which has no zero before other digits. -/
def readWhole : Text → Option (Text × Text)
  | '0' :: text => if text.head?.any Char.isDigit then none else some (['0'], text)
  | text => readDigits text

/-- The fraction of a number, point included, if it has one. -/
def readFraction : Text → Option (Text × Text)
  | '.' :: text => (readDigits text).map fun (digits, rest) => ('.' :: digits, rest)
  | text => some ([], text)

/-- The exponent of a number, letter included, if it has one. -/
def readExponent : Text → Option (Text × Text)
  | [] => some ([], [])
  | c :: text =>
      if c == 'e' || c == 'E' then
        match text with
        | '+' :: text => (readDigits text).map fun (digits, rest) => (c :: '+' :: digits, rest)
        | '-' :: text => (readDigits text).map fun (digits, rest) => (c :: '-' :: digits, rest)
        | text => (readDigits text).map fun (digits, rest) => (c :: digits, rest)
      else some ([], c :: text)

/-- A number without sign, and what follows it. -/
def readUnsigned (text : Text) : Option (Text × Text) := do
  let (whole, text) ← readWhole text
  let (fraction, text) ← readFraction text
  let (exponent, text) ← readExponent text
  return (whole ++ fraction ++ exponent, text)

/-- A number, and what follows it. -/
def readNumber : Text → Option (Text × Text)
  | '-' :: text => (readUnsigned text).map fun (digits, rest) => ('-' :: digits, rest)
  | text => readUnsigned text

/-! ## Values -/

mutual

/-- A value at the start of a text, and what follows it. Each step down or along takes fuel. -/
def readValue : Nat → Text → Option (Json × Text)
  | 0, _ => none
  | fuel + 1, text =>
      match skipSpace text with
      | '"' :: text => (readPieces text).map fun (pieces, rest) => (string pieces, rest)
      | '[' :: text =>
          match skipSpace text with
          | ']' :: rest => some (array [], rest)
          | text => (readItems fuel text).map fun (items, rest) => (array items, rest)
      | '{' :: text =>
          match skipSpace text with
          | '}' :: rest => some (object [], rest)
          | text => (readFields fuel text).map fun (fields, rest) => (object fields, rest)
      | 'n' :: text => (dropLiteral? "ull".toList text).map fun rest => (null, rest)
      | 't' :: text => (dropLiteral? "rue".toList text).map fun rest => (bool true, rest)
      | 'f' :: text => (dropLiteral? "alse".toList text).map fun rest => (bool false, rest)
      | text => (readNumber text).map fun (digits, rest) => (number digits, rest)

/-- One or more items up to the end of their array, and what follows it. -/
def readItems : Nat → Text → Option (List Json × Text)
  | 0, _ => none
  | fuel + 1, text =>
      match readValue fuel text with
      | none => none
      | some (item, text) =>
          match skipSpace text with
          | ']' :: rest => some ([item], rest)
          | ',' :: text => (readItems fuel text).map fun (items, rest) => (item :: items, rest)
          | _ => none

/-- One or more fields up to the end of their object, and what follows it. -/
def readFields : Nat → Text → Option (List (List StringPiece × Json) × Text)
  | 0, _ => none
  | fuel + 1, text =>
      match skipSpace text with
      | '"' :: text =>
          match readPieces text with
          | none => none
          | some (key, text) =>
              match skipSpace text with
              | ':' :: text =>
                  match readValue fuel text with
                  | none => none
                  | some (value, text) =>
                      match skipSpace text with
                      | '}' :: rest => some ([(key, value)], rest)
                      | ',' :: text =>
                          (readFields fuel text).map fun (fields, rest) =>
                            ((key, value) :: fields, rest)
                      | _ => none
              | _ => none
      | _ => none

end

/-- **The value of a text** that holds one value and space around it. Two steps of reading take at
least one character, so the fuel is enough for every text. -/
def read (text : Text) : Option Json :=
  match readValue (2 * text.length + 2) text with
  | some (value, rest) => if (skipSpace rest).isEmpty then some value else none
  | none => none

end Json

end RuleTable
