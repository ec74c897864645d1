import RuleTable.Reading.Cut
import RuleTable.Reading.LineError
import RuleTable.Rule.Basic
import RuleTable.Text.Letter

/-!
# Reading a clause

A clause of the conditions has one of five shapes, tried in a fixed order: a range, a list, a
containment, an equality and a comparison. The first four are cuts at a keyword, with a variable
on the left and an operand on the right; the last starts at the first comparison sign. A clause
of the actions is an equality.
-/

set_option autoImplicit false

namespace RuleTable

open Text

/-! ## Variables -/

/-- Whether a text can be the name of a variable: an ASCII letter or `_`, then ASCII letters,
digits, `_` and ASCII blanks. -/
def isVariable : Text → Bool
  | [] => false
  | c :: text =>
      (c.isAlpha || c == '_') && text.all fun c => c.isAlphanum || c == '_' || isAsciiBlank c

/-- The first cut at `keyword`, from the right, with a variable on its left and an operand on its
right that `operand?` reads; the variable and what was read. -/
def readCut? {α : Type} (keyword : Text) (operand? : Text → Option α) (clause : Text) :
    Option (Text × α) :=
  (Cut.all keyword clause).findSome? fun cut =>
    if isVariable cut.left then (operand? cut.right).map fun operand => (cut.left, operand)
    else none

/-! ## Operands -/

/-- Whether a character may stand in a bound of a range. -/
def isBoundChar (c : Char) : Bool := c.isDigit || c == '.'

/-- The bounds of a range: two runs of digits and points with the word `and` between them. -/
def rangeBounds? (text : Text) : Option (Text × Text) :=
  let low := text.takeWhile isBoundChar
  let afterLow := text.dropWhile isBoundChar
  let word := (skipBlanks afterLow).takeWhile isWordChar
  let afterWord := (skipBlanks afterLow).dropWhile isWordChar
  let high := skipBlanks afterWord
  if ! low.isEmpty && startsBlank afterLow && sameLetters word "and".toList
      && startsBlank afterWord && ! high.isEmpty && high.all isBoundChar then some (low, high)
  else none

/-- The text between a pair of parentheses that is all there is. -/
def listItems? : Text → Option Text
  | '(' :: text =>
      let items := text.takeWhile (· != ')')
      if ! items.isEmpty && text.dropWhile (· != ')') == [')'] then some items else none
  | _ => none

/-- A text, if there is one. -/
def someText? (text : Text) : Option Text :=
  if text.isEmpty then none else some text

/-- What a column is to contain; the word `any` may stand before it. -/
def contained? (text : Text) : Option Text :=
  let afterWord := text.dropWhile isWordChar
  if sameLetters (text.takeWhile isWordChar) "any".toList && startsBlank afterWord then
    someText? (skipBlanks afterWord)
  else someText? text

/-- A list of items as an expression: each item trimmed and in double quotes. -/
def quotedList (items : Text) : Text :=
  ['['] ++ join ", ".toList ((splitOn ',' items).map fun item => ['"'] ++ trim item ++ ['"'])
    ++ [']']

/-! ## The shapes of conditions -/

/-- **A range**: `variable between low and high`. -/
def readRange? (clause : Text) : Option Condition :=
  (readCut? "between".toList rangeBounds? clause).map fun (variableName, low, high) =>
    .on variableName .isIn (['['] ++ low ++ "..".toList ++ high ++ [']'])

/-- **A list**: `variable in (item, …)`. -/
def readList? (clause : Text) : Option Condition :=
  (readCut? "in".toList listItems? clause).map fun (variableName, items) =>
    .on variableName .isIn (quotedList items)

/-- **A containment**: `variable contains value`. -/
def readContainment? (clause : Text) : Option Condition :=
  (readCut? "contains".toList contained? clause).map fun (variableName, value) =>
    .on variableName .contains value

/-- **An equality**: `variable is value`; the variable and the value. -/
def readEquality? (clause : Text) : Option (Text × Text) :=
  readCut? "is".toList someText? clause

/-- Whether a character starts a comparison sign. -/
def isComparisonChar (c : Char) : Bool := c == '<' || c == '>' || c == '=' || c == '!'

/-- The comparison sign at the start of a text and what follows it. A sign of two characters is
preferred. -/
def comparisonSign? : Text → Option (Operator × Text)
  | '>' :: '=' :: text => some (.greaterOrEqual, text)
  | '<' :: '=' :: text => some (.lessOrEqual, text)
  | '!' :: '=' :: text => some (.notEquals, text)
  | '>' :: text => some (.greaterThan, text)
  | '<' :: text => some (.lessThan, text)
  | '=' :: text => some (.equals, text)
  | _ => none

/-- **A comparison**: a variable, a comparison sign and a value. -/
def readComparison? (clause : Text) : Option Condition :=
  let variableName := trimEnd (clause.takeWhile (! isComparisonChar ·))
  match comparisonSign? (clause.dropWhile (! isComparisonChar ·)) with
  | some (operator, text) =>
      if isVariable variableName then
        (someText? (skipBlanks text)).map fun value => .on variableName operator value
      else none
  | none => none

/-! ## Clauses -/

/-- **The condition of a clause**: that of the first shape the clause has. -/
def readCondition (clause : Text) : Except LineError Condition :=
  let condition? := readRange? clause
    <|> readList? clause
    <|> readContainment? clause
    <|> ((readEquality? clause).map fun (variableName, value) => .on variableName .equals value)
    <|> readComparison? clause
  match condition? with
  | some condition => .ok condition
  | none => .error (.unreadable .condition clause)

/-- The text without the full stop it may end with. -/
def dropFullStop (text : Text) : Text :=
  if text.getLast? = some '.' then text.dropLast else text

/-- **The action of a clause**. The clause may end with a full stop, which is not part of it. -/
def readAction (clause : Text) : Except LineError Action :=
  let clause := trimEnd (dropFullStop clause)
  match readEquality? clause with
  | some (variableName, value) => .ok (.set variableName value)
  | none => .error (.unreadable .action clause)

end RuleTable
