import RuleTable.Rule.Basic
import RuleTable.Text.Numeral

/-!
# Cells

What stands in the cells of a table. A value is kept as the rule writes it and becomes an
expression of FEEL, the expression language of decision tables, only here: what already reads as
a **literal** stays as it is, and any other **text** is put in double quotes.
-/

set_option autoImplicit false

namespace RuleTable

open Text

/-! ## Values -/

/-- **A value** for a cell, classified. -/
inductive CellValue
  | literal (text : Text)
  | text (text : Text)
deriving DecidableEq

/-- Whether a text is one of the two truth values, in any case. -/
def isTruthValue (text : Text) : Bool :=
  sameLetters text "true".toList || sameLetters text "false".toList

namespace CellValue

/-- Whether a text already reads as a literal: it starts like a quoted text or like a list, or it
is a numeral or a truth value. -/
def readsAsLiteral (text : Text) : Bool :=
  text.head? == some '"' || text.head? == some '[' || isNumeral text || isTruthValue text

/-- The value of a text as a rule writes it. -/
def ofText (written : Text) : CellValue :=
  if readsAsLiteral written then .literal written else .text written

/-- Whether a value is a literal. -/
def isLiteral : CellValue → Bool
  | literal _ => true
  | text _ => false

/-- A value as an expression. -/
def render : CellValue → Text
  | literal written => written
  | text written => ['"'] ++ written ++ ['"']

end CellValue

/-! ## Cells -/

/-- The input cell of a column that a rule does not test. -/
def wildcard : Text := ['-']

/-- The output cell of a column that a rule does not set. -/
def noOutput : Text := "null".toList

/-- **An input cell**: the test of a condition. The value of `isIn` is an expression already,
`contains` is a call, equality is the bare value and the other operators stand before it. -/
def inputCell : Option Condition → Text
  | none => wildcard
  | some condition =>
      let value := (CellValue.ofText condition.value).render
      match condition.operator with
      | .isIn => condition.value
      | .contains => "contains(., ".toList ++ value ++ [')']
      | .equals => value
      | operator => operator.token ++ [' '] ++ value

/-- **An output cell**: the value of an action. -/
def outputCell : Option Text → Text
  | none => noOutput
  | some written => (CellValue.ofText written).render

namespace Rule

/-- The cell of a rule in an input column: that of its first condition on the column. -/
def inputCellIn (rule : Rule) (column : ColumnName) : Text :=
  inputCell (rule.conditionOn? column.chars)

/-- The cell of a rule in an output column: that of its first action on the column. -/
def outputCellIn (rule : Rule) (column : ColumnName) : Text :=
  outputCell ((rule.actionOn? column.chars).map (·.value))

end Rule

end RuleTable
