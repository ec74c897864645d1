import RuleTable.Text.Basic

/-!
# Operators

How a condition compares its column with its value. Each operator has a **token**, by which
tables and messages show it, and a **name**, by which settings know it. Six of them have a symbol
in rule text; `contains` and `isIn` are written with keywords.
-/

set_option autoImplicit false

namespace RuleTable

/-- **An operator**. `isIn` covers both membership in a list and a range between two numbers. -/
inductive Operator
  | equals
  | notEquals
  | greaterThan
  | lessThan
  | greaterOrEqual
  | lessOrEqual
  | contains
  | isIn
deriving DecidableEq

namespace Operator

/-- Every operator. -/
def all : List Operator :=
  [equals, notEquals, greaterThan, lessThan, greaterOrEqual, lessOrEqual, contains, isIn]

/-- The token of an operator. -/
def token : Operator → Text
  | equals => "=".toList
  | notEquals => "!=".toList
  | greaterThan => ">".toList
  | lessThan => "<".toList
  | greaterOrEqual => ">=".toList
  | lessOrEqual => "<=".toList
  | contains => "contains".toList
  | isIn => "in".toList

/-- The name of an operator in settings. -/
def name : Operator → Text
  | equals => "Equals".toList
  | notEquals => "NotEquals".toList
  | greaterThan => "GreaterThan".toList
  | lessThan => "LessThan".toList
  | greaterOrEqual => "GreaterThanOrEqual".toList
  | lessOrEqual => "LessThanOrEqual".toList
  | contains => "Contains".toList
  | isIn => "In".toList

/-- The operator that rule text writes as a symbol. -/
def ofSymbol? (symbol : Text) : Option Operator :=
  [equals, notEquals, greaterThan, lessThan, greaterOrEqual, lessOrEqual].find?
    (·.token == symbol)

/-- The operator of a name. -/
def ofName? (text : Text) : Option Operator := all.find? (·.name == text)

end Operator

end RuleTable
