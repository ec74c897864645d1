import RuleTable.Rule.ColumnName
import RuleTable.Rule.Operator

/-!
# Rules

**A condition** tests one column, **an action** sets one output column, and **a rule** says that
its actions apply where all its conditions hold. A rule has at least one condition and at least
one action; a rule that applies everywhere has one condition that always holds.
-/

set_option autoImplicit false

namespace RuleTable

open Text

/-! ## Conditions and actions -/

/-- **A condition**: a column, an operator and the value to compare with, as written. -/
structure Condition where
  column : ColumnName
  operator : Operator
  value : Text
deriving DecidableEq

/-- **An action**: an output column and the value it gets, as written. -/
structure Action where
  column : ColumnName
  value : Text
deriving DecidableEq

namespace Condition

/-- The condition on a variable as a rule writes it. -/
def on (variableName : Text) (operator : Operator) (value : Text) : Condition :=
  ⟨.ofText variableName, operator, value⟩

/-- The condition that always holds: the column `1` equals `1`. -/
def always : Condition := on ['1'] .equals ['1']

/-- A condition on one line: column, token and value. -/
def display (condition : Condition) : Text :=
  condition.column.chars ++ [' '] ++ condition.operator.token ++ [' '] ++ condition.value

end Condition

namespace Action

/-- The action on a variable as a rule writes it. -/
def set (variableName : Text) (value : Text) : Action := ⟨.ofText variableName, value⟩

/-- An action on one line: column and value. -/
def display (action : Action) : Text :=
  action.column.chars ++ " = ".toList ++ action.value

end Action

/-! ## Rules -/

/-- **A rule**: its id, its conditions and actions in the order of its text, and that text. -/
structure Rule where
  id : Text
  conditions : List Condition
  actions : List Action
  source : Text
  conditions_ne_nil : conditions ≠ []
  actions_ne_nil : actions ≠ []
deriving DecidableEq

/-- Why conditions and actions do not make a rule. The id is that of the rule to be. -/
inductive RuleError
  | noConditions (id : Text)
  | noActions (id : Text)
deriving DecidableEq

/-- The wording of an error. -/
def RuleError.message : RuleError → Text
  | noConditions id =>
      "rule '".toList ++ id ++ "' has no conditions; at least one is required".toList
  | noActions id => "rule '".toList ++ id ++ "' has no actions; at least one is required".toList

namespace Rule

/-- The rule with these parts. A missing condition is noticed before a missing action. -/
def make (id : Text) (conditions : List Condition) (actions : List Action) (source : Text) :
    Except RuleError Rule :=
  if hc : conditions = [] then .error (.noConditions id)
  else if ha : actions = [] then .error (.noActions id)
  else .ok ⟨id, conditions, actions, source, hc, ha⟩

/-- The rule that applies everywhere. -/
def otherwise (id : Text) (actions : List Action) (source : Text) : Except RuleError Rule :=
  make id [.always] actions source

/-- The first condition on a column, if there is one. -/
def conditionOn? (rule : Rule) (column : Text) : Option Condition :=
  rule.conditions.find? (·.column.chars == column)

/-- The first action on a column, if there is one. -/
def actionOn? (rule : Rule) (column : Text) : Option Action :=
  rule.actions.find? (·.column.chars == column)

/-- A rule in short: its id and how many conditions and actions it has. -/
def display (rule : Rule) : Text :=
  "Rule(".toList ++ rule.id ++ ", ".toList ++ ofNat rule.conditions.length
    ++ " conditions, ".toList ++ ofNat rule.actions.length ++ " actions)".toList

end Rule

end RuleTable
