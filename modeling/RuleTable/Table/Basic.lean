import RuleTable.Table.Cell
import RuleTable.Table.Decision

/-!
# Decision tables

A set of rules laid out as a table. There is one input column for each column name that a
condition tests and one output column for each that an action sets, in the order in which the
rules first mention them; each rule is one row.
-/

set_option autoImplicit false

namespace RuleTable

/-- **A decision table**: the decision it makes and the rules that are its rows. -/
structure DecisionTable where
  decision : Decision
  rules : List Rule
deriving DecidableEq

namespace DecisionTable

/-- The input columns, in the order of their first mention. -/
def inputs (table : DecisionTable) : List ColumnName :=
  (table.rules.flatMap fun rule => rule.conditions.map (·.column)).eraseDups

/-- The output columns, in the order of their first mention. -/
def outputs (table : DecisionTable) : List ColumnName :=
  (table.rules.flatMap fun rule => rule.actions.map (·.column)).eraseDups

end DecisionTable

/-- **The rules in tables of at most `size` rows**, in order. A size of zero sets no limit; rules
that fit, even none at all, make one table. -/
def chunks {α : Type} (size : Nat) (rules : List α) : List (List α) :=
  if _h : size = 0 ∨ rules.length ≤ size then [rules]
  else rules.take size :: chunks size (rules.drop size)
termination_by rules.length
decreasing_by
  rw [List.length_drop]
  omega

end RuleTable
