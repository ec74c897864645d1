import RuleTable.Xml.Element

/-!
# Rows

The rows that stand in a document: for each rule its id and the expressions in its cells.
-/

set_option autoImplicit false

namespace RuleTable

/-- **A row of a document.** -/
structure Row where
  id : Text
  inputs : List Text
  outputs : List Text
deriving DecidableEq

namespace Row

/-- The expressions in the cells of a kind: for each cell the text of its first element. -/
def cells (rule : Element) (kind : Text) : List Text :=
  (rule.childrenNamed kind).map fun cell => (cell.children.head?.map (·.text)).getD []

/-- The row of a rule element. -/
def ofElement (rule : Element) : Row :=
  ⟨(rule.attribute? "id".toList).getD [], cells rule "inputEntry".toList,
    cells rule "outputEntry".toList⟩

/-- **The rows of a document**, in order, from its root element. -/
def all (root : Element) : List Row := (root.allNamed "rule".toList).map ofElement

end Row

end RuleTable
