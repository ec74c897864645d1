import RuleTable.Text.LowerCase

/-!
# Decisions

What a table is called: the decision it makes has a name for people, an id for programs, and the
namespace its document belongs to.
-/

set_option autoImplicit false

namespace RuleTable

open Text

/-- The namespace of a document when none is given. -/
def defaultNamespace : Text := "http://camunda.org/schema/1.0/dmn".toList

/-- **A decision**: its name, its id and its namespace. -/
structure Decision where
  name : Text := "Decision".toList
  id : Text := "decision_1".toList
  space : Text := defaultNamespace
deriving DecidableEq

/-- **The decision of a rule file** whose name has the given stem. In the name hyphens and `_`
become spaces; the id is in lower case, with its spaces as `_`. -/
def Decision.ofStem (stem : Text) : Decision :=
  { name := replace '_' ' ' (replace '-' ' ' stem)
    id := replace ' ' '_' (lower stem) }

end RuleTable
