import RuleTable.Text.Basic

/-!
# What can be wrong with a line

The reasons why a line of rule text is not a rule, and their wording.
-/

set_option autoImplicit false

namespace RuleTable

/-- The two halves of a rule, by what their clauses are. -/
inductive Half
  | condition
  | action
deriving DecidableEq

/-- The word for a clause of a half. -/
def Half.word : Half → Text
  | condition => "condition".toList
  | action => "action".toList

/-- **Why a line is not a rule.** A clause that cannot be read is named by the half it stands in;
when a half has no clause at all, its whole text is the clause. -/
inductive LineError
  | empty
  | noKeyword (line : Text)
  | noSeparator (line : Text)
  | unreadable (half : Half) (clause : Text)
deriving DecidableEq

/-- The wording of an error. -/
def LineError.message : LineError → Text
  | empty => "rule text is empty".toList
  | noKeyword line => "rule must start with 'If' or 'Otherwise': ".toList ++ line
  | noSeparator line =>
      "rule needs a comma separating conditions from actions: ".toList ++ line
  | unreadable half clause =>
      "could not parse ".toList ++ half.word ++ " '".toList ++ clause ++ ['\'']

end RuleTable
