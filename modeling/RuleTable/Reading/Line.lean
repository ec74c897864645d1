import RuleTable.Reading.Clause
import RuleTable.Reading.Clauses

/-!
# Reading a rule

A line of rule text is `If conditions, actions.` or `Otherwise, actions.`. The id of a rule is a
fixed word for its form and a suffix, which the caller draws; the rule keeps the line it was read
from.
-/

set_option autoImplicit false

namespace RuleTable

open Text

/-- **The form of a rule**, by the keyword it starts with. -/
inductive RuleForm
  | when
  | otherwise
deriving DecidableEq

/-- What the ids of rules of a form start with. -/
def RuleForm.idStem : RuleForm → Text
  | when => "rule_".toList
  | otherwise => "rule_otherwise_".toList

/-- The form of the rule that a text starts, and what follows the keyword. -/
def readForm? (text : Text) : Option (RuleForm × Text) :=
  let text := skipBlanks text
  let word := text.takeWhile isWordChar
  let rest := text.dropWhile isWordChar
  if sameLetters word "if".toList then some (.when, rest)
  else if sameLetters word "otherwise".toList then some (.otherwise, rest)
  else none

/-- The conditions of their text; the error of the first clause that cannot be read. -/
def readConditions (text : Text) : Except LineError (List Condition) :=
  (conditionClauses text).mapM readCondition

/-- The actions of their text; the error of the first clause that cannot be read. A full stop on
its own is no clause. -/
def readActions (text : Text) : Except LineError (List Action) :=
  ((actionClauses text).filter (· != ['.'])).mapM readAction

/-- The rule with these parts. A half without any clause is unreadable as a whole. -/
def ruleOfHalves (id : Text) (conditions : List Condition) (actions : List Action)
    (conditionsText actionsText source : Text) : Except LineError Rule :=
  match Rule.make id conditions actions source with
  | .ok rule => .ok rule
  | .error (.noConditions _) => .error (.unreadable .condition conditionsText)
  | .error (.noActions _) => .error (.unreadable .action actionsText)

/-- The actions' text of a rule that applies everywhere: what follows the comma that has to come
next. -/
def otherwiseActions? (rest : Text) : Option Text :=
  match trimStart rest with
  | ',' :: text => some (trim text)
  | _ => none

/-- **The rule of a line**, with `suffix` at the end of its id. The conditions are read before the
actions, so an unreadable condition is reported first. -/
def readRule (suffix line : Text) : Except LineError Rule := do
  let text := trim line
  if text.isEmpty then
    throw .empty
  match readForm? text with
  | none => throw (.noKeyword text)
  | some (.otherwise, rest) =>
      match otherwiseActions? rest with
      | none => throw (.noSeparator text)
      | some actionsText =>
          let actions ← readActions actionsText
          ruleOfHalves (RuleForm.otherwise.idStem ++ suffix) [.always] actions [] actionsText line
  | some (.when, rest) =>
      match halves? rest with
      | none => throw (.noSeparator text)
      | some (before, after) =>
          let conditions ← readConditions (trim before)
          let actions ← readActions (trim after)
          ruleOfHalves (RuleForm.when.idStem ++ suffix) conditions actions (trim before)
            (trim after) line

end RuleTable
