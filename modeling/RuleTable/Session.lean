import RuleTable.Check.Document
import RuleTable.Reading.RuleText

/-!
# Sessions

A list of rules that is put together step by step, and the decision that their table makes. Steps
add rules from text or from parts, take them away and turn the list round; what does not succeed
changes nothing. Rules read from text are numbered over the whole session, and the number decides
the suffix of the id.
-/

set_option autoImplicit false

namespace RuleTable

/-- **A session**: the rules, the decision, and how many rules have been read from text. -/
structure Session where
  rules : List Rule := []
  decision : Decision := {}
  drawn : Nat := 0

namespace Session

/-- The table of a session. -/
def table (session : Session) : DecisionTable := ⟨session.decision, session.rules⟩

/-- The session with rules at the end of the list. -/
def append (session : Session) (rules : List Rule) : Session :=
  { session with rules := session.rules ++ rules }

/-- The rule of a line, and the session with it. -/
def readLine (suffix : Nat → Text) (session : Session) (line : Text) :
    Except LineError (Rule × Session) := do
  let rule ← readRule (suffix session.drawn) line
  return (rule, { session.append [rule] with drawn := session.drawn + 1 })

/-- What reading a text of rules gives, and the session with its rules. -/
def readText (suffix : Nat → Text) (session : Session) (text : Text) : RuleText × Session :=
  let read := RuleText.read (fun n => suffix (session.drawn + n)) text
  (read, { session.append read.rules with drawn := session.drawn + read.rules.length })

/-- The rule at an index, and the session without it. -/
def remove? (session : Session) (index : Nat) : Option (Rule × Session) :=
  (session.rules[index]?).map fun rule =>
    (rule, { session with rules := session.rules.eraseIdx index })

/-- The session with the rules in reverse. -/
def reverse (session : Session) : Session := { session with rules := session.rules.reverse }

/-- Whether the rule that a rule's text gives when read again has the same conditions, and
whether it has the same actions. -/
def reread (rule : Rule) : Except LineError (Bool × Bool) := do
  let again ← readRule [] rule.source
  return (again.conditions == rule.conditions, again.actions == rule.actions)

end Session

end RuleTable
