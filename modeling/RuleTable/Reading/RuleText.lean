import RuleTable.Reading.Line

/-!
# Reading a text of rules

A text holds one rule per line. Blank lines and comments, which start with `#` or with `//`, are
passed over. A line that is not a rule does not stop the reading: it is set aside with its number
and the reason.
-/

set_option autoImplicit false

namespace RuleTable

open Text

/-- **A line set aside**: its number, counted from one, its trimmed text and what is wrong. -/
structure SkippedLine where
  number : Nat
  text : Text
  error : LineError
deriving DecidableEq

/-- **A text of rules, read**: the rules and the lines set aside, both in the order of the
text. -/
structure RuleText where
  rules : List Rule
  skipped : List SkippedLine
deriving DecidableEq

namespace RuleText

/-- Whether a trimmed line is passed over. -/
def isIgnored (line : Text) : Bool :=
  line.isEmpty || line.head? == some '#' || "//".toList.isPrefixOf line

/-- The rest of a text, given as numbered lines. `count` rules stand before it; a rule's number
among the rules decides the suffix of its id. -/
def readFrom (suffix : Nat → Text) (count : Nat) : List (Text × Nat) → RuleText
  | [] => ⟨[], []⟩
  | (line, number) :: rest =>
      let text := trim line
      if isIgnored text then readFrom suffix count rest
      else match readRule (suffix count) text with
        | .ok rule =>
            let later := readFrom suffix (count + 1) rest
            ⟨rule :: later.rules, later.skipped⟩
        | .error error =>
            let later := readFrom suffix count rest
            ⟨later.rules, ⟨number, text, error⟩ :: later.skipped⟩

/-- **The rules of a text**. The suffix of the id of the n-th rule, counted from zero, is
`suffix n`. -/
def read (suffix : Nat → Text) (text : Text) : RuleText :=
  readFrom suffix 0 ((lines text).zipIdx 1)

end RuleText

end RuleTable
