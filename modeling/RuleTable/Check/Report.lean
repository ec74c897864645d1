import RuleTable.Text.Basic

/-!
# Reports

What checking a document found: errors, which make it unusable, and warnings, which do not.
-/

set_option autoImplicit false

namespace RuleTable

open Text

/-- **A report**: the errors and the warnings, each in the order in which they were found. -/
structure Report where
  errors : List Text := []
  warnings : List Text := []
deriving DecidableEq

namespace Report

/-- Whether a report has no errors. -/
def isValid (report : Report) : Bool := report.errors.isEmpty

/-- What one report found and then another. -/
def append (first second : Report) : Report :=
  ⟨first.errors ++ second.errors, first.warnings ++ second.warnings⟩

instance : Append Report := ⟨append⟩

/-- A report of one error. -/
def error (message : Text) : Report := { errors := [message] }

/-- A report of one warning. -/
def warning (message : Text) : Report := { warnings := [message] }

/-- A report as text: a summary, the errors and the warnings, one per line. -/
def display (report : Report) : Text :=
  (if report.isValid then "valid".toList else "invalid".toList)
    ++ " (".toList ++ ofNat report.errors.length ++ " errors, ".toList
    ++ ofNat report.warnings.length ++ " warnings)\n".toList
    ++ (report.errors.flatMap fun message => "  error: ".toList ++ message ++ ['\n'])
    ++ (report.warnings.flatMap fun message => "  warning: ".toList ++ message ++ ['\n'])

end Report

end RuleTable
