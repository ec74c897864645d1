import RuleTable.Files.Error
import RuleTable.Reading.LineError
import RuleTable.Rule.Basic

/-!
# Errors of conversions

Everything that can go wrong between a rule file and its documents, with its wording: a line, a
rule, the file system, a text without rules and a document that does not pass its own check.
-/

set_option autoImplicit false

namespace RuleTable

open Text

/-- **Why a conversion fails.** -/
inductive ConversionError
  | line (error : LineError)
  | rule (error : RuleError)
  | file (error : FileError)
  | noRules (skipped : Nat)
  | invalidDocument (errors : List Text)
deriving DecidableEq

/-- The wording of an error. -/
def ConversionError.message : ConversionError → Text
  | line error => error.message
  | rule error => error.message
  | file error => error.message
  | noRules skipped =>
      "no valid rules found (".toList ++ ofNat skipped ++ " lines skipped)".toList
  | invalidDocument errors =>
      "generated DMN failed validation: ".toList ++ join "; ".toList errors

end RuleTable
