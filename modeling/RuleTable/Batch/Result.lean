import RuleTable.Conversion.Error
import RuleTable.Files.Path

/-!
# Results of a batch

What converting a rule file gave, and the report on many of them. Durations are not part of a
result: who holds the clock gives them as text where a summary shows them.
-/

set_option autoImplicit false

namespace RuleTable

open Text

/-! ## One file -/

/-- **What a rule file gave**: how many rules and skipped lines it has, and the paths of the
documents written, in order. -/
structure FileOutput where
  rules : Nat
  skipped : Nat
  documents : List Text
deriving DecidableEq

/-- **The result of a rule file.** -/
structure FileResult where
  path : Text
  outcome : Except ConversionError FileOutput

namespace FileResult

/-- Whether a rule file was converted. -/
def isSuccess (result : FileResult) : Bool :=
  match result.outcome with
  | .ok _ => true
  | .error _ => false

/-- The output of a rule file that was converted. -/
def output? (result : FileResult) : Option FileOutput :=
  match result.outcome with
  | .ok output => some output
  | .error _ => none

/-- The name of a rule file without its directory. -/
def fileName (result : FileResult) : Text := (Path.fileName? result.path).getD []

/-- A result on one line. -/
def summary (elapsed : Text) (result : FileResult) : Text :=
  match result.outcome with
  | .ok output =>
      result.fileName ++ ": ".toList ++ ofNat output.rules ++ " rules -> ".toList
        ++ ofNat output.documents.length ++ " tables (".toList ++ elapsed ++ [')']
  | .error error => result.fileName ++ ": failed: ".toList ++ error.message

end FileResult

/-! ## Many files -/

/-- **The report of a batch**: the results in the order of their paths. -/
structure BatchReport where
  results : List FileResult

namespace BatchReport

/-- The outputs of the files that were converted. -/
def outputs (report : BatchReport) : List FileOutput := report.results.filterMap (·.output?)

/-- The results of the files that were not converted. -/
def failures (report : BatchReport) : List FileResult := report.results.filter (! ·.isSuccess)

/-- The number of files. -/
def files (report : BatchReport) : Nat := report.results.length

/-- The number of files that were converted. -/
def converted (report : BatchReport) : Nat := report.outputs.length

/-- The number of files that were not converted. -/
def failed (report : BatchReport) : Nat := report.failures.length

/-- The number of rules in the documents of all files. -/
def rules (report : BatchReport) : Nat :=
  report.outputs.foldr (fun output total => output.rules + total) 0

/-- The number of documents of all files. -/
def documents (report : BatchReport) : Nat :=
  report.outputs.foldr (fun output total => output.documents.length + total) 0

/-- A report as text: the totals, and then one line for each file. `elapsed` is the time that the
batch took and that each file took. -/
def display (elapsed : Text) (fileElapsed : FileResult → Text) (report : BatchReport) : Text :=
  ofNat report.converted ++ ['/'] ++ ofNat report.files ++ " files converted, ".toList
    ++ ofNat report.rules ++ " rules, ".toList ++ ofNat report.documents ++ " tables in ".toList
    ++ elapsed ++ ['\n']
    ++ report.results.flatMap fun result =>
      "  ".toList ++ result.summary (fileElapsed result) ++ ['\n']

end BatchReport

end RuleTable
