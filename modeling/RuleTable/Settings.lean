import RuleTable.Conversion.Basic
import RuleTable.Json.Record

/-!
# Settings

The settings of decisions, conversions and batches, read from JSON and written back. Reading what
was written gives the same settings.
-/

set_option autoImplicit false

namespace RuleTable

open Json

/-! ## Batches -/

/-- **How to run a batch**: where the documents go, how many workers there are (zero is one for
each processor), the extension of rule files without its point, and how to convert. -/
structure BatchSettings where
  outputDirectory : Text := "output".toList
  workers : Nat := 0
  extension : Text := "txt".toList
  conversion : ConversionSettings := {}
deriving DecidableEq

/-- The number of workers on a machine with so many processors. -/
def BatchSettings.effectiveWorkers (settings : BatchSettings) (processors : Nat) : Nat :=
  if settings.workers > 0 then settings.workers else processors

/-! ## Reading and writing -/

namespace Decision

/-- The names of the fields of a decision. -/
def fieldNames : List Text :=
  ["decision_name".toList, "decision_id".toList, "namespace".toList]

/-- The decision of a value. -/
def ofJson? (value : Json) : Option Decision := do
  let given ← fieldsOf? fieldNames value
  let default : Decision := {}
  return {
    name := ← fieldOr given "decision_name".toList default.name text?
    id := ← fieldOr given "decision_id".toList default.id text?
    space := ← fieldOr given "namespace".toList default.space text? }

/-- A decision as a value. -/
def toJson (decision : Decision) : Json :=
  record [("decision_name", ofText decision.name), ("decision_id", ofText decision.id),
    ("namespace", ofText decision.space)]

end Decision

namespace ConversionSettings

/-- The names of the fields of conversion settings. -/
def fieldNames : List Text := ["max_rules_per_table".toList, "validate_output".toList]

/-- The conversion settings of a value. -/
def ofJson? (value : Json) : Option ConversionSettings := do
  let given ← fieldsOf? fieldNames value
  let default : ConversionSettings := {}
  return {
    maxRules := ← fieldOr given "max_rules_per_table".toList default.maxRules count?
    check := ← fieldOr given "validate_output".toList default.check bool? }

/-- Conversion settings as a value. -/
def toJson (settings : ConversionSettings) : Json :=
  record [("max_rules_per_table", ofCount settings.maxRules),
    ("validate_output", bool settings.check)]

end ConversionSettings

namespace BatchSettings

/-- The names of the fields of batch settings. -/
def fieldNames : List Text :=
  ["output_dir".toList, "workers".toList, "extension".toList, "convert".toList]

/-- The batch settings of a value. -/
def ofJson? (value : Json) : Option BatchSettings := do
  let given ← fieldsOf? fieldNames value
  let default : BatchSettings := {}
  return {
    outputDirectory := ← fieldOr given "output_dir".toList default.outputDirectory text?
    workers := ← fieldOr given "workers".toList default.workers count?
    extension := ← fieldOr given "extension".toList default.extension text?
    conversion := ← fieldOr given "convert".toList default.conversion ConversionSettings.ofJson? }

/-- Batch settings as a value. -/
def toJson (settings : BatchSettings) : Json :=
  record [("output_dir", ofText settings.outputDirectory), ("workers", ofCount settings.workers),
    ("extension", ofText settings.extension), ("convert", settings.conversion.toJson)]

end BatchSettings

/-- The operator of a value: its name, or an object of its name alone with nothing in it. -/
def Operator.ofJson? : Json → Option Operator
  | .object [(key, .null)] => (textOfPieces? key).bind ofName?
  | value => value.text?.bind ofName?

end RuleTable
