import RuleTable.Check.Document
import RuleTable.Conversion.Event
import RuleTable.Reading.RuleText

/-!
# Conversion

From a text of rules to documents: the rules are read, divided into tables of a limited size, and
each table is written and, if asked for, checked. Each step also gives the events it notes.
-/

set_option autoImplicit false

namespace RuleTable

open Text

/-! ## Events of the steps -/

/-- The events of reading a text of rules: one for each line set aside. -/
def RuleText.events (read : RuleText) : List Event :=
  read.skipped.map fun line => .skippedLine line.number line.error

/-- The event of writing a table. -/
def DecisionTable.event (table : DecisionTable) : Event :=
  .writingTable table.decision.id table.rules.length table.inputs.length table.outputs.length

/-! ## Conversion -/

/-- **How to convert**: how many rules a table holds at most, where zero is no limit, and whether
to check the documents. -/
structure ConversionSettings where
  maxRules : Nat := 1000
  check : Bool := true
deriving DecidableEq

/-- **A conversion**: the documents in the order of the rules, the number of rules in them and the
lines set aside. -/
structure Conversion where
  documents : List Text
  rules : Nat
  skipped : List SkippedLine
deriving DecidableEq

namespace Conversion

/-- Whether the rules were divided over several tables. -/
def isDivided (conversion : Conversion) : Bool := conversion.documents.length > 1

/-- The document of a table; the errors found in it if it is checked and does not pass. -/
def writeTable (check : Bool) (table : DecisionTable) : Except ConversionError Text :=
  let document := table.document
  if check then
    let report := checkDocument document
    if report.isValid then .ok document else .error (.invalidDocument report.errors)
  else .ok document

/-- The documents of tables, up to the first that does not pass its check, and the events of
writing them. -/
def writeTables (check : Bool) :
    List DecisionTable → List Event × Except ConversionError (List Text)
  | [] => ([], .ok [])
  | table :: tables =>
      match writeTable check table with
      | .error error => ([table.event], .error error)
      | .ok document =>
          let (events, documents) := writeTables check tables
          (table.event :: events, documents.map (document :: ·))

/-- **The conversion of a text of rules** into documents that all make the same decision. The
suffix of the id of the n-th rule, counted from zero, is `suffix n`. -/
def ofText (suffix : Nat → Text) (decision : Decision) (settings : ConversionSettings)
    (text : Text) : List Event × Except ConversionError Conversion :=
  let read := RuleText.read suffix text
  if read.rules.isEmpty then (read.events, .error (.noRules read.skipped.length))
  else
    let tables := (chunks settings.maxRules read.rules).map (DecisionTable.mk decision)
    let (events, documents) := writeTables settings.check tables
    (read.events
        ++ [.dividedRules read.rules.length read.skipped.length tables.length] ++ events,
      documents.map fun documents => ⟨documents, read.rules.length, read.skipped⟩)

end Conversion

end RuleTable
