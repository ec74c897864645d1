import RuleTable.Conversion.Error

/-!
# Events

What a conversion and a batch note while they work. An event is written on one line: its level,
what happened, and its fields.
-/

set_option autoImplicit false

namespace RuleTable

open Text

/-- **An event.** -/
inductive Event
  /-- A line of a rule text was set aside. -/
  | skippedLine (number : Nat) (error : LineError)
  /-- The rules of a text were divided into tables. -/
  | dividedRules (rules skipped tables : Nat)
  /-- A table is being written. -/
  | writingTable (decision : Text) (rules inputs outputs : Nat)
  /-- A rule file was converted. -/
  | convertedFile (file : Text) (rules tables : Nat)
  /-- A rule file could not be converted. -/
  | failedFile (file : Text) (error : ConversionError)
  /-- The rule files under a directory were found. -/
  | foundFiles (directory : Text) (files : Nat)
  /-- A batch starts. -/
  | startedBatch (files workers : Nat)
  /-- A batch is done. -/
  | finishedBatch (files failed rules tables : Nat)
deriving DecidableEq

namespace Event

/-- A field of an event. -/
def field (key : String) (value : Text) : Text := [' '] ++ key.toList ++ ['='] ++ value

/-- A field that is a number. -/
def count (key : String) (n : Nat) : Text := field key (ofNat n)

/-- An event on one line. -/
def display : Event → Text
  | skippedLine number error =>
      "WARN skipping rule line".toList ++ count "line" number ++ field "error" error.message
  | dividedRules rules skipped tables =>
      "DEBUG partitioned rules".toList ++ count "rules" rules ++ count "skipped" skipped
        ++ count "tables" tables
  | writingTable decision rules inputs outputs =>
      "DEBUG building decision table".toList ++ field "decision" decision ++ count "rules" rules
        ++ count "inputs" inputs ++ count "outputs" outputs
  | convertedFile file rules tables =>
      "INFO converted rule file".toList ++ field "file" file ++ count "rules" rules
        ++ count "tables" tables
  | failedFile file error =>
      "WARN rule file failed".toList ++ field "file" file ++ field "error" error.message
  | foundFiles directory files =>
      "INFO discovered rule files".toList ++ field "dir" directory ++ count "files" files
  | startedBatch files workers =>
      "DEBUG starting batch".toList ++ count "files" files ++ count "workers" workers
  | finishedBatch files failed rules tables =>
      "INFO batch finished".toList ++ count "files" files ++ count "failed" failed
        ++ count "rules" rules ++ count "tables" tables

end Event

end RuleTable
