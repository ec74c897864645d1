import RuleTable.Check.Report
import RuleTable.Table.Document
import RuleTable.Xml.Document
import Std.Data.HashSet

/-!
# Checking documents

Whether a text is a document with a decision table in it. Checking reads the document and then
looks at its elements: the root, the decision, the tables, whether every row has as many cells as
the table has columns, and whether ids repeat.
-/

set_option autoImplicit false

namespace RuleTable

open Text

/-! ## The parts of a check -/

/-- Nothing found if the condition holds, else a report. -/
def Report.unless (condition : Bool) (report : Report) : Report :=
  if condition then {} else report

/-- What an element's id is called in a report. -/
def idOrUnknown (element : Element) : Text := (element.attribute? "id".toList).getD ['?']

/-- Whether an element says that it belongs to the standard. -/
def hasModelNamespace (root : Element) : Bool :=
  (root.attribute? "xmlns".toList).any ("https://www.omg.org/spec/DMN".toList.isPrefixOf ·)

/-- The error of a row whose number of cells of a kind is not the number of columns. -/
def checkCells (row : Element) (kind : Text) (columns : Nat) (cells : Nat) : Report :=
  .unless (cells == columns) <| .error <|
    "rule '".toList ++ idOrUnknown row ++ "' has ".toList ++ ofNat cells ++ [' '] ++ kind
      ++ " entries for ".toList ++ ofNat columns ++ [' '] ++ kind ++ ['s']

/-- What is wrong with a row of a table. -/
def checkRow (table row : Element) : Report :=
  checkCells row "input".toList (table.childrenNamed "input".toList).length
      (row.childrenNamed "inputEntry".toList).length
    ++ checkCells row "output".toList (table.childrenNamed "output".toList).length
      (row.childrenNamed "outputEntry".toList).length

/-- What is wrong with a table. -/
def checkTable (table : Element) : Report :=
  Report.unless (table.attribute? "hitPolicy".toList).isSome
      (.warning ("decision table '".toList ++ idOrUnknown table ++ "' has no hitPolicy".toList))
    ++ ((table.childrenNamed "rule".toList).map (checkRow table)).foldl (· ++ ·) {}

/-- What is wrong with the structure of a document. -/
def checkStructure (root : Element) : Report :=
  Report.unless (root.name == "definitions".toList)
      (.error ("root element is <".toList ++ root.name ++ ">, expected <definitions>".toList))
    ++ .unless (hasModelNamespace root)
      (.warning ("missing OMG DMN namespace ".toList ++ modelNamespace))
    ++ .unless (! (root.allNamed "decision".toList).isEmpty)
      (.error "missing <decision> element".toList)
    ++ .unless (! (root.allNamed "decisionTable".toList).isEmpty)
      (.error "missing <decisionTable> element".toList)
    ++ ((root.allNamed "decisionTable".toList).map checkTable).foldl (· ++ ·) {}

/-- Texts are hashed character by character. -/
instance : Hashable Text := @instHashableList Char instHashableChar

/-- **The repetitions in a list of ids**: each id that occurs earlier in the list or is in `seen`,
once for each time it occurs again. -/
def repeatedIds (seen : Std.HashSet Text) : List Text → List Text
  | [] => []
  | id :: ids =>
      if seen.contains id then id :: repeatedIds seen ids else repeatedIds (seen.insert id) ids

/-- The ids that repeat in a document. A decision may have the id of a column, so a repetition is
no error. -/
def checkIds (root : Element) : Report :=
  { warnings :=
      (repeatedIds ∅ (root.all.filterMap (·.attribute? "id".toList))).map fun id =>
        "duplicate id '".toList ++ id ++ ['\''] }

/-! ## The check -/

/-- **The check of a document.** -/
def checkDocument (document : Text) : Report :=
  if (trim document).isEmpty then .error "document is empty".toList
  else
    Report.unless ("<?xml".toList.isPrefixOf (trimStart document))
        (.warning "missing XML declaration".toList)
      ++ match Xml.readDocument document with
        | .error fault => .error (fault.message document)
        | .ok root => checkStructure root ++ checkIds root

end RuleTable
