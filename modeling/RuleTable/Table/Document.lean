import RuleTable.Table.Basic
import RuleTable.Xml.Markup

/-!
# The document of a table

How a decision table is written as a document: a declaration, one root element with the
namespaces, one decision in it, and in the decision one table whose first matching row applies.
Every element has an id of its own kind, made of the ids it stands for.
-/

set_option autoImplicit false

namespace RuleTable

open Text Markup

/-! ## Namespaces -/

/-- The namespace of the model. -/
def modelNamespace : Text := "https://www.omg.org/spec/DMN/20191111/MODEL/".toList

/-- The namespace of diagrams. -/
def diagramNamespace : Text := "https://www.omg.org/spec/DMN/20191111/DMNDI/".toList

/-- The namespace of the shapes in diagrams. -/
def shapeNamespace : Text := "http://www.omg.org/spec/DMN/20180521/DC/".toList

/-- The namespace of the vendor's extensions. -/
def vendorNamespace : Text := "http://camunda.org/schema/1.0/dmn".toList

/-! ## The parts of a document -/

/-- An id of a kind. -/
def idOf (kind id : Text) : Text := kind ++ ['_'] ++ id

/-- The declaration that starts a document. -/
def declaration : Text := "<?xml version=\"1.0\" encoding=\"UTF-8\"?>".toList

/-- The gap between the attributes of the root element, which stand under each other. -/
def rootGap : Text := ['\n'] ++ spaces 13

/-- The start tag of the root element. -/
def definitionsTag (decision : Decision) : Text :=
  startTag "definitions".toList
    [spacedField "xmlns".toList modelNamespace,
      field rootGap "xmlns:dmndi".toList diagramNamespace,
      field rootGap "xmlns:dc".toList shapeNamespace,
      field rootGap "xmlns:camunda".toList vendorNamespace,
      field rootGap "id".toList (idOf "definitions".toList decision.id),
      field rootGap "name".toList decision.name,
      field rootGap "namespace".toList decision.space]

/-- The lines that declare an input column. -/
def inputLines (column : ColumnName) : Text :=
  line 6 (startTag "input".toList
      [spacedField "id".toList (idOf "input".toList column.chars),
        spacedField "label".toList column.chars])
    ++ line 8 (startTag "inputExpression".toList
      [spacedField "id".toList (idOf "inputExpression".toList column.chars),
        spacedField "typeRef".toList "string".toList])
    ++ line 10 (textElement "text".toList column.chars)
    ++ line 8 (endTag "inputExpression".toList)
    ++ line 6 (endTag "input".toList)

/-- The line that declares an output column. -/
def outputLine (column : ColumnName) : Text :=
  line 6 (emptyTag "output".toList
    [spacedField "id".toList (idOf "output".toList column.chars),
      spacedField "label".toList column.chars,
      spacedField "name".toList column.chars,
      spacedField "typeRef".toList "string".toList])

/-- The lines of a cell in a row; `kind` is the name of its element. -/
def entryLines (kind ruleId : Text) (column : ColumnName) (cell : Text) : Text :=
  line 8 (startTag kind
      [spacedField "id".toList (idOf kind (ruleId ++ ['_'] ++ column.chars))])
    ++ line 10 (textElement "text".toList cell)
    ++ line 8 (endTag kind)

/-- The lines of a row: one cell for each column. -/
def ruleLines (inputs outputs : List ColumnName) (rule : Rule) : Text :=
  line 6 (startTag "rule".toList [spacedField "id".toList rule.id])
    ++ (inputs.flatMap fun column =>
      entryLines "inputEntry".toList rule.id column (rule.inputCellIn column))
    ++ (outputs.flatMap fun column =>
      entryLines "outputEntry".toList rule.id column (rule.outputCellIn column))
    ++ line 6 (endTag "rule".toList)

/-! ## The document -/

namespace DecisionTable

/-- **The document of a table.** -/
def document (table : DecisionTable) : Text :=
  let decision := table.decision
  let inputs := table.inputs
  let outputs := table.outputs
  line 0 declaration
    ++ line 0 (definitionsTag decision)
    ++ line 0 []
    ++ line 2 (startTag "decision".toList
      [spacedField "id".toList decision.id, spacedField "name".toList decision.name])
    ++ line 4 (startTag "decisionTable".toList
      [spacedField "id".toList (idOf "decisionTable".toList decision.id),
        spacedField "hitPolicy".toList "FIRST".toList])
    ++ inputs.flatMap inputLines
    ++ outputs.flatMap outputLine
    ++ table.rules.flatMap (ruleLines inputs outputs)
    ++ line 4 (endTag "decisionTable".toList)
    ++ line 2 (endTag "decision".toList)
    ++ line 0 (endTag "definitions".toList)

end DecisionTable

end RuleTable
