import RuleTable.Proofs.Xml.Document
import RuleTable.Proofs.Xml.Written
import RuleTable.Table.Document

/-!
# The tree of a table

The elements that the document of a table consists of, with their attributes, their layout and
their children: the tree that a reader of the document should get. Each part of the writer of
documents is matched with the part of the tree that it writes, and **the document of a table is
read as its tree**.
-/

set_option autoImplicit false

namespace RuleTable

open Text Markup Xml

/-! ## The elements of a table -/

/-- The element that holds an expression. -/
def textElementOf (expression : Text) : Element := .mk "text".toList [] expression []

/-- The element that declares an input column. -/
def inputElement (column : ColumnName) : Element :=
  laidOut 6 "input".toList
    [("id".toList, idOf "input".toList column.chars), ("label".toList, column.chars)]
    [laidOut 8 "inputExpression".toList
      [("id".toList, idOf "inputExpression".toList column.chars),
        ("typeRef".toList, "string".toList)]
      [textElementOf column.chars]]

/-- The element that declares an output column. -/
def outputElement (column : ColumnName) : Element :=
  .mk "output".toList
    [("id".toList, idOf "output".toList column.chars), ("label".toList, column.chars),
      ("name".toList, column.chars), ("typeRef".toList, "string".toList)] [] []

/-- The element of a cell; `kind` is its name. -/
def cellElement (kind ruleId : Text) (column : ColumnName) (cell : Text) : Element :=
  laidOut 8 kind [("id".toList, idOf kind (ruleId ++ ['_'] ++ column.chars))] [textElementOf cell]

/-- The element of a row: one cell for each column. -/
def rowElement (inputs outputs : List ColumnName) (rule : Rule) : Element :=
  laidOut 6 "rule".toList [("id".toList, rule.id)]
    ((inputs.map fun column =>
        cellElement "inputEntry".toList rule.id column (rule.inputCellIn column))
      ++ outputs.map fun column =>
        cellElement "outputEntry".toList rule.id column (rule.outputCellIn column))

namespace DecisionTable

/-- The element of a table: its input columns, its output columns and its rows. -/
def body (table : DecisionTable) : Element :=
  laidOut 4 "decisionTable".toList
    [("id".toList, idOf "decisionTable".toList table.decision.id),
      ("hitPolicy".toList, "FIRST".toList)]
    (table.inputs.map inputElement ++ table.outputs.map outputElement
      ++ table.rules.map (rowElement table.inputs table.outputs))

/-- The element of the decision that a table makes. -/
def decisionElement (table : DecisionTable) : Element :=
  laidOut 2 "decision".toList
    [("id".toList, table.decision.id), ("name".toList, table.decision.name)] [table.body]

/-- **The tree of a table**: the root element of its document. An empty line follows its start
tag. -/
def root (table : DecisionTable) : Element :=
  .mk "definitions".toList
    [("xmlns".toList, modelNamespace), ("xmlns:dmndi".toList, diagramNamespace),
      ("xmlns:dc".toList, shapeNamespace), ("xmlns:camunda".toList, vendorNamespace),
      ("id".toList, idOf "definitions".toList table.decision.id),
      ("name".toList, table.decision.name), ("namespace".toList, table.decision.space)]
    (['\n'] ++ line 0 [] ++ line 2 []) [table.decisionElement]

end DecisionTable

/-! ## What the writer of documents writes -/

/-- The line of an expression writes the element that holds it. -/
theorem isLines_text (expression : Text) :
    IsLines 10 (line 10 (textElement "text".toList expression)) [textElementOf expression] :=
  .single 10 (IsContent.textElement expression (by decide))

/-- The lines of an input column write its element. -/
theorem isLines_inputLines (column : ColumnName) :
    IsLines 6 (inputLines column) [inputElement column] := by
  have hexpression := IsLines.block 8 "inputExpression".toList (by decide)
    (.spaced "id".toList (idOf "inputExpression".toList column.chars) (by decide)
      (.spaced "typeRef".toList "string".toList (by decide) .nil))
    (isLines_text column.chars)
  have hinput := IsLines.block 6 "input".toList (by decide)
    (.spaced "id".toList (idOf "input".toList column.chars) (by decide)
      (.spaced "label".toList column.chars (by decide) .nil))
    hexpression
  simpa only [inputLines, inputElement, List.append_assoc] using hinput

/-- The line of an output column writes its element. -/
theorem isLines_outputLine (column : ColumnName) :
    IsLines 6 (outputLine column) [outputElement column] :=
  .single 6 (IsContent.emptyElement (by decide)
    (.spaced "id".toList _ (by decide) (.spaced "label".toList _ (by decide)
      (.spaced "name".toList _ (by decide) (.spaced "typeRef".toList _ (by decide) .nil)))))

/-- The lines of a cell write its element. -/
theorem isLines_entryLines {kind : Text} (ruleId : Text) (column : ColumnName) (cell : Text)
    (hk : IsName kind) :
    IsLines 8 (entryLines kind ruleId column cell) [cellElement kind ruleId column cell] :=
  .block 8 kind hk (.spaced "id".toList _ (by decide) .nil) (isLines_text cell)

/-- The lines of a row write its element. -/
theorem isLines_ruleLines (inputs outputs : List ColumnName) (rule : Rule) :
    IsLines 6 (ruleLines inputs outputs rule) [rowElement inputs outputs rule] := by
  have hinputs : IsLines 8
      (inputs.flatMap fun column =>
        entryLines "inputEntry".toList rule.id column (rule.inputCellIn column))
      (inputs.map fun column =>
        cellElement "inputEntry".toList rule.id column (rule.inputCellIn column)) :=
    .flatMap fun column _ => isLines_entryLines rule.id column _ (by decide)
  have houtputs : IsLines 8
      (outputs.flatMap fun column =>
        entryLines "outputEntry".toList rule.id column (rule.outputCellIn column))
      (outputs.map fun column =>
        cellElement "outputEntry".toList rule.id column (rule.outputCellIn column)) :=
    .flatMap fun column _ => isLines_entryLines rule.id column _ (by decide)
  have hrow := IsLines.block 6 "rule".toList (by decide)
    (.spaced "id".toList rule.id (by decide) .nil) (hinputs.append houtputs)
  simpa only [ruleLines, rowElement, List.append_assoc] using hrow

namespace DecisionTable

/-- The lines of a table in its document. -/
def bodyLines (table : DecisionTable) : Text :=
  line 4 (startTag "decisionTable".toList
      [spacedField "id".toList (idOf "decisionTable".toList table.decision.id),
        spacedField "hitPolicy".toList "FIRST".toList])
    ++ (table.inputs.flatMap inputLines ++ table.outputs.flatMap outputLine
      ++ table.rules.flatMap (ruleLines table.inputs table.outputs))
    ++ line 4 (endTag "decisionTable".toList)

/-- The lines of a table write its element. -/
theorem isLines_body (table : DecisionTable) : IsLines 4 table.bodyLines [table.body] := by
  have hinputs : IsLines 6 (table.inputs.flatMap inputLines) (table.inputs.map inputElement) :=
    .flatMap fun column _ => isLines_inputLines column
  have houtputs : IsLines 6 (table.outputs.flatMap outputLine) (table.outputs.map outputElement) :=
    .flatMap fun column _ => isLines_outputLine column
  have hrows : IsLines 6 (table.rules.flatMap (ruleLines table.inputs table.outputs))
      (table.rules.map (rowElement table.inputs table.outputs)) :=
    .flatMap fun rule _ => isLines_ruleLines table.inputs table.outputs rule
  exact .block 4 "decisionTable".toList (by decide)
    (.spaced "id".toList _ (by decide) (.spaced "hitPolicy".toList _ (by decide) .nil))
    ((hinputs.append houtputs).append hrows)

/-- What the document of a table writes between the tags of its root element. -/
def rootContent (table : DecisionTable) : Text :=
  ['\n'] ++ line 0 []
    ++ (line 2 (startTag "decision".toList
        [spacedField "id".toList table.decision.id, spacedField "name".toList table.decision.name])
      ++ table.bodyLines
      ++ line 2 (endTag "decision".toList))

/-- Between the tags of the root element stands the decision, after an empty line. -/
theorem isContent_rootContent (table : DecisionTable) :
    IsContent table.rootContent (['\n'] ++ line 0 [] ++ line 2 []) [table.decisionElement] := by
  have hblank := IsContent.blanks (['\n'] ++ line 0 []) (by decide)
  have hdecision := IsLines.block 2 "decision".toList (by decide)
    (.spaced "id".toList table.decision.id (by decide)
      (.spaced "name".toList table.decision.name (by decide) .nil))
    table.isLines_body
  exact hblank.append hdecision

/-- The attributes of the root element as they are written, under each other. -/
def rootFields (decision : Decision) : List Text :=
  [spacedField "xmlns".toList modelNamespace,
    field rootGap "xmlns:dmndi".toList diagramNamespace,
    field rootGap "xmlns:dc".toList shapeNamespace,
    field rootGap "xmlns:camunda".toList vendorNamespace,
    field rootGap "id".toList (idOf "definitions".toList decision.id),
    field rootGap "name".toList decision.name,
    field rootGap "namespace".toList decision.space]

/-- They write the attributes of the tree. -/
theorem fields_rootFields (table : DecisionTable) :
    Fields (rootFields table.decision) table.root.attributes := by
  have hgap : isGap rootGap = true := by decide
  refine .spaced _ _ (by decide) (.cons hgap (by decide) (.cons hgap (by decide) ?_))
  refine .cons hgap (by decide) (.cons hgap (by decide) (.cons hgap (by decide) ?_))
  exact .cons hgap (by decide) .nil

/-- The line of the declaration is an instruction. -/
theorem line_declaration :
    line 0 declaration
      = "<?".toList ++ "xml version=\"1.0\" encoding=\"UTF-8\"".toList ++ "?>".toList ++ ['\n'] :=
  rfl

/-- The line of the root element starts with its name, which its attributes follow. -/
theorem line_definitionsTag (decision : Decision) :
    line 0 (definitionsTag decision)
      = ['<'] ++ "definitions".toList ++ (rootFields decision).flatten ++ ['>'] ++ ['\n'] :=
  rfl

/-- The document in the order in which it is read: the declaration, the name of the root element
and what follows it. -/
theorem document_eq (table : DecisionTable) :
    table.document
      = "<?".toList ++ "xml version=\"1.0\" encoding=\"UTF-8\"".toList ++ "?>".toList
        ++ ('\n' :: '<' :: ("definitions".toList ++ ((rootFields table.decision).flatten
          ++ '>' :: (table.rootContent ++ (endTag "definitions".toList ++ ['\n']))))) := by
  have hend : line 0 (endTag "definitions".toList) = endTag "definitions".toList ++ ['\n'] := rfl
  simp only [document, rootContent, bodyLines, line_declaration, line_definitionsTag, hend,
    List.append_assoc, List.cons_append, List.nil_append]

/-- **The document of a table is read as the tree of the table.** -/
theorem readDocument_document (table : DecisionTable) :
    readDocument table.document = .ok table.root := by
  have hn : IsName "definitions".toList := by decide
  have hf := table.fields_rootFields
  rw [document_eq]
  refine readDocument_of_readElement ?_ (name?_append hn (hf.endsName_append rfl))
    (IsContent.readElement_eq ['\n'] hn hf table.isContent_rootContent) ?_
  · rw [skipMisc_instruction _ (by decide), skipMisc_blank _ (by decide), skipMisc_element _ hn]
  · rw [skipMisc_blank _ (by decide), skipMisc]

end DecisionTable

end RuleTable
