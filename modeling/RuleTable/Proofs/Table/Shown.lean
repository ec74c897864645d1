import Mathlib.Data.List.Forall2
import RuleTable.Proofs.Rule.ColumnNames
import RuleTable.Proofs.Table.Columns
import RuleTable.Proofs.Table.Tree

/-!
# What a document shows

The parts of a table as a reader finds them in a tree of elements: for each part a structure that
says which element shows it, by the element's name, its attributes and its children. The main
result puts the writer and the reader of documents together: **the document of a table is read,
and the tree that it gives shows the table**, whatever characters its texts have.
-/

set_option autoImplicit false

namespace RuleTable

open Text Xml

/-! ## The parts of a table in a tree -/

/-- **An element shows a text**: it is a `text` element, and what it says is the text without the
blanks at its ends. -/
structure ShowsText (expression : Text) (element : Element) : Prop where
  name : element.name = "text".toList
  text : element.text = trim expression

/-- **An element shows an input column**: it bears the column's name, and its expression is that
name. -/
structure ShowsInput (column : ColumnName) (element : Element) : Prop where
  name : element.name = "input".toList
  id : element.attribute? "id".toList = some (idOf "input".toList column.chars)
  label : element.attribute? "label".toList = some column.chars
  expression : ∃ holder expression, element.children = [holder] ∧
    holder.name = "inputExpression".toList ∧ holder.children = [expression] ∧
    expression.name = "text".toList ∧ expression.text = column.chars

/-- **An element shows an output column**: it bears the column's name, and nothing is in it. -/
structure ShowsOutput (column : ColumnName) (element : Element) : Prop where
  name : element.name = "output".toList
  id : element.attribute? "id".toList = some (idOf "output".toList column.chars)
  label : element.attribute? "label".toList = some column.chars
  variableName : element.attribute? "name".toList = some column.chars
  children : element.children = []

/-- **An element shows a cell** of a kind: one text stands in it. -/
structure ShowsCell (kind cell : Text) (element : Element) : Prop where
  name : element.name = kind
  text : ∃ expression, element.children = [expression] ∧ ShowsText cell expression

/-- **An element shows a row**: it has the id of the rule, and for each input column and then for
each output column it has the cell that the rule's condition or action on the column gives. -/
structure ShowsRow (inputs outputs : List ColumnName) (rule : Rule) (element : Element) : Prop where
  name : element.name = "rule".toList
  id : element.attribute? "id".toList = some rule.id
  cells : ∃ tests results, element.children = tests ++ results ∧
    List.Forall₂ (fun column => ShowsCell "inputEntry".toList
      (inputCell (rule.conditionOn? column.chars))) inputs tests ∧
    List.Forall₂ (fun column => ShowsCell "outputEntry".toList
      (outputCell ((rule.actionOn? column.chars).map (·.value)))) outputs results

/-- **An element shows a table**: its children are the input columns, the output columns and the
rows, in this order. -/
structure ShowsBody (table : DecisionTable) (inputs outputs : List ColumnName) (element : Element) :
    Prop where
  name : element.name = "decisionTable".toList
  id : element.attribute? "id".toList = some (idOf "decisionTable".toList table.decision.id)
  hitPolicy : element.attribute? "hitPolicy".toList = some "FIRST".toList
  parts : ∃ tested set rows, element.children = tested ++ set ++ rows ∧
    List.Forall₂ ShowsInput inputs tested ∧ List.Forall₂ ShowsOutput outputs set ∧
    List.Forall₂ (ShowsRow inputs outputs) table.rules rows

/-- **A tree shows the document of a table**: in its root stands one decision, and in the decision
one table. -/
structure ShowsDocument (table : DecisionTable) (inputs outputs : List ColumnName)
    (root : Element) : Prop where
  name : root.name = "definitions".toList
  id : root.attribute? "id".toList = some (idOf "definitions".toList table.decision.id)
  decisionName : root.attribute? "name".toList = some table.decision.name
  space : root.attribute? "namespace".toList = some table.decision.space
  decision : ∃ decision body, root.children = [decision] ∧
    decision.name = "decision".toList ∧
    decision.attribute? "id".toList = some table.decision.id ∧
    decision.attribute? "name".toList = some table.decision.name ∧
    decision.children = [body] ∧ ShowsBody table inputs outputs body

/-! ## The tree of a table shows it -/

/-- The element of an input column shows it. -/
theorem showsInput_inputElement (column : ColumnName) : ShowsInput column (inputElement column) :=
  ⟨rfl, rfl, rfl, _, _, rfl, rfl, rfl, rfl, trim_chars column⟩

/-- The element of an output column shows it. -/
theorem showsOutput_outputElement (column : ColumnName) :
    ShowsOutput column (outputElement column) :=
  ⟨rfl, rfl, rfl, rfl, rfl⟩

/-- The element of a cell shows it. -/
theorem showsCell_cellElement (kind ruleId : Text) (column : ColumnName) (cell : Text) :
    ShowsCell kind cell (cellElement kind ruleId column cell) :=
  ⟨rfl, _, rfl, rfl, rfl⟩

/-- The elements made of a list show the items that they are made of. -/
theorem forall₂_map_right {α : Type} {shows : α → Element → Prop} {tree : α → Element}
    {items : List α} (h : ∀ item ∈ items, shows item (tree item)) :
    List.Forall₂ shows items (items.map tree) :=
  List.forall₂_map_right_iff.mpr (List.forall₂_same.mpr h)

/-- The element of a row shows its rule. -/
theorem showsRow_rowElement (inputs outputs : List ColumnName) (rule : Rule) :
    ShowsRow inputs outputs rule (rowElement inputs outputs rule) := by
  refine ⟨rfl, rfl, _, _, rfl, forall₂_map_right fun column _ => ?_,
    forall₂_map_right fun column _ => ?_⟩
  · exact showsCell_cellElement _ rule.id column _
  · exact showsCell_cellElement _ rule.id column _

namespace DecisionTable

/-- The element of a table shows it. -/
theorem showsBody_body (table : DecisionTable) :
    ShowsBody table table.inputs table.outputs table.body := by
  refine ⟨rfl, rfl, rfl, _, _, _, rfl, ?_, ?_, ?_⟩
  · exact forall₂_map_right fun column _ => showsInput_inputElement column
  · exact forall₂_map_right fun column _ => showsOutput_outputElement column
  · exact forall₂_map_right fun rule _ => showsRow_rowElement table.inputs table.outputs rule

/-- The tree of a table shows its document. -/
theorem showsDocument_root (table : DecisionTable) :
    ShowsDocument table table.inputs table.outputs table.root :=
  ⟨rfl, rfl, rfl, rfl, _, _, rfl, rfl, rfl, rfl, rfl, table.showsBody_body⟩

/-- **The document of a table is read, and the tree shows exactly the table.** Its input columns
are the names that the conditions of the rules test and its output columns the names that their
actions set, both in the order of first mention. -/
theorem exists_root_showing (table : DecisionTable) :
    ∃ root inputs outputs, readDocument table.document = .ok root ∧
      FirstSeen inputs (table.rules.flatMap fun rule => rule.conditions.map (·.column)) ∧
      FirstSeen outputs (table.rules.flatMap fun rule => rule.actions.map (·.column)) ∧
      ShowsDocument table inputs outputs root := by
  refine ⟨table.root, table.inputs, table.outputs, ?_, ?_, ?_, ?_⟩
  · exact table.readDocument_document
  · exact table.firstSeen_inputs
  · exact table.firstSeen_outputs
  · exact table.showsDocument_root

end DecisionTable

end RuleTable
