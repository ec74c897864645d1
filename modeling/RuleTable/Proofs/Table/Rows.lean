import RuleTable.Proofs.Table.Cells
import RuleTable.Proofs.Table.Columns
import RuleTable.Proofs.Table.Parts

/-!
# The rows of a document

A reader of a document gets its rows as lists of texts and the columns from their labels. A row
**carries a rule** if it has the rule's id and, under each label, just the cell that the rule gives
for the column. The rows of a written document carry the rules of its table, one for one, if
trimming changes none of their cells.
-/

set_option autoImplicit false

namespace RuleTable

open Text Xml

/-! ## Labels and rows -/

/-- The labels of the columns in a document; `kind` is the name of their elements. -/
def columnLabels (root : Element) (kind : Text) : List Text :=
  (root.allNamed "decisionTable".toList).flatMap fun table =>
    (table.childrenNamed kind).map fun column => (column.attribute? "label".toList).getD []

/-- **A row of a document carries a rule**: it has the rule's id, a label for each condition and
each action of the rule, and under each label the cell of the rule in the column, character by
character. -/
structure Row.Carries (root : Element) (row : Row) (rule : Rule) : Prop where
  id : row.id = rule.id
  inputs : row.inputs = (columnLabels root "input".toList).map fun label =>
    inputCell (rule.conditionOn? label)
  outputs : row.outputs = (columnLabels root "output".toList).map fun label =>
    outputCell ((rule.actionOn? label).map (·.value))
  tested : ∀ condition ∈ rule.conditions,
    condition.column.chars ∈ columnLabels root "input".toList
  set : ∀ action ∈ rule.actions, action.column.chars ∈ columnLabels root "output".toList

/-! ## Written documents -/

/-- What a reader of rows gets from the element of a row. -/
theorem ofElement_rowElement (inputs outputs : List ColumnName) (rule : Rule) :
    Row.ofElement (rowElement inputs outputs rule)
      = ⟨rule.id, inputs.map fun column => trim (rule.inputCellIn column),
          outputs.map fun column => trim (rule.outputCellIn column)⟩ := by
  have hinputs : Row.cells (rowElement inputs outputs rule) "inputEntry".toList
      = inputs.map fun column => trim (rule.inputCellIn column) := by
    rw [Row.cells, childrenNamed_inputEntry, List.map_map]
    rfl
  have houtputs : Row.cells (rowElement inputs outputs rule) "outputEntry".toList
      = outputs.map fun column => trim (rule.outputCellIn column) := by
    rw [Row.cells, childrenNamed_outputEntry, List.map_map]
    rfl
  unfold Row.ofElement
  rw [hinputs, houtputs]
  rfl

namespace DecisionTable

variable (table : DecisionTable)

/-- The rows of a written document are those of its rules. -/
theorem rows_root :
    Row.all table.root
      = table.rules.map fun rule =>
          Row.ofElement (rowElement table.inputs table.outputs rule) := by
  rw [Row.all, table.allNamed_rule, List.map_map]
  rfl

/-- The labels of the input columns in a written document are their names. -/
theorem inputLabels_root :
    columnLabels table.root "input".toList = table.inputs.map (·.chars) := by
  rw [columnLabels, table.allNamed_decisionTable, List.flatMap_singleton,
    table.childrenNamed_input, List.map_map]
  rfl

/-- The labels of the output columns in a written document are their names. -/
theorem outputLabels_root :
    columnLabels table.root "output".toList = table.outputs.map (·.chars) := by
  rw [columnLabels, table.allNamed_decisionTable, List.flatMap_singleton,
    table.childrenNamed_output, List.map_map]
  rfl

variable {table}

/-- **The row of a trimmed rule carries it.** -/
theorem carries_rowElement {rule : Rule} (hr : rule ∈ table.rules) (ht : rule.IsTrimmed) :
    (Row.ofElement (rowElement table.inputs table.outputs rule)).Carries table.root rule := by
  rw [ofElement_rowElement]
  refine ⟨rfl, ?_, ?_, fun condition hc => ?_, fun action ha => ?_⟩
  · rw [table.inputLabels_root, List.map_map]
    exact List.map_congr_left fun column _ => ht.trim_inputCellIn column
  · rw [table.outputLabels_root, List.map_map]
    exact List.map_congr_left fun column _ => ht.trim_outputCellIn column
  · rw [table.inputLabels_root]
    exact List.mem_map.mpr ⟨condition.column, column_mem_inputs hr hc, rfl⟩
  · rw [table.outputLabels_root]
    exact List.mem_map.mpr ⟨action.column, column_mem_outputs hr ha, rfl⟩

end DecisionTable

end RuleTable
