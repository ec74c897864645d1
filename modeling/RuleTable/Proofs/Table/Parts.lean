import RuleTable.Check.Rows
import RuleTable.Proofs.Table.Tree

/-!
# The parts of a tree by their names

The check of a document and the reader of its rows look for elements by name. Here is what they
find in the tree of a table: one decision, one table in it, the columns and the rows of the table,
and the cells of each row, **each in the order in which the table has them**.
-/

set_option autoImplicit false

namespace RuleTable

open Text Xml

namespace Element

/-! ## Searching a tree -/

/-- All elements of several trees, tree by tree. -/
theorem allOf_eq (elements : List Element) : allOf elements = elements.flatMap all := by
  induction elements with
  | nil => rfl
  | cons element elements ih => rw [allOf, ih, List.flatMap_cons]

/-- **The elements of a name** in a tree are its root, if it has the name, and those below it. -/
theorem allNamed_eq (element : Element) (key : Text) :
    element.allNamed key
      = (if element.name = key then [element] else [])
        ++ element.children.flatMap (·.allNamed key) := by
  obtain ⟨name, attributes, text, children⟩ := element
  have hchildren : (allOf children).filter (·.name == key)
      = children.flatMap (·.allNamed key) := by
    rw [allOf_eq, List.filter_flatMap]
    rfl
  unfold allNamed
  rw [all, List.filter_cons, hchildren]
  show (if (name == key) = true then _ else _) = (if name = key then _ else _) ++ _
  by_cases h : name = key
  · rw [if_pos (beq_iff_eq.mpr h), if_pos h]
    rfl
  · rw [if_neg (fun hb => h (beq_iff_eq.mp hb)), if_neg h]
    rfl

/-- Nothing is found in a tree whose root has another name and below whose root nothing is
found. -/
theorem allNamed_eq_nil {element : Element} {key : Text} (hn : element.name ≠ key)
    (hc : ∀ child ∈ element.children, child.allNamed key = []) : element.allNamed key = [] := by
  rw [allNamed_eq, if_neg hn, List.nil_append, List.flatMap_eq_nil_iff]
  exact hc

/-- A list of elements that bear one name: a search by name finds all of them or none. -/
theorem filter_map_of_name {α : Type} {tree : α → Element} (name key : Text) (items : List α)
    (h : ∀ item, (tree item).name = name) :
    (items.map tree).filter (·.name == key) = if name = key then items.map tree else [] := by
  by_cases hk : name = key
  · rw [if_pos hk, List.filter_eq_self]
    intro element he
    obtain ⟨item, -, rfl⟩ := List.mem_map.mp he
    simp [h item, hk]
  · rw [if_neg hk, List.filter_eq_nil_iff]
    intro element he
    obtain ⟨item, -, rfl⟩ := List.mem_map.mp he
    simp [h item, hk]

end Element

/-! ## Elements that a search passes over -/

/-- The names of the elements that stand for columns and cells. -/
def smallNames : List Text :=
  ["input".toList, "inputExpression".toList, "output".toList, "inputEntry".toList,
    "outputEntry".toList, "text".toList]

variable {key : Text}

/-- A small name is not the name that is searched for. -/
theorem ne_of_mem_smallNames (name : Text) (hn : name ∈ smallNames) (h : key ∉ smallNames) :
    name ≠ key :=
  ne_of_mem_of_not_mem hn h

/-- A search for another name finds nothing in a text. -/
theorem allNamed_textElementOf (expression : Text) (h : key ∉ smallNames) :
    (textElementOf expression).allNamed key = [] :=
  Element.allNamed_eq_nil (ne_of_mem_smallNames "text".toList (by decide) h)
    (List.forall_mem_nil _)

/-- A search for another name finds nothing in an input column. -/
theorem allNamed_inputElement (column : ColumnName) (h : key ∉ smallNames) :
    (inputElement column).allNamed key = [] := by
  refine Element.allNamed_eq_nil (ne_of_mem_smallNames "input".toList (by decide) h) ?_
  refine List.forall_mem_singleton.mpr ?_
  refine Element.allNamed_eq_nil (ne_of_mem_smallNames "inputExpression".toList (by decide) h) ?_
  exact List.forall_mem_singleton.mpr (allNamed_textElementOf column.chars h)

/-- A search for another name finds nothing in an output column. -/
theorem allNamed_outputElement (column : ColumnName) (h : key ∉ smallNames) :
    (outputElement column).allNamed key = [] :=
  Element.allNamed_eq_nil (ne_of_mem_smallNames "output".toList (by decide) h)
    (List.forall_mem_nil _)

/-- A search for another name finds nothing in a cell. -/
theorem allNamed_cellElement {kind : Text} (ruleId : Text) (column : ColumnName) (cell : Text)
    (hk : kind ∈ smallNames) (h : key ∉ smallNames) :
    (cellElement kind ruleId column cell).allNamed key = [] :=
  Element.allNamed_eq_nil (ne_of_mem_smallNames kind hk h)
    (List.forall_mem_singleton.mpr (allNamed_textElementOf cell h))

/-- **In a row there is no element of another name** than the row's and the small ones. -/
theorem allNamed_rowElement (inputs outputs : List ColumnName) (rule : Rule)
    (h : key ∉ smallNames) :
    (rowElement inputs outputs rule).allNamed key
      = if "rule".toList = key then [rowElement inputs outputs rule] else [] := by
  have hcells : ∀ cell ∈ (rowElement inputs outputs rule).children, cell.allNamed key = [] := by
    intro cell hc
    rcases List.mem_append.mp hc with hc | hc
    · obtain ⟨column, -, rfl⟩ := List.mem_map.mp hc
      exact allNamed_cellElement rule.id column _ (by decide) h
    · obtain ⟨column, -, rfl⟩ := List.mem_map.mp hc
      exact allNamed_cellElement rule.id column _ (by decide) h
  rw [Element.allNamed_eq, List.flatMap_eq_nil_iff.mpr hcells, List.append_nil]
  rfl

/-! ## The parts of a table -/

namespace DecisionTable

/-- **The elements of a name in a table**: the table itself and its rows, where they have it. -/
theorem allNamed_body (table : DecisionTable) (h : key ∉ smallNames) :
    table.body.allNamed key
      = (if "decisionTable".toList = key then [table.body] else [])
        ++ (if "rule".toList = key then table.rules.map (rowElement table.inputs table.outputs)
          else []) := by
  -- Among the children only rows can have the name, and nothing inside a child has it.
  have hinputs : (table.inputs.map inputElement).flatMap (·.allNamed key) = [] := by
    rw [List.flatMap_map, List.flatMap_eq_nil_iff]
    exact fun column _ => allNamed_inputElement column h
  have houtputs : (table.outputs.map outputElement).flatMap (·.allNamed key) = [] := by
    rw [List.flatMap_map, List.flatMap_eq_nil_iff]
    exact fun column _ => allNamed_outputElement column h
  have hrows : (table.rules.map (rowElement table.inputs table.outputs)).flatMap (·.allNamed key)
      = if "rule".toList = key then table.rules.map (rowElement table.inputs table.outputs)
        else [] := by
    simp only [List.flatMap_map, allNamed_rowElement table.inputs table.outputs _ h]
    by_cases hk : "rule".toList = key
    · simp only [if_pos hk, List.map_eq_flatMap]
    · simp only [if_neg hk, List.flatMap_eq_nil_iff, implies_true]
  have hbelow : table.body.children.flatMap (·.allNamed key)
      = (table.inputs.map inputElement).flatMap (·.allNamed key)
        ++ (table.outputs.map outputElement).flatMap (·.allNamed key)
        ++ (table.rules.map (rowElement table.inputs table.outputs)).flatMap
          (·.allNamed key) := by
    rw [← List.flatMap_append, ← List.flatMap_append]
    rfl
  rw [Element.allNamed_eq, hbelow, hinputs, houtputs, hrows]
  rfl

/-- **The elements of a name in the tree of a table**, when the name is not the root's. -/
theorem allNamed_root (table : DecisionTable) (hr : "definitions".toList ≠ key) :
    table.root.allNamed key
      = (if "decision".toList = key then [table.decisionElement] else [])
        ++ table.body.allNamed key := by
  have hroot : table.root.name ≠ key := hr
  have hbelow : table.root.children = [table.decisionElement] := rfl
  have hdecision : table.decisionElement.children = [table.body] := rfl
  rw [Element.allNamed_eq, if_neg hroot, List.nil_append, hbelow, List.flatMap_singleton,
    Element.allNamed_eq, hdecision, List.flatMap_singleton]
  rfl

/-- There is one decision in the tree. -/
theorem allNamed_decision (table : DecisionTable) :
    table.root.allNamed "decision".toList = [table.decisionElement] := by
  rw [allNamed_root table (by decide), allNamed_body table (by decide)]
  rfl

/-- **There is one table in the tree.** -/
theorem allNamed_decisionTable (table : DecisionTable) :
    table.root.allNamed "decisionTable".toList = [table.body] := by
  rw [allNamed_root table (by decide), allNamed_body table (by decide)]
  rfl

/-- **The rows in the tree are those of the rules**, in order. -/
theorem allNamed_rule (table : DecisionTable) :
    table.root.allNamed "rule".toList
      = table.rules.map (rowElement table.inputs table.outputs) := by
  rw [allNamed_root table (by decide), allNamed_body table (by decide)]
  rfl

/-! ## Columns and cells -/

/-- What a search by name finds among the children of a table. -/
theorem childrenNamed_body (table : DecisionTable) :
    table.body.childrenNamed key
      = (if "input".toList = key then table.inputs.map inputElement else [])
        ++ (if "output".toList = key then table.outputs.map outputElement else [])
        ++ (if "rule".toList = key then table.rules.map (rowElement table.inputs table.outputs)
          else []) := by
  have hchildren : table.body.childrenNamed key
      = (table.inputs.map inputElement ++ table.outputs.map outputElement
        ++ table.rules.map (rowElement table.inputs table.outputs)).filter (·.name == key) := rfl
  have hinputs : (table.inputs.map inputElement).filter (·.name == key) = _ :=
    Element.filter_map_of_name "input".toList key table.inputs fun _ => rfl
  have houtputs : (table.outputs.map outputElement).filter (·.name == key) = _ :=
    Element.filter_map_of_name "output".toList key table.outputs fun _ => rfl
  have hrows : (table.rules.map (rowElement table.inputs table.outputs)).filter (·.name == key)
      = _ :=
    Element.filter_map_of_name "rule".toList key table.rules fun _ => rfl
  rw [hchildren, List.filter_append, List.filter_append, hinputs, houtputs, hrows]

/-- **The input columns of a written table.** -/
theorem childrenNamed_input (table : DecisionTable) :
    table.body.childrenNamed "input".toList = table.inputs.map inputElement := by
  rw [childrenNamed_body, if_pos rfl, if_neg (by decide), if_neg (by decide), List.append_nil,
    List.append_nil]

/-- **The output columns of a written table.** -/
theorem childrenNamed_output (table : DecisionTable) :
    table.body.childrenNamed "output".toList = table.outputs.map outputElement := by
  rw [childrenNamed_body, if_neg (by decide), if_pos rfl, if_neg (by decide), List.nil_append,
    List.append_nil]

/-- **The rows of a written table.** -/
theorem childrenNamed_rule (table : DecisionTable) :
    table.body.childrenNamed "rule".toList
      = table.rules.map (rowElement table.inputs table.outputs) := by
  rw [childrenNamed_body, if_neg (by decide), if_neg (by decide), if_pos rfl, List.nil_append,
    List.nil_append]

end DecisionTable

/-- What a search by name finds among the cells of a row. -/
theorem childrenNamed_rowElement (inputs outputs : List ColumnName) (rule : Rule) :
    (rowElement inputs outputs rule).childrenNamed key
      = (if "inputEntry".toList = key then
          inputs.map fun column =>
            cellElement "inputEntry".toList rule.id column (rule.inputCellIn column)
          else [])
        ++ (if "outputEntry".toList = key then
          outputs.map fun column =>
            cellElement "outputEntry".toList rule.id column (rule.outputCellIn column)
          else []) := by
  have hinputs : (inputs.map fun column =>
      cellElement "inputEntry".toList rule.id column (rule.inputCellIn column)).filter
        (·.name == key) = _ :=
    Element.filter_map_of_name "inputEntry".toList key inputs fun _ => rfl
  have houtputs : (outputs.map fun column =>
      cellElement "outputEntry".toList rule.id column (rule.outputCellIn column)).filter
        (·.name == key) = _ :=
    Element.filter_map_of_name "outputEntry".toList key outputs fun _ => rfl
  unfold Element.childrenNamed
  rw [← hinputs, ← houtputs, ← List.filter_append]
  rfl

/-- **The input cells of a written row.** -/
theorem childrenNamed_inputEntry (inputs outputs : List ColumnName) (rule : Rule) :
    (rowElement inputs outputs rule).childrenNamed "inputEntry".toList
      = inputs.map fun column =>
          cellElement "inputEntry".toList rule.id column (rule.inputCellIn column) := by
  rw [childrenNamed_rowElement, if_pos rfl, if_neg (by decide), List.append_nil]

/-- **The output cells of a written row.** -/
theorem childrenNamed_outputEntry (inputs outputs : List ColumnName) (rule : Rule) :
    (rowElement inputs outputs rule).childrenNamed "outputEntry".toList
      = outputs.map fun column =>
          cellElement "outputEntry".toList rule.id column (rule.outputCellIn column) := by
  rw [childrenNamed_rowElement, if_neg (by decide), if_pos rfl, List.nil_append]

end RuleTable
