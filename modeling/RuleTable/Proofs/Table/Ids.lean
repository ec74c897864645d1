import Mathlib.Data.List.Nodup
import RuleTable.Proofs.Reading.Ids
import RuleTable.Proofs.Table.Columns
import RuleTable.Proofs.Table.Parts

/-!
# The ids in a document

Every element of a document but the texts has an id, which is put together from the kind of the
element and the ids and columns that it stands for. An id tells its kind by its first part, and
within a kind it tells what it was made of. So **no two elements share an id** if the ids of the
rules stay apart, the decision alone excepted, whose id may be any text.
-/

set_option autoImplicit false

namespace RuleTable

open Text Xml

namespace Element

/-! ## The ids of a tree -/

/-- **The ids of a tree**, in the order of its elements. -/
def ids (element : Element) : List Text :=
  element.all.filterMap (·.attribute? "id".toList)

/-- The ids of a tree are that of its root, if it has one, and those below it. -/
theorem ids_eq (element : Element) :
    element.ids = (element.attribute? "id".toList).toList ++ element.children.flatMap ids := by
  obtain ⟨name, attributes, text, children⟩ := element
  rw [ids, all, allOf_eq, List.filterMap_cons, List.filterMap_flatMap]
  cases (mk name attributes text children).attribute? "id".toList <;> rfl

end Element

/-! ## Ids and their kinds -/

/-- The ids of an input column: its own and that of its expression. -/
def inputIds (column : ColumnName) : List Text :=
  [idOf "input".toList column.chars, idOf "inputExpression".toList column.chars]

/-- The id of a cell in a row. -/
def cellId (kind ruleId : Text) (column : ColumnName) : Text :=
  idOf kind (ruleId ++ ['_'] ++ column.chars)

/-- The ids of a row: its own and those of its cells. -/
def rowIds (inputs outputs : List ColumnName) (rule : Rule) : List Text :=
  rule.id :: (inputs.map (cellId "inputEntry".toList rule.id)
    ++ outputs.map (cellId "outputEntry".toList rule.id))

namespace DecisionTable

/-- The ids of the columns of a table. -/
def columnIds (table : DecisionTable) : List Text :=
  table.inputs.flatMap inputIds ++ table.outputs.map fun column => idOf "output".toList column.chars

/-- **The generated ids of a table**: those of its columns, its rows and its cells. -/
def generatedIds (table : DecisionTable) : List Text :=
  table.columnIds ++ table.rules.flatMap (rowIds table.inputs table.outputs)

end DecisionTable

/-- An input column has the ids of its two elements. -/
theorem ids_inputElement (column : ColumnName) : (inputElement column).ids = inputIds column := rfl

/-- An output column has one id. -/
theorem ids_outputElement (column : ColumnName) :
    (outputElement column).ids = [idOf "output".toList column.chars] := rfl

/-- A cell has one id, and its text has none. -/
theorem ids_cellElement (kind ruleId : Text) (column : ColumnName) (cell : Text) :
    (cellElement kind ruleId column cell).ids = [cellId kind ruleId column] := rfl

/-- A row has its own id and those of its cells. -/
theorem ids_rowElement (inputs outputs : List ColumnName) (rule : Rule) :
    (rowElement inputs outputs rule).ids = rowIds inputs outputs rule := by
  have hid : (rowElement inputs outputs rule).attribute? "id".toList = some rule.id := rfl
  have hchildren : (rowElement inputs outputs rule).children
      = (inputs.map fun column =>
          cellElement "inputEntry".toList rule.id column (rule.inputCellIn column))
        ++ outputs.map fun column =>
          cellElement "outputEntry".toList rule.id column (rule.outputCellIn column) := rfl
  rw [Element.ids_eq, hid, hchildren]
  simp only [List.flatMap_append, List.flatMap_map, ids_cellElement, ← List.map_eq_flatMap]
  rfl

namespace DecisionTable

/-- A table has its own id and the generated ones. -/
theorem ids_body (table : DecisionTable) :
    table.body.ids = idOf "decisionTable".toList table.decision.id :: table.generatedIds := by
  have hid : table.body.attribute? "id".toList
      = some (idOf "decisionTable".toList table.decision.id) := rfl
  have hchildren : table.body.children
      = table.inputs.map inputElement ++ table.outputs.map outputElement
        ++ table.rules.map (rowElement table.inputs table.outputs) := rfl
  rw [Element.ids_eq, hid, hchildren]
  simp only [List.flatMap_append, List.flatMap_map, ids_inputElement, ids_outputElement,
    ids_rowElement, ← List.map_eq_flatMap]
  rfl

/-- **The ids of a written document**: that of the root, the decision's own, that of the table, and
the generated ones. -/
theorem ids_root (table : DecisionTable) :
    table.root.ids = idOf "definitions".toList table.decision.id :: table.decision.id
      :: idOf "decisionTable".toList table.decision.id :: table.generatedIds := by
  have hroot : table.root.children = [table.decisionElement] := rfl
  have hdecision : table.decisionElement.children = [table.body] := rfl
  rw [Element.ids_eq, hroot, List.flatMap_singleton, Element.ids_eq, hdecision,
    List.flatMap_singleton, ids_body]
  rfl

end DecisionTable

/-! ## Kinds of ids -/

/-- An id tells its kind by its first part. -/
theorem firstPart_idOf {kind : Text} (id : Text) (h : '_' ∉ kind) :
    firstPart (idOf kind id) = kind := by
  rw [idOf, List.append_assoc, List.singleton_append, firstPart_append id h]

/-- Within a kind an id tells what it was made of. -/
theorem idOf_injective (kind : Text) : Function.Injective (idOf kind) :=
  fun _ _ h => List.append_cancel_left h

/-- An id is longer than what it was made of. -/
theorem idOf_ne_self (kind id : Text) : idOf kind id ≠ id := by
  intro h
  have hlength := congrArg List.length h
  simp only [idOf, List.length_append, List.length_singleton] at hlength
  omega

/-- **All of some ids are of some kinds.** -/
def OfKinds (kinds ids : List Text) : Prop := ∀ id ∈ ids, firstPart id ∈ kinds

namespace OfKinds

variable {kinds otherKinds ids others : List Text}

/-- The kinds of ids put together are those of their parts. -/
theorem append (h : OfKinds kinds ids) (ho : OfKinds otherKinds others) :
    OfKinds (kinds ++ otherKinds) (ids ++ others) := by
  intro id hid
  rcases List.mem_append.mp hid with hid | hid
  · exact List.mem_append_left _ (h id hid)
  · exact List.mem_append_right _ (ho id hid)

/-- The kinds of the ids of each item are those of all of them. -/
theorem flatMap {α : Type} {items : List α} {make : α → List Text}
    (h : ∀ item ∈ items, OfKinds kinds (make item)) : OfKinds kinds (items.flatMap make) := by
  intro id hid
  obtain ⟨item, hitem, hid⟩ := List.mem_flatMap.mp hid
  exact h item hitem id hid

/-- Ids made of columns are of the kind they are made for. -/
theorem map_idOf {kind : Text} (make : ColumnName → Text) (columns : List ColumnName)
    (hk : '_' ∉ kind) : OfKinds [kind] (columns.map fun column => idOf kind (make column)) := by
  intro id hid
  obtain ⟨column, -, rfl⟩ := List.mem_map.mp hid
  rw [firstPart_idOf _ hk]
  exact List.mem_singleton_self kind

/-- **Ids of different kinds differ.** -/
theorem disjoint (h : OfKinds kinds ids) (ho : OfKinds otherKinds others)
    (hk : ∀ kind ∈ kinds, kind ∉ otherKinds) : ids.Disjoint others :=
  fun id hid hother => hk _ (h id hid) (ho id hother)

end OfKinds

/-! ## The ids of columns -/

/-- The kinds of the ids of input columns. -/
def inputKinds : List Text := ["input".toList, "inputExpression".toList]

/-- The ids of an input column are of their kinds. -/
theorem ofKinds_inputIds (column : ColumnName) : OfKinds inputKinds (inputIds column) :=
  (OfKinds.map_idOf (fun column => column.chars) [column] (by decide)).append
    (OfKinds.map_idOf (fun column => column.chars) [column] (by decide))

/-- **The ids of different input columns differ.** -/
theorem nodup_flatMap_inputIds {columns : List ColumnName} (h : columns.Nodup) :
    (columns.flatMap inputIds).Nodup := by
  have hne : ∀ column other : ColumnName,
      idOf "input".toList column.chars ≠ idOf "inputExpression".toList other.chars := by
    intro column other heq
    have hfirst := congrArg firstPart heq
    rw [firstPart_idOf _ (by decide), firstPart_idOf _ (by decide)] at hfirst
    exact absurd hfirst (by decide)
  refine List.nodup_flatMap.mpr ⟨fun column _ => ?_, h.imp fun {column other} hco => ?_⟩
  · simpa [inputIds] using hne column column
  · have hchars : column.chars ≠ other.chars := fun he => hco (ColumnName.eq_of_chars_eq he)
    simp only [Function.onFun, inputIds, List.disjoint_left, List.mem_cons, List.not_mem_nil,
      or_false]
    rintro id (rfl | rfl) (heq | heq)
    · exact hchars (idOf_injective _ heq)
    · exact hne column other heq
    · exact hne other column heq.symm
    · exact hchars (idOf_injective _ heq)

namespace DecisionTable

/-- The ids of columns are of their kinds. -/
theorem ofKinds_columnIds (table : DecisionTable) :
    OfKinds (inputKinds ++ ["output".toList]) table.columnIds :=
  (OfKinds.flatMap fun column _ => ofKinds_inputIds column).append
    (OfKinds.map_idOf (fun column => column.chars) table.outputs (by decide))

/-- **The ids of the columns of a table differ.** -/
theorem nodup_columnIds (table : DecisionTable) : table.columnIds.Nodup := by
  have houtputs : (table.outputs.map fun column => idOf "output".toList column.chars).Nodup :=
    table.firstSeen_outputs.nodup.map fun _ _ he =>
      ColumnName.eq_of_chars_eq (idOf_injective _ he)
  refine List.nodup_append'.mpr
    ⟨nodup_flatMap_inputIds table.firstSeen_inputs.nodup, houtputs, ?_⟩
  exact (OfKinds.flatMap fun column _ => ofKinds_inputIds column).disjoint
    (OfKinds.map_idOf (fun column => column.chars) table.outputs (by decide)) (by decide)

end DecisionTable

/-! ## The ids of rows -/

/-- The kinds of the ids of cells. -/
def cellKinds : List Text := ["inputEntry".toList, "outputEntry".toList]

/-- The id of a cell is of the cell's kind. -/
theorem firstPart_cellId {kind : Text} (ruleId : Text) (column : ColumnName)
    (h : kind ∈ cellKinds) : firstPart (cellId kind ruleId column) = kind := by
  have hall : ∀ other ∈ cellKinds, '_' ∉ other := by decide
  exact firstPart_idOf _ (hall kind h)

/-- The ids of the cells of a row are of their kinds. -/
theorem ofKinds_cells (kind ruleId : Text) (columns : List ColumnName) (hk : '_' ∉ kind) :
    OfKinds [kind] (columns.map (cellId kind ruleId)) :=
  OfKinds.map_idOf (fun column => ruleId ++ ['_'] ++ column.chars) columns hk

/-- The cells of one kind in a row have different ids. -/
theorem nodup_map_cellId (kind ruleId : Text) {columns : List ColumnName} (h : columns.Nodup) :
    (columns.map (cellId kind ruleId)).Nodup :=
  h.map fun _ _ he =>
    ColumnName.eq_of_chars_eq (List.append_cancel_left (idOf_injective kind he))

/-- **Cells in rows whose ids stay apart** have different ids. -/
theorem cellId_ne {kind ruleId otherId : Text} (column other : ColumnName)
    (h : IdsApart ruleId otherId) : cellId kind ruleId column ≠ cellId kind otherId other := by
  intro he
  have hparts := idOf_injective kind he
  simp only [List.append_assoc, List.singleton_append] at hparts
  exact h column.chars other.chars hparts

section Row

variable (inputs outputs : List ColumnName) {rule : Rule}

/-- The ids of a row are of the kind of rules and of cells. -/
theorem ofKinds_rowIds (hr : firstPart rule.id = "rule".toList) :
    OfKinds (["rule".toList] ++ cellKinds) (rowIds inputs outputs rule) := by
  have hown : OfKinds ["rule".toList] [rule.id] := by simpa [OfKinds] using hr
  exact hown.append ((ofKinds_cells "inputEntry".toList rule.id inputs (by decide)).append
    (ofKinds_cells "outputEntry".toList rule.id outputs (by decide)))

variable {inputs outputs}

/-- **The ids of one row differ.** -/
theorem nodup_rowIds (hi : inputs.Nodup) (ho : outputs.Nodup)
    (hr : firstPart rule.id = "rule".toList) : (rowIds inputs outputs rule).Nodup := by
  have htests := ofKinds_cells "inputEntry".toList rule.id inputs (by decide)
  have hresults := ofKinds_cells "outputEntry".toList rule.id outputs (by decide)
  have hcells := List.nodup_append'.mpr ⟨nodup_map_cellId "inputEntry".toList rule.id hi,
    nodup_map_cellId "outputEntry".toList rule.id ho, htests.disjoint hresults (by decide)⟩
  refine List.nodup_cons.mpr ⟨fun h => ?_, hcells⟩
  -- No cell has the kind of the row's own id.
  have hkind := (htests.append hresults) _ h
  rw [hr] at hkind
  exact absurd hkind (by decide)

/-- An id in a row is the row's own or that of a cell. -/
theorem of_mem_rowIds {id : Text} (h : id ∈ rowIds inputs outputs rule) :
    id = rule.id ∨ ∃ kind ∈ cellKinds, ∃ column, id = cellId kind rule.id column := by
  rcases List.mem_cons.mp h with rfl | h
  · exact Or.inl rfl
  · rcases List.mem_append.mp h with h | h
    · obtain ⟨column, -, rfl⟩ := List.mem_map.mp h
      exact Or.inr ⟨_, by decide, column, rfl⟩
    · obtain ⟨column, -, rfl⟩ := List.mem_map.mp h
      exact Or.inr ⟨_, by decide, column, rfl⟩

/-- **Rows whose ids stay apart** share no id. -/
theorem disjoint_rowIds {other : Rule} (hr : firstPart rule.id = "rule".toList)
    (ho : firstPart other.id = "rule".toList) (h : IdsApart rule.id other.id) :
    (rowIds inputs outputs rule).Disjoint (rowIds inputs outputs other) := by
  have hkinds : "rule".toList ∉ cellKinds := by decide
  intro id hid hother
  rcases of_mem_rowIds hid with rfl | ⟨kind, hk, column, rfl⟩
  · rcases of_mem_rowIds hother with heq | ⟨kind', hk', column', heq⟩
    · exact h.ne heq
    · have hfirst := congrArg firstPart heq
      rw [hr, firstPart_cellId _ _ hk'] at hfirst
      exact hkinds (hfirst ▸ hk')
  · rcases of_mem_rowIds hother with heq | ⟨kind', hk', column', heq⟩
    · have hfirst := congrArg firstPart heq
      rw [ho, firstPart_cellId _ _ hk] at hfirst
      exact hkinds (hfirst ▸ hk)
    · have hfirst := congrArg firstPart heq
      rw [firstPart_cellId _ _ hk, firstPart_cellId _ _ hk'] at hfirst
      subst hfirst
      exact cellId_ne column column' h heq

end Row

/-! ## The ids of a written document -/

namespace DecisionTable

variable {table : DecisionTable}

/-- The generated ids are of the kinds of columns, rules and cells. -/
theorem ofKinds_generatedIds (h : DrawnApart table.rules) :
    OfKinds (inputKinds ++ ["output".toList] ++ (["rule".toList] ++ cellKinds))
      table.generatedIds :=
  table.ofKinds_columnIds.append
    (OfKinds.flatMap fun rule hr => ofKinds_rowIds table.inputs table.outputs (h.kind rule hr))

/-- **The generated ids of a table differ** if the ids of its rules are drawn apart. -/
theorem nodup_generatedIds (h : DrawnApart table.rules) : table.generatedIds.Nodup := by
  have hrows : (table.rules.flatMap (rowIds table.inputs table.outputs)).Nodup := by
    refine List.nodup_flatMap.mpr ⟨fun rule hr => ?_, ?_⟩
    · exact nodup_rowIds table.firstSeen_inputs.nodup table.firstSeen_outputs.nodup
        (h.kind rule hr)
    · exact h.apart.imp_of_mem fun hr ho hapart =>
        disjoint_rowIds (h.kind _ hr) (h.kind _ ho) hapart
  have hkinds : OfKinds (["rule".toList] ++ cellKinds)
      (table.rules.flatMap (rowIds table.inputs table.outputs)) :=
    OfKinds.flatMap fun rule hr => ofKinds_rowIds table.inputs table.outputs (h.kind rule hr)
  exact List.nodup_append'.mpr
    ⟨table.nodup_columnIds, hrows, table.ofKinds_columnIds.disjoint hkinds (by decide)⟩

/-- **But for the decision's own id, the ids of a written document differ** if the ids of its rules
are drawn apart. -/
theorem nodup_ids_but_decision (h : DrawnApart table.rules) :
    (idOf "definitions".toList table.decision.id
      :: idOf "decisionTable".toList table.decision.id :: table.generatedIds).Nodup := by
  have hkinds := ofKinds_generatedIds h
  have hdefinitions : firstPart (idOf "definitions".toList table.decision.id) = _ :=
    firstPart_idOf _ (by decide)
  have htable : firstPart (idOf "decisionTable".toList table.decision.id) = _ :=
    firstPart_idOf _ (by decide)
  refine List.nodup_cons.mpr ⟨fun hmem => ?_, List.nodup_cons.mpr ⟨fun hmem => ?_,
    nodup_generatedIds h⟩⟩
  · rcases List.mem_cons.mp hmem with heq | hmem
    · have hfirst := congrArg firstPart heq
      rw [hdefinitions, htable] at hfirst
      exact absurd hfirst (by decide)
    · exact absurd (hdefinitions ▸ hkinds _ hmem) (by decide)
  · exact absurd (htable ▸ hkinds _ hmem) (by decide)

end DecisionTable

end RuleTable
