import RuleTable.Proofs.Check.Written
import RuleTable.Proofs.Table.Ids

/-!
# What the check says about ids

The check of a document warns of each id that occurs again. In the document of a table whose rules
have ids drawn apart only the id of the decision can occur twice, once as its own and once as a
generated one. So **there is one warning or none**, and which it is hangs on the decision's id
alone.
-/

set_option autoImplicit false

namespace RuleTable

open Text Xml

/-! ## Repetitions in a list -/

/-- Among ids that differ the repetitions are those that were seen before. -/
theorem repeatedIds_eq_filter {seen : Std.HashSet Text} {ids : List Text} (h : ids.Nodup) :
    repeatedIds seen ids = ids.filter fun id => seen.contains id := by
  induction ids generalizing seen with
  | nil => rfl
  | cons first ids ih =>
      obtain ⟨hfirst, hids⟩ := List.nodup_cons.mp h
      unfold repeatedIds
      by_cases hs : seen.contains first = true
      · rw [if_pos hs, ih hids, List.filter_cons_of_pos hs]
      · -- The first id counts as seen from here on, but it does not come again.
        rw [if_neg hs, ih hids, List.filter_cons_of_neg hs]
        refine List.filter_congr fun id hid => ?_
        have hne : (first == id) = false := by simpa using ne_of_mem_of_not_mem hid hfirst |>.symm
        rw [Std.HashSet.contains_insert, hne, Bool.false_or]

/-- **One id in second place among ids that differ** is repeated if it is one of them. -/
theorem repeatedIds_second {first id : Text} {ids : List Text} (h : (first :: ids).Nodup)
    (hne : first ≠ id) : repeatedIds ∅ (first :: id :: ids) = if id ∈ ids then [id] else [] := by
  obtain ⟨hfirst, hids⟩ := List.nodup_cons.mp h
  have hstart : repeatedIds ∅ (first :: id :: ids)
      = repeatedIds (((∅ : Std.HashSet Text).insert first).insert id) ids := by
    simp [repeatedIds, hne]
  have hseen : ∀ other ∈ ids,
      ((((∅ : Std.HashSet Text).insert first).insert id).contains other) = (other == id) := by
    intro other ho
    have hother : (first == other) = false := by simpa using ne_of_mem_of_not_mem ho hfirst |>.symm
    simp [Std.HashSet.contains_insert, hother, eq_comm]
  rw [hstart, repeatedIds_eq_filter hids, List.filter_congr hseen, List.filter_beq]
  by_cases hid : id ∈ ids
  · rw [if_pos hid, List.count_eq_one_of_mem hids hid]
    rfl
  · rw [if_neg hid, List.count_eq_zero_of_not_mem hid]
    rfl

/-! ## The elements of a tree by their ids -/

/-- The names of the elements whose ids are generated: columns, rows and cells. -/
def generatedNames : List Text :=
  ["input".toList, "inputExpression".toList, "output".toList, "rule".toList, "inputEntry".toList,
    "outputEntry".toList]

namespace Element

/-- **A tree has a generated id**: it is the id of one of the columns, rows and cells in it. -/
def HasGeneratedId (root : Element) (id : Text) : Prop :=
  ∃ element ∈ root.all, element.name ∈ generatedNames ∧
    element.attribute? "id".toList = some id

/-- **The ids in a tree are distinct** but for the id of the decision, which one other element may
have, and no element but a text lacks an id. -/
structure DistinctIds (root : Element) (decisionId : Text) : Prop where
  labelled : ∀ element ∈ root.all, element.name ≠ "text".toList →
    (element.attribute? "id".toList).isSome = true
  distinct : (root.ids.erase decisionId).Nodup

/-- An element of a column, a row or a cell: it has an id, or it is a text. -/
def IsPart (element : Element) : Prop :=
  (element.name ∈ generatedNames ∧ (element.attribute? "id".toList).isSome = true) ∨
    (element.name = "text".toList ∧ element.attribute? "id".toList = none)

/-- The elements of a tree are its root and those below it. -/
theorem mem_all_iff {element other : Element} :
    other ∈ element.all ↔ other = element ∨ ∃ child ∈ element.children, other ∈ child.all := by
  obtain ⟨name, attributes, text, children⟩ := element
  rw [all, allOf_eq, List.mem_cons, List.mem_flatMap]
  rfl

end Element

open Element

/-- A text is one part. -/
theorem isPart_of_mem_textElementOf {expression : Text} {element : Element}
    (h : element ∈ (textElementOf expression).all) : element.IsPart := by
  rcases mem_all_iff.mp h with rfl | ⟨child, hc, -⟩
  · exact Or.inr ⟨rfl, rfl⟩
  · exact absurd hc List.not_mem_nil

/-- The elements of an input column are parts. -/
theorem isPart_of_mem_inputElement {column : ColumnName} {element : Element}
    (h : element ∈ (inputElement column).all) : element.IsPart := by
  have hinput : "input".toList ∈ generatedNames := by decide
  have hexpression : "inputExpression".toList ∈ generatedNames := by decide
  rcases mem_all_iff.mp h with rfl | ⟨child, hc, h⟩
  · exact Or.inl ⟨hinput, rfl⟩
  · obtain rfl := List.mem_singleton.mp hc
    rcases mem_all_iff.mp h with rfl | ⟨child, hc, h⟩
    · exact Or.inl ⟨hexpression, rfl⟩
    · obtain rfl := List.mem_singleton.mp hc
      exact isPart_of_mem_textElementOf h

/-- The element of an output column is a part. -/
theorem isPart_of_mem_outputElement {column : ColumnName} {element : Element}
    (h : element ∈ (outputElement column).all) : element.IsPart := by
  have houtput : "output".toList ∈ generatedNames := by decide
  rcases mem_all_iff.mp h with rfl | ⟨child, hc, -⟩
  · exact Or.inl ⟨houtput, rfl⟩
  · exact absurd hc List.not_mem_nil

/-- The elements of a cell are parts. -/
theorem isPart_of_mem_cellElement {kind ruleId cell : Text} {column : ColumnName}
    {element : Element} (hk : kind ∈ generatedNames)
    (h : element ∈ (cellElement kind ruleId column cell).all) : element.IsPart := by
  rcases mem_all_iff.mp h with rfl | ⟨child, hc, h⟩
  · exact Or.inl ⟨hk, rfl⟩
  · obtain rfl := List.mem_singleton.mp hc
    exact isPart_of_mem_textElementOf h

/-- The elements of a row are parts. -/
theorem isPart_of_mem_rowElement {inputs outputs : List ColumnName} {rule : Rule}
    {element : Element} (h : element ∈ (rowElement inputs outputs rule).all) :
    element.IsPart := by
  have hrule : "rule".toList ∈ generatedNames := by decide
  rcases mem_all_iff.mp h with rfl | ⟨child, hc, h⟩
  · exact Or.inl ⟨hrule, rfl⟩
  · rcases List.mem_append.mp hc with hc | hc
    · obtain ⟨column, -, rfl⟩ := List.mem_map.mp hc
      exact isPart_of_mem_cellElement (by decide) h
    · obtain ⟨column, -, rfl⟩ := List.mem_map.mp hc
      exact isPart_of_mem_cellElement (by decide) h

namespace DecisionTable

/-! ## Written documents -/

variable {table : DecisionTable}

/-- The elements of the columns, rows and cells in the document of a table. -/
def parts (table : DecisionTable) : List Element := table.body.children.flatMap all

/-- **The elements of a written document**: the root, the decision, the table, and the parts of the
table. -/
theorem all_root (table : DecisionTable) :
    table.root.all = table.root :: table.decisionElement :: table.body :: table.parts := by
  have hall : ∀ name attributes text children, (Element.mk name attributes text children).all
      = .mk name attributes text children :: children.flatMap all := by
    intro name attributes text children
    rw [all, allOf_eq]
  have hbody : table.body.all = table.body :: table.parts := hall _ _ _ _
  have hdecision : table.decisionElement.all = table.decisionElement :: table.body.all := by
    rw [← List.flatMap_singleton all table.body]
    exact hall _ _ _ _
  have hroot : table.root.all = table.root :: table.decisionElement.all := by
    rw [← List.flatMap_singleton all table.decisionElement]
    exact hall _ _ _ _
  rw [hroot, hdecision, hbody]

/-- The parts of a table are columns, rows, cells and their texts. -/
theorem isPart_of_mem_parts {element : Element} (h : element ∈ table.parts) : element.IsPart := by
  obtain ⟨child, hc, h⟩ := List.mem_flatMap.mp h
  rcases List.mem_append.mp hc with hc | hc
  · rcases List.mem_append.mp hc with hc | hc
    · obtain ⟨column, -, rfl⟩ := List.mem_map.mp hc
      exact isPart_of_mem_inputElement h
    · obtain ⟨column, -, rfl⟩ := List.mem_map.mp hc
      exact isPart_of_mem_outputElement h
  · obtain ⟨rule, -, rfl⟩ := List.mem_map.mp hc
    exact isPart_of_mem_rowElement h

/-- The ids of the parts of a table are the generated ones. -/
theorem filterMap_parts (table : DecisionTable) :
    table.parts.filterMap (·.attribute? "id".toList) = table.generatedIds := by
  have hids : table.root.all.filterMap (·.attribute? "id".toList) = _ := table.ids_root
  rw [all_root] at hids
  exact (List.cons.inj (List.cons.inj (List.cons.inj hids).2).2).2

/-- **The generated ids of a table are those of the columns, rows and cells** in its document. -/
theorem hasGeneratedId_root_iff {id : Text} :
    table.root.HasGeneratedId id ↔ id ∈ table.generatedIds := by
  rw [← table.filterMap_parts, List.mem_filterMap, HasGeneratedId, all_root]
  constructor
  · rintro ⟨element, he, hname, hid⟩
    -- The three elements around the parts have other names.
    have hroot : "definitions".toList ∉ generatedNames := by decide
    have hdecision : "decision".toList ∉ generatedNames := by decide
    have hbody : "decisionTable".toList ∉ generatedNames := by decide
    simp only [List.mem_cons] at he
    rcases he with rfl | rfl | rfl | he
    · exact absurd hname hroot
    · exact absurd hname hdecision
    · exact absurd hname hbody
    · exact ⟨element, he, hid⟩
  · rintro ⟨element, he, hid⟩
    refine ⟨element, by simp [he], ?_, hid⟩
    rcases isPart_of_mem_parts he with ⟨hname, -⟩ | ⟨-, hnone⟩
    · exact hname
    · rw [hnone] at hid
      cases hid

/-- **The ids in a written document are distinct** if the ids of its rules are drawn apart. -/
theorem distinctIds_root (h : DrawnApart table.rules) :
    table.root.DistinctIds table.decision.id := by
  constructor
  · intro element he hn
    rw [all_root] at he
    simp only [List.mem_cons] at he
    rcases he with rfl | rfl | rfl | he
    · rfl
    · rfl
    · rfl
    · rcases isPart_of_mem_parts he with ⟨-, hid⟩ | ⟨htext, -⟩
      · exact hid
      · exact absurd htext hn
  · have hne := idOf_ne_self "definitions".toList table.decision.id
    rw [table.ids_root, List.erase_cons_tail (by simpa using hne), List.erase_cons_head]
    exact nodup_ids_but_decision h

/-- **What the check of a document says about ids**: it warns of the decision's id if a column, a row
or a cell has it, and of no other id. -/
theorem checkDocument_eq_of_drawnApart (h : DrawnApart table.rules) :
    checkDocument table.document
      = { warnings := if table.decision.id ∈ table.generatedIds
            then ["duplicate id '".toList ++ table.decision.id ++ ['\'']] else [] } := by
  have hne := idOf_ne_self "definitions".toList table.decision.id
  have hne' := idOf_ne_self "decisionTable".toList table.decision.id
  have hmem : table.decision.id
      ∈ idOf "decisionTable".toList table.decision.id :: table.generatedIds
        ↔ table.decision.id ∈ table.generatedIds :=
    List.mem_cons.trans (or_iff_right hne'.symm)
  have hids : table.root.all.filterMap (·.attribute? "id".toList) = _ := table.ids_root
  rw [table.checkDocument_eq, checkIds, hids, repeatedIds_second (nodup_ids_but_decision h) hne]
  by_cases hd : table.decision.id ∈ table.generatedIds
  · rw [if_pos hd, if_pos (hmem.mpr hd)]
    rfl
  · rw [if_neg hd, if_neg (fun hm => hd (hmem.mp hm))]
    rfl

end DecisionTable

end RuleTable
