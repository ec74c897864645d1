import RuleTable.Proofs.Check.Ids
import RuleTable.Proofs.Xml.Recognition

/-!
# Valid documents

The check goes through the elements of a document and puts together what it finds. Here its errors
are said by the tree alone. **A document is valid** exactly if it can be read as the tree of a
decision: its root has the right name, there are a decision and a table at any depth, and in each
table each row has as many cells of each kind as the table has columns.
-/

set_option autoImplicit false

namespace RuleTable

open Text Xml

/-! ## Trees -/

namespace Element

/-- **A tree contains an element**: it is the root, or one of the children contains it. -/
inductive Contains : Element → Element → Prop
  | root (element : Element) : Contains element element
  | inside {element child other : Element} (hchild : child ∈ element.children)
      (h : Contains child other) : Contains element other

/-- A child is a smaller tree. -/
theorem sizeOf_lt_of_mem_children {element child : Element} (h : child ∈ element.children) :
    sizeOf child < sizeOf element := by
  obtain ⟨name, attributes, text, children⟩ := element
  have hlt : sizeOf child < sizeOf children := List.sizeOf_lt_of_mem h
  simp only [mk.sizeOf_spec]
  omega

/-- **The elements of a tree are those it contains**, at any depth. -/
theorem mem_all_iff_contains {element other : Element} :
    other ∈ element.all ↔ element.Contains other := by
  constructor
  · intro h
    induction hsize : sizeOf element using Nat.strong_induction_on generalizing element with
    | _ n ih =>
        rcases mem_all_iff.mp h with rfl | ⟨child, hchild, hbelow⟩
        · exact .root other
        · have hlt := sizeOf_lt_of_mem_children hchild
          exact .inside hchild (ih (sizeOf child) (by omega) hbelow rfl)
  · intro h
    induction h with
    | root element => exact mem_all_iff.mpr (Or.inl rfl)
    | inside hchild _ ih => exact mem_all_iff.mpr (Or.inr ⟨_, hchild, ih⟩)

/-- How many children of a name an element has. -/
def countNamed (element : Element) (key : Text) : Nat :=
  element.children.countP (·.name == key)

theorem length_childrenNamed (element : Element) (key : Text) :
    (element.childrenNamed key).length = element.countNamed key :=
  List.countP_eq_length_filter.symm

theorem mem_childrenNamed_iff {element child : Element} {key : Text} :
    child ∈ element.childrenNamed key ↔ child ∈ element.children ∧ child.name = key := by
  rw [childrenNamed, List.mem_filter, beq_iff_eq]

theorem mem_allNamed_iff {element other : Element} {key : Text} :
    other ∈ element.allNamed key ↔ element.Contains other ∧ other.name = key := by
  rw [allNamed, List.mem_filter, mem_all_iff_contains, beq_iff_eq]

/-- **A row fits its table**: it has a cell of each kind for each column of the kind. -/
structure RowFits (table row : Element) : Prop where
  inputs : row.countNamed "inputEntry".toList = table.countNamed "input".toList
  outputs : row.countNamed "outputEntry".toList = table.countNamed "output".toList

/-- **The tree of a decision**: its root has the right name, there are a decision and a table
somewhere in it, and the rows fit their tables wherever these are. -/
structure IsDecisionTree (root : Element) : Prop where
  name : root.name = "definitions".toList
  decision : ∃ element, root.Contains element ∧ element.name = "decision".toList
  table : ∃ element, root.Contains element ∧ element.name = "decisionTable".toList
  rows : ∀ table, root.Contains table → table.name = "decisionTable".toList →
    ∀ row ∈ table.children, row.name = "rule".toList → table.RowFits row

end Element

/-! ## Errors -/

namespace Report

/-- A condition is reported as an error unless it holds. -/
theorem errors_unless_error_eq_nil_iff {condition : Bool} {message : Text} :
    (Report.unless condition (.error message)).errors = [] ↔ condition = true := by
  cases condition <;> simp [Report.unless, Report.error]

/-- A warning is no error. -/
theorem errors_unless_warning {condition : Bool} {message : Text} :
    (Report.unless condition (.warning message)).errors = [] := by
  cases condition <;> rfl

end Report

open Report

theorem errors_checkRow_eq_nil_iff {table row : Element} :
    (checkRow table row).errors = [] ↔ table.RowFits row := by
  simp only [checkRow, checkCells, errors_append, List.append_eq_nil_iff,
    errors_unless_error_eq_nil_iff, beq_iff_eq, Element.length_childrenNamed]
  exact ⟨fun h => ⟨h.1, h.2⟩, fun h => ⟨h.inputs, h.outputs⟩⟩

theorem errors_checkTable_eq_nil_iff {table : Element} :
    (checkTable table).errors = []
      ↔ ∀ row ∈ table.children, row.name = "rule".toList → table.RowFits row := by
  rw [checkTable, errors_append, errors_unless_warning, List.nil_append,
    foldl_append_eq, List.flatMap_eq_nil_iff, List.forall_mem_map]
  simp only [Element.mem_childrenNamed_iff, errors_checkRow_eq_nil_iff, and_imp]

/-- Something of a name is found exactly if there is an element of the name. -/
theorem allNamed_ne_nil_iff {root : Element} {key : Text} :
    (! (root.allNamed key).isEmpty) = true
      ↔ ∃ element, root.Contains element ∧ element.name = key := by
  rw [Bool.not_eq_true', List.isEmpty_eq_false_iff_exists_mem]
  exact exists_congr fun element => Element.mem_allNamed_iff

/-- **The check of a structure finds no error** exactly in the tree of a decision. -/
theorem errors_checkStructure_eq_nil_iff {root : Element} :
    (checkStructure root).errors = [] ↔ root.IsDecisionTree := by
  rw [checkStructure]
  simp only [errors_append, List.append_eq_nil_iff, errors_unless_error_eq_nil_iff,
    errors_unless_warning, and_true, beq_iff_eq, allNamed_ne_nil_iff,
    foldl_append_eq, List.flatMap_eq_nil_iff, List.forall_mem_map, Element.mem_allNamed_iff,
    errors_checkTable_eq_nil_iff, and_imp]
  constructor
  · rintro ⟨⟨⟨hname, hdecision⟩, htable⟩, hrows⟩
    exact ⟨hname, hdecision, htable, hrows⟩
  · rintro ⟨hname, hdecision, htable, hrows⟩
    exact ⟨⟨⟨hname, hdecision⟩, htable⟩, hrows⟩

/-- A document that can be read is not blank. -/
theorem trim_ne_nil_of_readDocument {document : Text} {root : Element}
    (h : readDocument document = .ok root) : trim document ≠ [] := by
  obtain ⟨start, afterRoot, hstart, hroot, -⟩ := readDocument_eq_ok_iff.mp h
  obtain ⟨inner, name, afterName, rfl, -, -⟩ := readRoot_eq_ok_iff.mp hroot
  obtain ⟨forms, rfl⟩ := exists_of_skipMisc hstart
  intro hnil
  obtain ⟨before, after, hblank, hbefore, hafter⟩ :=
    exists_blanks_of_trim (forms.flatMap MiscForm.written ++ '<' :: inner)
  -- The bracket of the root's tag would be a blank.
  have hbracket : '<' ∈ before ++ [] ++ after := by
    rw [← hnil, ← hblank]
    exact List.mem_append_right _ List.mem_cons_self
  rw [List.append_nil] at hbracket
  rcases List.mem_append.mp hbracket with hmem | hmem
  · exact absurd (hbefore '<' hmem) (by decide)
  · exact absurd (hafter '<' hmem) (by decide)

/-- The report of a document that can be read. -/
theorem checkDocument_of_readDocument {document : Text} {root : Element}
    (h : readDocument document = .ok root) :
    checkDocument document
      = Report.unless ("<?xml".toList.isPrefixOf (trimStart document))
          (.warning "missing XML declaration".toList)
        ++ (checkStructure root ++ checkIds root) := by
  rw [checkDocument, if_neg (by simpa using trim_ne_nil_of_readDocument h), h]

/-- The report of a document that cannot be read has an error. -/
theorem errors_ne_nil_of_readDocument {document : Text} {fault : Fault}
    (h : readDocument document = .error fault) : (checkDocument document).errors ≠ [] := by
  rw [checkDocument, h]
  split
  · exact List.cons_ne_nil _ _
  · rw [errors_append, errors_unless_warning]
    exact List.cons_ne_nil _ _

/-- **A document is valid** exactly if it can be read as the tree of a decision. -/
theorem isValid_checkDocument_iff {document : Text} :
    (checkDocument document).isValid = true
      ↔ ∃ root, readDocument document = .ok root ∧ root.IsDecisionTree := by
  rw [isValid, List.isEmpty_iff]
  constructor
  · intro h
    cases hread : readDocument document with
    | error fault => exact absurd h (errors_ne_nil_of_readDocument hread)
    | ok root =>
        rw [checkDocument_of_readDocument hread, errors_append, errors_unless_warning,
          List.nil_append, errors_append, List.append_eq_nil_iff] at h
        exact ⟨root, rfl, errors_checkStructure_eq_nil_iff.mp h.1⟩
  · rintro ⟨root, hread, htree⟩
    rw [checkDocument_of_readDocument hread, errors_append, errors_unless_warning,
      List.nil_append, errors_append, errors_checkStructure_eq_nil_iff.mpr htree]
    rfl

end RuleTable
