import RuleTable.Check.Document
import RuleTable.Proofs.Table.Parts
import RuleTable.Proofs.Text.Trim

/-!
# The check of a written document

Writing and checking documents do not share any code, and yet **the document of every table passes
its check**: the check reads it, finds the root, the decision and the table, and counts as many
cells in each row as there are columns. The only warnings are those of ids that repeat, which a
table cannot exclude because the ids of its rules may be any texts.
-/

set_option autoImplicit false

namespace RuleTable

open Text Xml

/-! ## Reports -/

namespace Report

/-- The empty report adds nothing. -/
theorem empty_append (report : Report) : ({} : Report) ++ report = report := rfl

theorem errors_append (first second : Report) :
    (first ++ second).errors = first.errors ++ second.errors := rfl

theorem warnings_append (first second : Report) :
    (first ++ second).warnings = first.warnings ++ second.warnings := rfl

/-- **What several parts found**: all of their errors and all of their warnings. -/
theorem foldl_append_eq (reports : List Report) :
    reports.foldl (· ++ ·) ({} : Report)
      = ⟨reports.flatMap (·.errors), reports.flatMap (·.warnings)⟩ := by
  have hstart : ∀ start : Report, reports.foldl (· ++ ·) start
      = ⟨start.errors ++ reports.flatMap (·.errors),
          start.warnings ++ reports.flatMap (·.warnings)⟩ := by
    induction reports with
    | nil =>
        intro start
        simp
    | cons report reports ih =>
        intro start
        rw [List.foldl_cons, ih, errors_append, warnings_append, List.flatMap_cons,
          List.flatMap_cons, List.append_assoc, List.append_assoc]
  exact hstart {}

/-- **Nothing found in each of the parts is nothing found.** -/
theorem foldl_append_eq_empty {reports : List Report} (h : ∀ report ∈ reports, report = {}) :
    reports.foldl (· ++ ·) {} = ({} : Report) := by
  have herrors : reports.flatMap (·.errors) = [] :=
    List.flatMap_eq_nil_iff.mpr fun report hr => by rw [h report hr]
  have hwarnings : reports.flatMap (·.warnings) = [] :=
    List.flatMap_eq_nil_iff.mpr fun report hr => by rw [h report hr]
  rw [foldl_append_eq, herrors, hwarnings]

/-- A condition that holds is not reported. -/
theorem unless_of_true {condition : Bool} (report : Report) (h : condition = true) :
    Report.unless condition report = {} := by
  rw [Report.unless, if_pos h]

end Report

/-! ## Ids that repeat -/

/-- **The repetitions in a list of ids** are the ids in it that were seen before or that it has
more than once. -/
theorem mem_repeatedIds {seen : Std.HashSet Text} {ids : List Text} {id : Text} :
    id ∈ repeatedIds seen ids ↔ (id ∈ seen ∧ id ∈ ids) ∨ 2 ≤ ids.count id := by
  induction ids generalizing seen with
  | nil => simp [repeatedIds]
  | cons first ids ih =>
      have hpos : id ∈ ids ↔ 0 < ids.count id := List.count_pos_iff.symm
      unfold repeatedIds
      by_cases hs : seen.contains first = true
      · -- The first id is a repetition, and the ids seen stay the same.
        have hseen : first ∈ seen := Std.HashSet.mem_iff_contains.mpr hs
        rw [if_pos hs, List.mem_cons, ih]
        by_cases hf : id = first
        · subst hf
          simp [hseen]
        · rw [List.count_cons_of_ne (Ne.symm hf)]
          simp [hf]
      · -- The first id counts as seen from here on.
        have hseen : first ∉ seen := fun h => hs (Std.HashSet.mem_iff_contains.mp h)
        rw [if_neg hs, ih, Std.HashSet.mem_insert]
        by_cases hf : id = first
        · subst hf
          simp only [beq_self_eq_true, true_or, true_and, hseen, false_and, false_or, hpos,
            List.count_cons_self]
          omega
        · rw [List.count_cons_of_ne (Ne.symm hf)]
          simp [hf, Ne.symm hf]

/-! ## The structure of a written document -/

/-- As many cells as columns are no error. -/
theorem checkCells_self (row : Element) (kind : Text) (columns : Nat) :
    checkCells row kind columns columns = {} :=
  Report.unless_of_true _ (beq_self_eq_true columns)

/-- **A row has as many cells as the table has columns**, of both kinds. -/
theorem checkRow_rowElement (table : DecisionTable) (rule : Rule) :
    checkRow table.body (rowElement table.inputs table.outputs rule) = {} := by
  have hinputs : (table.body.childrenNamed "input".toList).length = table.inputs.length := by
    rw [table.childrenNamed_input, List.length_map]
  have houtputs : (table.body.childrenNamed "output".toList).length = table.outputs.length := by
    rw [table.childrenNamed_output, List.length_map]
  have htests : ((rowElement table.inputs table.outputs rule).childrenNamed
      "inputEntry".toList).length = table.inputs.length := by
    rw [childrenNamed_inputEntry, List.length_map]
  have hresults : ((rowElement table.inputs table.outputs rule).childrenNamed
      "outputEntry".toList).length = table.outputs.length := by
    rw [childrenNamed_outputEntry, List.length_map]
  unfold checkRow
  rw [hinputs, houtputs, htests, hresults, checkCells_self, checkCells_self]
  rfl

namespace DecisionTable

/-- Nothing is wrong with a written table. -/
theorem checkTable_body (table : DecisionTable) : checkTable table.body = {} := by
  have hrows : ∀ report ∈ (table.body.childrenNamed "rule".toList).map (checkRow table.body),
      report = {} := by
    intro report hr
    obtain ⟨row, hrow, rfl⟩ := List.mem_map.mp hr
    rw [table.childrenNamed_rule] at hrow
    obtain ⟨rule, -, rfl⟩ := List.mem_map.mp hrow
    exact checkRow_rowElement table rule
  have hpolicy : (table.body.attribute? "hitPolicy".toList).isSome = true := rfl
  unfold checkTable
  rw [Report.unless_of_true _ hpolicy, Report.foldl_append_eq_empty hrows]
  rfl

/-- **Nothing is wrong with the structure of a written document.** -/
theorem checkStructure_root (table : DecisionTable) : checkStructure table.root = {} := by
  have hname : (table.root.name == "definitions".toList) = true := beq_self_eq_true _
  have hattribute : table.root.attribute? "xmlns".toList = some modelNamespace := rfl
  have hspace : hasModelNamespace table.root = true := by
    rw [hasModelNamespace, hattribute, Option.any_some]
    decide
  unfold checkStructure
  rw [table.allNamed_decision, table.allNamed_decisionTable, List.map_singleton,
    table.checkTable_body, Report.unless_of_true _ hname, Report.unless_of_true _ hspace]
  rfl

/-- A document starts with its declaration, and no blank stands before it. -/
theorem trimStart_document (table : DecisionTable) :
    trimStart table.document = table.document ∧
      "<?xml".toList.isPrefixOf table.document = true := by
  obtain ⟨rest, hrest⟩ : ∃ rest, table.document = "<?xml".toList ++ rest :=
    ⟨_, table.document_eq⟩
  rw [hrest]
  refine ⟨List.dropWhile_cons_of_neg (by decide), ?_⟩
  exact List.isPrefixOf_iff_prefix.mpr (List.prefix_append _ _)

/-- A document is not blank. -/
theorem trim_document_ne_nil (table : DecisionTable) : trim table.document ≠ [] := by
  have hink : StartsInk table.document :=
    ⟨'<', _, table.document_eq, by decide⟩
  obtain ⟨c, rest, hr, -⟩ : StartsInk (trim table.document) := by
    rw [trim, table.trimStart_document.1]
    exact hink.trimEnd
  rw [hr]
  exact List.cons_ne_nil c rest

/-- **What the check of a written document reports**: the ids that repeat in its tree. -/
theorem checkDocument_eq (table : DecisionTable) :
    checkDocument table.document = checkIds table.root := by
  have hblank : (trim table.document).isEmpty = false := by
    simpa using table.trim_document_ne_nil
  unfold checkDocument
  rw [hblank, if_neg Bool.false_ne_true, table.trimStart_document.1,
    Report.unless_of_true _ table.trimStart_document.2, table.readDocument_document,
    Report.empty_append]
  show checkStructure table.root ++ checkIds table.root = _
  rw [table.checkStructure_root, Report.empty_append]

/-- **The document of a table passes its check**: there are no errors, and each warning is about an
id that more than one element of the document has. -/
theorem checkDocument_document (table : DecisionTable) :
    (checkDocument table.document).errors = [] ∧
      ∀ warning ∈ (checkDocument table.document).warnings, ∃ root id,
        readDocument table.document = .ok root ∧
          2 ≤ (root.all.filterMap (·.attribute? "id".toList)).count id ∧
          warning = "duplicate id '".toList ++ id ++ ['\''] := by
  rw [table.checkDocument_eq]
  refine ⟨rfl, fun warning hw => ?_⟩
  obtain ⟨id, hid, rfl⟩ := List.mem_map.mp hw
  rcases mem_repeatedIds.mp hid with ⟨hseen, -⟩ | hcount
  · exact absurd hseen Std.HashSet.not_mem_empty
  · exact ⟨table.root, id, table.readDocument_document, hcount, rfl⟩

end DecisionTable

end RuleTable
