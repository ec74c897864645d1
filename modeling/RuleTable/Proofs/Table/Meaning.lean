import Mathlib.Data.List.Forall2
import RuleTable.Proofs.Table.Rows

/-!
# What a table means

A rule applies where all its conditions hold, and the first row of a table that matches applies. A
row has one cell for each column, and a rule may have several conditions on one column, of which
the row shows only the first. So a table does not mean the same as its rules in general. **The
exact condition** under which it does is that each rule is tabular: it tests no column in two ways
and sets no column to two values, and none of its conditions looks like the wildcard.
-/

set_option autoImplicit false

namespace RuleTable

open Text Xml

/-! ## The cells under the labels -/

/-- The character data directly in an element, with the blanks at its ends. -/
def Element.data : Element → Text
  | mk _ _ text _ => text

/-- What the cells of a kind in a row say, character by character. -/
def cellTexts (row : Element) (kind : Text) : List Text :=
  (row.childrenNamed kind).map fun cell => (cell.children.head?.map (·.data)).getD []

/-- The input cells of a row, each after the label of its column. -/
def testsOf (root row : Element) : List (Text × Text) :=
  (columnLabels root "input".toList).zip (cellTexts row "inputEntry".toList)

/-- The output cells of a row, each after the label of its column. -/
def resultsOf (root row : Element) : List (Text × Text) :=
  (columnLabels root "output".toList).zip (cellTexts row "outputEntry".toList)

/-! ## Meaning -/

/-- **A row keeps a rule**: under the column of each condition stands the cell of just this
condition, and under the column of each action the cell of just this action. -/
structure Keeps (root row : Element) (rule : Rule) : Prop where
  conditions : ∀ condition ∈ rule.conditions,
    (testsOf root row).lookup condition.column.chars = some (inputCell (some condition))
  actions : ∀ action ∈ rule.actions,
    (resultsOf root row).lookup action.column.chars = some (outputCell (some action.value))

/-- **The row of a rule matches** where some conditions hold: each of its cells is the wildcard or
the cell of a condition of the rule that holds, on the column it stands under. -/
def rowMatches (holds : Condition → Bool) (rule : Rule) (tests : List (Text × Text)) : Bool :=
  tests.all fun (label, cell) =>
    cell == wildcard || rule.conditions.any fun condition =>
      condition.column.chars == label && inputCell (some condition) == cell && holds condition

/-- **A document means some rules**: each row keeps its rule, and whichever conditions hold, a row
matches exactly where all conditions of its rule hold, and the first row that matches is that of
the first rule whose conditions all hold. -/
structure Means (root : Element) (rules : List Rule) : Prop where
  keeps : List.Forall₂ (fun rule row => Keeps root row rule) rules (root.allNamed "rule".toList)
  matching : ∀ holds, List.Forall₂
    (fun rule row => rowMatches holds rule (testsOf root row) = rule.conditions.all holds)
    rules (root.allNamed "rule".toList)
  first : ∀ holds, ((rules.zip (root.allNamed "rule".toList)).findIdx? fun (rule, row) =>
      rowMatches holds rule (testsOf root row))
    = rules.findIdx? fun rule => rule.conditions.all holds

/-- **A tabular rule**: its conditions on one column are all the same, none of them looks like the
wildcard, and its actions on one column all give the same cell. -/
structure Rule.IsTabular (rule : Rule) : Prop where
  conditions : ∀ first ∈ rule.conditions, ∀ second ∈ rule.conditions,
    first.column = second.column → first = second
  shown : ∀ condition ∈ rule.conditions, inputCell (some condition) ≠ wildcard
  actions : ∀ first ∈ rule.actions, ∀ second ∈ rule.actions,
    first.column = second.column → outputCell (some first.value) = outputCell (some second.value)

/-! ## The first condition on a column -/

namespace Rule

variable {rule : Rule} {column : ColumnName} {condition : Condition}

/-- What is found on a column is a condition of the rule on the column. -/
theorem of_conditionOn?_eq_some (h : rule.conditionOn? column.chars = some condition) :
    condition ∈ rule.conditions ∧ condition.column = column := by
  refine ⟨List.mem_of_find?_eq_some h, ColumnName.eq_of_chars_eq ?_⟩
  have hfound := List.find?_some h
  simpa using hfound

/-- Something is found on the column of a condition. -/
theorem exists_conditionOn? (h : condition ∈ rule.conditions) :
    ∃ first, rule.conditionOn? condition.column.chars = some first := by
  have hsome : (rule.conditionOn? condition.column.chars).isSome = true :=
    List.find?_isSome.mpr ⟨condition, h, by simp⟩
  exact Option.isSome_iff_exists.mp hsome

/-- Where nothing is found, the cell is the wildcard. -/
theorem inputCellIn_of_none (h : rule.conditionOn? column.chars = none) :
    rule.inputCellIn column = wildcard := by
  rw [inputCellIn, h]
  rfl

/-- Where a condition is found, the cell is its cell. -/
theorem inputCellIn_of_some (h : rule.conditionOn? column.chars = some condition) :
    rule.inputCellIn column = inputCell (some condition) := by
  rw [inputCellIn, h]

/-- Something is found on the column of an action. -/
theorem exists_actionOn? {action : Action} (h : action ∈ rule.actions) :
    ∃ first ∈ rule.actions, first.column = action.column ∧
      rule.outputCellIn action.column = outputCell (some first.value) := by
  have hsome : (rule.actionOn? action.column.chars).isSome = true :=
    List.find?_isSome.mpr ⟨action, h, by simp⟩
  obtain ⟨first, hfirst⟩ := Option.isSome_iff_exists.mp hsome
  have hcolumn : first.column.chars = action.column.chars := by
    simpa using List.find?_some hfirst
  refine ⟨first, List.mem_of_find?_eq_some hfirst, ColumnName.eq_of_chars_eq hcolumn, ?_⟩
  rw [outputCellIn, hfirst]
  rfl

/-- **In a tabular rule a condition is found on its column.** -/
theorem IsTabular.conditionOn?_column (ht : rule.IsTabular) (h : condition ∈ rule.conditions) :
    rule.conditionOn? condition.column.chars = some condition := by
  obtain ⟨first, hfirst⟩ := exists_conditionOn? h
  obtain ⟨hmem, hcolumn⟩ := of_conditionOn?_eq_some hfirst
  rw [hfirst, ht.conditions first hmem condition h hcolumn]

end Rule

/-! ## The cells of a written row -/

/-- What stands under a column in a list of columns and cells. -/
theorem lookup_chars {columns : List ColumnName} {column : ColumnName} (cell : ColumnName → Text)
    (h : column ∈ columns) :
    (columns.map fun other => (other.chars, cell other)).lookup column.chars
      = some (cell column) := by
  induction columns with
  | nil => exact absurd h List.not_mem_nil
  | cons first columns ih =>
      rw [List.map_cons, List.lookup_cons]
      by_cases hf : column.chars = first.chars
      · obtain rfl := ColumnName.eq_of_chars_eq hf
        rw [beq_self_eq_true]
      · rw [beq_eq_false_iff_ne.mpr hf]
        rcases List.mem_cons.mp h with rfl | h
        · exact absurd rfl hf
        · exact ih h

namespace DecisionTable

variable {table : DecisionTable} {rule : Rule}

/-- The input cells of a written row are those of its rule. -/
theorem testsOf_rowElement :
    testsOf table.root (rowElement table.inputs table.outputs rule)
      = table.inputs.map fun column => (column.chars, rule.inputCellIn column) := by
  have hcells : cellTexts (rowElement table.inputs table.outputs rule) "inputEntry".toList
      = table.inputs.map rule.inputCellIn := by
    rw [cellTexts, childrenNamed_inputEntry, List.map_map]
    rfl
  rw [testsOf, table.inputLabels_root, hcells, List.zip_map']

/-- The output cells of a written row are those of its rule. -/
theorem resultsOf_rowElement :
    resultsOf table.root (rowElement table.inputs table.outputs rule)
      = table.outputs.map fun column => (column.chars, rule.outputCellIn column) := by
  have hcells : cellTexts (rowElement table.inputs table.outputs rule) "outputEntry".toList
      = table.outputs.map rule.outputCellIn := by
    rw [cellTexts, childrenNamed_outputEntry, List.map_map]
    rfl
  rw [resultsOf, table.outputLabels_root, hcells, List.zip_map']

/-- A written row matches where, in each column, its cell is the wildcard or the cell of a condition
on the column that holds. -/
theorem rowMatches_iff (holds : Condition → Bool) :
    rowMatches holds rule (testsOf table.root (rowElement table.inputs table.outputs rule)) = true
      ↔ ∀ column ∈ table.inputs, rule.inputCellIn column = wildcard ∨
          ∃ condition ∈ rule.conditions, condition.column = column ∧
            inputCell (some condition) = rule.inputCellIn column ∧ holds condition = true := by
  rw [testsOf_rowElement, rowMatches, List.all_map, List.all_eq_true]
  refine forall_congr' fun column => imp_congr_right fun _ => ?_
  show (rule.inputCellIn column == wildcard || rule.conditions.any fun condition =>
    condition.column.chars == column.chars && inputCell (some condition) == rule.inputCellIn column
      && holds condition) = true ↔ _
  rw [Bool.or_eq_true, beq_iff_eq, List.any_eq_true]
  refine or_congr_right (exists_congr fun condition => and_congr_right fun _ => ?_)
  rw [Bool.and_eq_true, Bool.and_eq_true, beq_iff_eq, beq_iff_eq, and_assoc]
  constructor
  · rintro ⟨hcolumn, hcell, hholds⟩
    exact ⟨ColumnName.eq_of_chars_eq hcolumn, hcell, hholds⟩
  · rintro ⟨rfl, hcell, hholds⟩
    exact ⟨rfl, hcell, hholds⟩

/-! ## Tabular rules -/

/-- **The row of a tabular rule keeps the rule.** -/
theorem keeps_of_isTabular (hr : rule ∈ table.rules) (ht : rule.IsTabular) :
    Keeps table.root (rowElement table.inputs table.outputs rule) rule := by
  refine ⟨fun condition hc => ?_, fun action ha => ?_⟩
  · rw [testsOf_rowElement, lookup_chars _ (column_mem_inputs hr hc),
      Rule.inputCellIn_of_some (ht.conditionOn?_column hc)]
  · obtain ⟨first, hfirst, hcolumn, hcell⟩ := Rule.exists_actionOn? ha
    rw [resultsOf_rowElement, lookup_chars _ (column_mem_outputs hr ha), hcell,
      ht.actions first hfirst action ha hcolumn]

/-- **The row of a tabular rule matches exactly where all its conditions hold.** -/
theorem rowMatches_of_isTabular (hr : rule ∈ table.rules) (ht : rule.IsTabular)
    (holds : Condition → Bool) :
    rowMatches holds rule (testsOf table.root (rowElement table.inputs table.outputs rule))
      = rule.conditions.all holds := by
  rw [Bool.eq_iff_iff, rowMatches_iff, List.all_eq_true]
  constructor
  · intro h condition hc
    -- The cell on the column is that of the condition, the only one that can stand there.
    rcases h condition.column (column_mem_inputs hr hc) with hwild | ⟨other, ho, hcolumn, -, hholds⟩
    · rw [Rule.inputCellIn_of_some (ht.conditionOn?_column hc)] at hwild
      exact absurd hwild (ht.shown condition hc)
    · rw [← ht.conditions other ho condition hc hcolumn]
      exact hholds
  · intro h column _
    cases hfound : rule.conditionOn? column.chars with
    | none => exact Or.inl (Rule.inputCellIn_of_none hfound)
    | some condition =>
        obtain ⟨hmem, hcolumn⟩ := Rule.of_conditionOn?_eq_some hfound
        have hcell := Rule.inputCellIn_of_some hfound
        exact Or.inr ⟨condition, hmem, hcolumn, hcell.symm, h condition hmem⟩

/-! ## Rules whose rows match as they should -/

/-- **Where a condition does not show**, its row matches although the condition does not hold: if it
is not found on its column, or if its cell is the wildcard. -/
theorem rowMatches_ne {condition : Condition}
    (h : rule.conditionOn? condition.column.chars = some condition →
      inputCell (some condition) = wildcard) :
    rowMatches (fun other => decide (other ≠ condition)) rule
      (testsOf table.root (rowElement table.inputs table.outputs rule)) = true := by
  rw [rowMatches_iff]
  intro column _
  cases hfound : rule.conditionOn? column.chars with
  | none => exact Or.inl (Rule.inputCellIn_of_none hfound)
  | some first =>
      obtain ⟨hmem, hcolumn⟩ := Rule.of_conditionOn?_eq_some hfound
      have hcell := Rule.inputCellIn_of_some hfound
      by_cases hfirst : first = condition
      · -- The condition is found on its own column, so its cell is the wildcard.
        subst hfirst
        refine Or.inl ?_
        rw [hcell]
        exact h (by rw [hcolumn, hfound])
      · exact Or.inr ⟨first, hmem, hcolumn, hcell.symm, decide_eq_true hfirst⟩

/-- **A rule is tabular if its row keeps it and matches where it should.** -/
theorem isTabular_of_matching
    (hk : Keeps table.root (rowElement table.inputs table.outputs rule) rule)
    (hm : ∀ holds, rowMatches holds rule
        (testsOf table.root (rowElement table.inputs table.outputs rule))
      = rule.conditions.all holds) : rule.IsTabular := by
  -- Let all conditions hold but one: the row must not match, so it shows the one.
  have hshows : ∀ condition ∈ rule.conditions,
      rule.conditionOn? condition.column.chars = some condition ∧
        inputCell (some condition) ≠ wildcard := by
    intro condition hc
    by_contra hnot
    have hmatch : rowMatches (fun other => decide (other ≠ condition)) rule
        (testsOf table.root (rowElement table.inputs table.outputs rule)) = true :=
      rowMatches_ne fun hfound => by_contra fun hwild => hnot ⟨hfound, hwild⟩
    rw [hm, List.all_eq_true] at hmatch
    exact absurd rfl (of_decide_eq_true (hmatch condition hc))
  refine ⟨fun first hf second hs hcolumn => ?_, fun condition hc => (hshows condition hc).2,
    fun first hf second hs hcolumn => ?_⟩
  · have hfirst := (hshows first hf).1
    rw [hcolumn, (hshows second hs).1] at hfirst
    exact (Option.some.inj hfirst).symm
  · have hfirst := hk.actions first hf
    rw [hcolumn, hk.actions second hs] at hfirst
    exact (Option.some.inj hfirst).symm

/-! ## The exact condition -/

/-- The first index does not depend on how the members of a list are tested. -/
theorem findIdx?_congr {α : Type} {p q : α → Bool} {items : List α}
    (h : ∀ item ∈ items, p item = q item) : items.findIdx? p = items.findIdx? q := by
  induction items with
  | nil => rfl
  | cons item items ih =>
      rw [List.findIdx?_cons, List.findIdx?_cons, h item (by simp),
        ih fun other ho => h other (by simp [ho])]

/-- The tree of a table means its rules exactly if these are tabular. -/
theorem means_root_iff (table : DecisionTable) :
    Means table.root table.rules ↔ ∀ rule ∈ table.rules, rule.IsTabular := by
  -- The rows in the tree are made of the rules, so that relating them is a matter of each rule.
  have hrows : ∀ relates : Rule → Element → Prop,
      List.Forall₂ relates table.rules (table.root.allNamed "rule".toList)
        ↔ ∀ rule ∈ table.rules, relates rule (rowElement table.inputs table.outputs rule) := by
    intro relates
    rw [table.allNamed_rule, List.forall₂_map_right_iff, List.forall₂_same]
  constructor
  · rintro ⟨hk, hm, -⟩ rule hr
    exact isTabular_of_matching ((hrows _).mp hk rule hr)
      fun holds => (hrows _).mp (hm holds) rule hr
  · intro ht
    refine ⟨?_, fun holds => ?_, fun holds => ?_⟩
    · exact (hrows _).mpr fun rule hr => keeps_of_isTabular hr (ht rule hr)
    · exact (hrows _).mpr fun rule hr => rowMatches_of_isTabular hr (ht rule hr) holds
    · have hzip : table.rules.zip (table.root.allNamed "rule".toList)
          = table.rules.map fun rule => (rule, rowElement table.inputs table.outputs rule) := by
        calc table.rules.zip (table.root.allNamed "rule".toList)
            = (table.rules.map id).zip
                (table.rules.map (rowElement table.inputs table.outputs)) := by
              rw [table.allNamed_rule, List.map_id]
          _ = table.rules.map fun rule => (rule, rowElement table.inputs table.outputs rule) :=
              List.zip_map'
      rw [hzip, List.findIdx?_map]
      exact findIdx?_congr fun rule hr => rowMatches_of_isTabular hr (ht rule hr) holds

/-- **The document of a table means the rules of the table exactly if all of them are tabular.** -/
theorem exists_root_means_iff (table : DecisionTable) :
    ∃ root, readDocument table.document = .ok root ∧
      (Means root table.rules ↔ ∀ rule ∈ table.rules, rule.IsTabular) :=
  ⟨table.root, table.readDocument_document, table.means_root_iff⟩

/-- The column of ages. -/
def ageColumn : ColumnName := .ofText "age".toList

/-- An age above 18. -/
def overEighteen : Condition := ⟨ageColumn, .greaterThan, "18".toList⟩

/-- An age below 65. -/
def belowSixtyFive : Condition := ⟨ageColumn, .lessThan, "65".toList⟩

/-- A table of one rule with two conditions on one column. -/
def ageBand : DecisionTable :=
  ⟨{}, [⟨"r".toList, [overEighteen, belowSixtyFive], [.set "tier".toList "adult".toList], [],
    by decide, by decide⟩]⟩

/-- **A second condition on a column is lost**: the row of the rule has no cell for the age below
65, and it matches where the age is above 18. -/
theorem ageBand_not_means :
    ∃ root, readDocument ageBand.document = .ok root ∧ ¬ Means root ageBand.rules := by
  refine ⟨ageBand.root, ageBand.readDocument_document, fun h => ?_⟩
  have ht := ageBand.means_root_iff.mp h _ (List.mem_singleton.mpr rfl)
  have heq : overEighteen = belowSixtyFive :=
    ht.conditions overEighteen List.mem_cons_self belowSixtyFive
      (List.mem_cons_of_mem _ List.mem_cons_self) rfl
  -- The two conditions differ in their operators.
  exact absurd (congrArg Condition.operator heq) (by decide)

end DecisionTable

end RuleTable
