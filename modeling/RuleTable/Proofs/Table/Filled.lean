import RuleTable.Proofs.Reading.Conjunction
import RuleTable.Proofs.Reading.Values
import RuleTable.Proofs.Table.Meaning

/-!
# Which cells are filled

A cell that says nothing is the wildcard or the word `null`, and a rule that applies everywhere shows
in a column of its own. No text that a rule says can be mistaken for any of these: **in the table of
rules that were read** a cell says nothing exactly if its rule says nothing of the column, and the
column of the condition that always holds is that of no variable.
-/

set_option autoImplicit false

namespace RuleTable

open Text Xml

/-! ## Rules that were read -/

namespace Rule

/-- **A rule was read** from some line, with some suffix to its id. -/
def IsRead (rule : Rule) : Prop := ∃ suffix line, readRule suffix line = .ok rule

/-- The form of a rule, by the line that it was read from. -/
def HasForm (rule : Rule) (form : RuleForm) : Prop :=
  ∃ rest, readForm? (trim rule.source) = some (form, rest)

/-- **A sound rule**: the variables that it tests, unless it applies everywhere, and those that it
sets have proper names, its values end with ink, and expressions stand in brackets. -/
structure IsSound (rule : Rule) : Prop where
  tested : rule.HasForm .when → ∀ condition ∈ rule.conditions, condition.column.IsProper
  set : ∀ action ∈ rule.actions, action.column.IsProper
  values : (∀ condition ∈ rule.conditions, EndsInk condition.value) ∧
    ∀ action ∈ rule.actions, EndsInk action.value
  brackets : ∀ condition ∈ rule.conditions, condition.operator = .isIn →
    ∃ inner, condition.value = ['['] ++ inner ++ [']']

variable {rule : Rule}

/-- A rule has one form only. -/
theorem HasForm.unique {form other : RuleForm} (h : rule.HasForm form) (ho : rule.HasForm other) :
    form = other := by
  obtain ⟨rest, hrest⟩ := h
  obtain ⟨rest', hrest'⟩ := ho
  exact (Prod.mk.inj (Option.some.inj (hrest.symm.trans hrest'))).1

/-- **A rule that was read has the conditions of its form**, and sound actions. -/
theorem IsRead.has (h : rule.IsRead) :
    (∃ form, rule.HasForm form ∧ form.Has rule.conditions) ∧
      ∀ action ∈ rule.actions, action.IsSound := by
  obtain ⟨suffix, line, hread⟩ := h
  obtain ⟨⟨form, rest, hform, hhas⟩, hactions⟩ := isSound_of_readRule hread
  have hsource : rule.source = line := (readRule_eq_ok_iff.mp hread).1
  exact ⟨⟨form, ⟨rest, by rw [hsource, hform]⟩, hhas⟩, hactions⟩

theorem IsRead.conditions_of_otherwise (h : rule.IsRead) (hform : rule.HasForm .otherwise) :
    rule.conditions = [.always] := by
  obtain ⟨⟨form, hform', hhas⟩, -⟩ := h.has
  obtain rfl := hform.unique hform'
  exact hhas

theorem IsRead.conditions_of_when (h : rule.IsRead) (hform : rule.HasForm .when) :
    ∀ condition ∈ rule.conditions, condition.IsSound := by
  obtain ⟨⟨form, hform', hhas⟩, -⟩ := h.has
  obtain rfl := hform.unique hform'
  exact hhas

/-- **A rule that was read is sound.** -/
theorem IsRead.isSound (h : rule.IsRead) : rule.IsSound := by
  obtain ⟨⟨form, hform, hhas⟩, hactions⟩ := h.has
  have hset : ∀ action ∈ rule.actions, action.column.IsProper := fun action ha =>
    (hactions action ha).column
  have hends : ∀ action ∈ rule.actions, EndsInk action.value := fun action ha =>
    (hactions action ha).ends
  cases form with
  | otherwise =>
      have hall : ∀ condition ∈ rule.conditions, condition = .always := by
        rw [show rule.conditions = [.always] from hhas]
        exact fun _ => List.mem_singleton.mp
      refine ⟨fun hwhen => ?_, hset, ⟨fun condition hc => ?_, hends⟩, fun condition hc hop => ?_⟩
      · cases hwhen.unique hform
      · rw [hall condition hc]
        exact isTrimmed_always.ends
      · rw [hall condition hc] at hop
        cases hop
  | when =>
      exact ⟨fun _ condition hc => (hhas condition hc).column, hset,
        ⟨fun condition hc => (hhas condition hc).ends, hends⟩,
        fun condition hc => (hhas condition hc).brackets⟩

/-- A rule that sets a value like the word for no value, and tests for one like the wildcard. -/
def nullRule : Rule :=
  ⟨"rule_0".toList, [.on "tier".toList .equals ['-']], [.set "fee".toList "null".toList],
    "If tier is -, fee is null".toList, List.cons_ne_nil _ _, List.cons_ne_nil _ _⟩

theorem always_ne_nil : [Condition.always] ≠ [] := List.cons_ne_nil _ _

/-- A rule that applies everywhere and sets a value like the wildcard. -/
def dashRule : Rule :=
  ⟨"rule_otherwise_1".toList, [.always], [.set "fee".toList ['-']],
    "Otherwise, fee is -".toList, always_ne_nil, List.cons_ne_nil _ _⟩

theorem isRead_nullRule : nullRule.IsRead := by
  have hclause : StandsAlone "tier is -".toList (.on "tier".toList .equals ['-']) :=
    ⟨by decide, by decide +kernel, by decide, by decide⟩
  have hactions : readActions "fee is null".toList
      = .ok [.set "fee".toList "null".toList] := by decide +kernel
  have hleft : trim " tier is -".toList = "tier is -".toList := by decide
  have hright : trim " fee is null".toList = "fee is null".toList := by decide
  refine ⟨"0".toList, "If tier is -, fee is null".toList, readRule_eq_ok_iff.mpr ⟨rfl, .when,
    " tier is -, fee is null".toList, by decide, rfl, " tier is -".toList, " fee is null".toList,
    by decide, ?_, ?_⟩⟩
  · rw [hleft]
    exact hclause.readConditions_eq
  · rw [hright]
    exact hactions

theorem isRead_dashRule : dashRule.IsRead := by
  have hactions : readActions "fee is -".toList = .ok [.set "fee".toList ['-']] := by decide +kernel
  exact ⟨"1".toList, "Otherwise, fee is -".toList, readRule_eq_ok_iff.mpr ⟨rfl, .otherwise,
    ", fee is -".toList, by decide, rfl, rfl, "fee is -".toList, by decide, hactions⟩⟩

end Rule

/-! ## Cells that say something -/

/-- A word that is neither a literal nor in quotes is not how any value is written. -/
theorem render_ofText_ne {word : Text} (hliteral : CellValue.readsAsLiteral word = false)
    (hquote : word.head? ≠ some '"') (value : Text) : (CellValue.ofText value).render ≠ word := by
  intro hrender
  by_cases hvalue : CellValue.readsAsLiteral value = true
  · rw [CellValue.ofText, if_pos hvalue] at hrender
    rw [show value = word from hrender, hliteral] at hvalue
    cases hvalue
  · rw [CellValue.ofText, if_neg hvalue] at hrender
    rw [← hrender] at hquote
    exact hquote rfl

/-- **The cell of a condition is not the wildcard**, whatever its value is. -/
theorem inputCell_ne_wildcard {condition : Condition}
    (h : condition.operator = .isIn → ∃ inner, condition.value = ['['] ++ inner ++ [']']) :
    inputCell (some condition) ≠ wildcard := by
  obtain ⟨column, operator, value⟩ := condition
  intro hcell
  cases operator with
  | isIn =>
      obtain ⟨inner, hinner⟩ := h rfl
      have hvalue : value = ['-'] := hcell
      rw [show value = _ from hinner] at hvalue
      cases hvalue
  | equals =>
      exact render_ofText_ne (by decide) (by decide) value hcell
  | contains => cases hcell
  | notEquals => cases hcell
  | greaterThan => cases hcell
  | lessThan => cases hcell
  | greaterOrEqual => cases hcell
  | lessOrEqual => cases hcell

/-- **The cell of a value is not the word for no value**, even if that is the value. -/
theorem outputCell_ne_noOutput (value : Text) : outputCell (some value) ≠ noOutput :=
  render_ofText_ne (by decide) (by decide) value

namespace Rule

variable {rule : Rule} {column : ColumnName}

/-- A cell is the wildcard exactly if the rule has no condition on the column. -/
theorem IsSound.inputCellIn_eq_wildcard_iff (h : rule.IsSound) :
    rule.inputCellIn column = wildcard
      ↔ ∀ condition ∈ rule.conditions, condition.column.chars ≠ column.chars := by
  constructor
  · intro hcell condition hc hcolumn
    obtain ⟨first, hfirst⟩ := exists_conditionOn? hc
    rw [hcolumn] at hfirst
    obtain ⟨hmem, -⟩ := of_conditionOn?_eq_some hfirst
    rw [inputCellIn_of_some hfirst] at hcell
    exact inputCell_ne_wildcard (h.brackets first hmem) hcell
  · intro hnone
    refine inputCellIn_of_none (List.find?_eq_none.mpr fun condition hc => ?_)
    simpa using hnone condition hc

/-- A cell is the word for no value exactly if the rule has no action on the column. -/
theorem outputCellIn_eq_noOutput_iff :
    rule.outputCellIn column = noOutput
      ↔ ∀ action ∈ rule.actions, action.column.chars ≠ column.chars := by
  rw [outputCellIn]
  constructor
  · intro hcell action ha hcolumn
    cases hfound : rule.actionOn? column.chars with
    | none =>
        have hnone := List.find?_eq_none.mp hfound action ha
        simp [hcolumn] at hnone
    | some first =>
        rw [hfound] at hcell
        exact outputCell_ne_noOutput first.value hcell
  · intro hnone
    have hfound : rule.actionOn? column.chars = none :=
      List.find?_eq_none.mpr fun action ha => by simpa using hnone action ha
    rw [hfound]
    rfl

end Rule

/-! ## Rows -/

/-- The label of the column of the condition that always holds. -/
theorem chars_always : Condition.always.column.chars = ['1'] := by
  decide

/-- No variable has this label. -/
theorem ColumnName.IsProper.ne_always {column : ColumnName} (h : column.IsProper) :
    column.chars ≠ ['1'] := by
  obtain ⟨c, rest, hchars, hfirst, -⟩ := h
  rw [hchars]
  rintro heq
  obtain ⟨rfl, -⟩ := List.cons.inj heq
  cases hfirst

/-- **A row is filled as its rule says**: it has a cell under each label; one under a label that the
rule does not mention says nothing, and all others say something. A rule that applies everywhere shows
under its own label and nowhere else, and other rules do not show there. -/
structure FillsRow (root row : Element) (rule : Rule) : Prop where
  inputs : (testsOf root row).map Prod.fst = columnLabels root "input".toList
  outputs : (resultsOf root row).map Prod.fst = columnLabels root "output".toList
  tests : ∀ label cell, (label, cell) ∈ testsOf root row →
    (cell = wildcard ↔ ∀ condition ∈ rule.conditions, condition.column.chars ≠ label)
  results : ∀ label cell, (label, cell) ∈ resultsOf root row →
    (cell = noOutput ↔ ∀ action ∈ rule.actions, action.column.chars ≠ label)
  otherwise : rule.HasForm .otherwise → (['1'], ['1']) ∈ testsOf root row ∧
    ∀ label cell, (label, cell) ∈ testsOf root row →
      cell = if label = ['1'] then ['1'] else wildcard
  when : rule.HasForm .when → ∀ cell, (['1'], cell) ∈ testsOf root row → cell = wildcard

namespace DecisionTable

variable {table : DecisionTable} {rule : Rule}

theorem mem_testsOf_iff {label cell : Text} :
    (label, cell) ∈ testsOf table.root (rowElement table.inputs table.outputs rule)
      ↔ ∃ column ∈ table.inputs, column.chars = label ∧ rule.inputCellIn column = cell := by
  rw [testsOf_rowElement, List.mem_map]
  simp only [Prod.mk.injEq]

theorem mem_resultsOf_iff {label cell : Text} :
    (label, cell) ∈ resultsOf table.root (rowElement table.inputs table.outputs rule)
      ↔ ∃ column ∈ table.outputs, column.chars = label ∧ rule.outputCellIn column = cell := by
  rw [resultsOf_rowElement, List.mem_map]
  simp only [Prod.mk.injEq]

/-- **The cells of a rule that applies everywhere.** -/
theorem inputCellIn_of_always (h : rule.conditions = [.always]) (column : ColumnName) :
    rule.inputCellIn column = if column.chars = ['1'] then ['1'] else wildcard := by
  rw [Rule.inputCellIn, Rule.conditionOn?, h]
  by_cases hcolumn : column.chars = ['1']
  · rw [if_pos hcolumn, hcolumn, List.find?_cons_of_pos (by decide)]
    decide
  · rw [if_neg hcolumn, List.find?_cons_of_neg (by simpa [chars_always] using Ne.symm hcolumn)]
    rfl

/-- **The row of a rule that was read is filled as the rule says.** -/
theorem fillsRow_rowElement (hr : rule ∈ table.rules) (h : rule.IsRead) :
    FillsRow table.root (rowElement table.inputs table.outputs rule) rule where
  inputs := by
    rw [testsOf_rowElement, table.inputLabels_root, List.map_map]
    rfl
  outputs := by
    rw [resultsOf_rowElement, table.outputLabels_root, List.map_map]
    rfl
  tests := by
    intro label cell hmem
    obtain ⟨column, -, rfl, rfl⟩ := mem_testsOf_iff.mp hmem
    exact h.isSound.inputCellIn_eq_wildcard_iff
  results := by
    intro label cell hmem
    obtain ⟨column, -, rfl, rfl⟩ := mem_resultsOf_iff.mp hmem
    exact Rule.outputCellIn_eq_noOutput_iff
  otherwise := by
    intro hform
    have hconditions := h.conditions_of_otherwise hform
    have hcolumn : Condition.always.column ∈ table.inputs :=
      column_mem_inputs hr (by rw [hconditions]; exact List.mem_singleton.mpr rfl)
    constructor
    · refine mem_testsOf_iff.mpr ⟨Condition.always.column, hcolumn, chars_always, ?_⟩
      rw [inputCellIn_of_always hconditions, if_pos chars_always]
    · intro label cell hmem
      obtain ⟨column, -, rfl, rfl⟩ := mem_testsOf_iff.mp hmem
      exact inputCellIn_of_always hconditions column
  when := by
    intro hform cell hmem
    obtain ⟨column, -, hlabel, rfl⟩ := mem_testsOf_iff.mp hmem
    refine h.isSound.inputCellIn_eq_wildcard_iff.mpr fun condition hc => ?_
    rw [hlabel]
    exact (h.conditions_of_when hform condition hc).column.ne_always

/-- **In the document of a table of rules that were read** the rules are sound, and each row is filled
as its rule says. -/
theorem exists_root_fillsRow (table : DecisionTable) (h : ∀ rule ∈ table.rules, rule.IsRead) :
    (∀ rule ∈ table.rules, rule.IsSound) ∧
      ∃ root, readDocument table.document = .ok root ∧
        List.Forall₂ (fun rule row => FillsRow root row rule) table.rules
          (root.allNamed "rule".toList) := by
  refine ⟨fun rule hr => (h rule hr).isSound, table.root, table.readDocument_document, ?_⟩
  rw [table.allNamed_rule, List.forall₂_map_right_iff, List.forall₂_same]
  exact fun rule hr => fillsRow_rowElement hr (h rule hr)

/-- A table of two rules whose values look like the cells that say nothing. -/
theorem fillsRow_lookalikes :
    (∀ rule ∈ [Rule.nullRule, Rule.dashRule], rule.IsRead) ∧
      (∀ rule ∈ [Rule.nullRule, Rule.dashRule], rule.IsSound) ∧
      ∃ root, readDocument (DecisionTable.mk {} [Rule.nullRule, Rule.dashRule]).document = .ok root ∧
        List.Forall₂ (fun rule row => FillsRow root row rule) [Rule.nullRule, Rule.dashRule]
          (root.allNamed "rule".toList) := by
  have hread : ∀ rule ∈ [Rule.nullRule, Rule.dashRule], rule.IsRead := by
    intro rule hr
    rcases List.mem_pair.mp hr with rfl | rfl
    · exact Rule.isRead_nullRule
    · exact Rule.isRead_dashRule
  exact ⟨hread, exists_root_fillsRow ⟨{}, [Rule.nullRule, Rule.dashRule]⟩ hread⟩

end DecisionTable

end RuleTable
