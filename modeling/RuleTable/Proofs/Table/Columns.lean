import Mathlib.Data.List.Basic
import RuleTable.Table.Basic

/-!
# The order of columns

A table has one column for each name that its rules mention, and the columns stand in the order in
which the rules first mention them. **`FirstSeen`** says this without the function that removes
the repetitions, and the columns of a table have it.
-/

set_option autoImplicit false

namespace RuleTable

/-- Columns are told apart by their characters. -/
theorem ColumnName.eq_of_chars_eq {first second : ColumnName} (h : first.chars = second.chars) :
    first = second := by
  obtain ⟨chars, plain⟩ := first
  obtain ⟨chars', plain'⟩ := second
  cases h
  rfl

/-! ## Columns in the order of first mention -/

/-- **Columns in the order of first mention**: each mentioned name is one column, no name is two
columns, and of two columns the one mentioned first stands first. -/
structure FirstSeen (columns mentions : List ColumnName) : Prop where
  mem_iff : ∀ column, column ∈ columns ↔ column ∈ mentions
  nodup : columns.Nodup
  ordered : columns.Pairwise fun first second => mentions.idxOf first < mentions.idxOf second

/-- What is mentioned earlier in a part without `column` is mentioned earlier in the whole that
starts with `column`. -/
theorem idxOf_cons_lt_of_filter {column first second : ColumnName} {mentions : List ColumnName}
    (hf : first ≠ column) (hs : second ≠ column)
    (h : (mentions.filter fun other => !other == column).idxOf first
      < (mentions.filter fun other => !other == column).idxOf second) :
    (column :: mentions).idxOf first < (column :: mentions).idxOf second := by
  -- Mentions of `column` count on neither side, so the first other mention decides.
  have hmono : mentions.idxOf first < mentions.idxOf second := by
    induction mentions with
    | nil => simp at h
    | cons mention mentions ih =>
        by_cases hm : mention = column
        · subst hm
          rw [List.filter_cons_of_neg (by simp)] at h
          rw [List.idxOf_cons_ne _ (Ne.symm hf), List.idxOf_cons_ne _ (Ne.symm hs)]
          exact Nat.succ_lt_succ (ih h)
        · rw [List.filter_cons_of_pos (by simpa using hm)] at h
          by_cases hmf : mention = first
          · subst hmf
            by_cases hms : mention = second
            · subst hms
              exact absurd h (Nat.lt_irrefl _)
            · rw [List.idxOf_cons_self, List.idxOf_cons_ne _ hms]
              exact Nat.succ_pos _
          · by_cases hms : mention = second
            · subst hms
              rw [List.idxOf_cons_self] at h
              exact absurd h (Nat.not_lt_zero _)
            · rw [List.idxOf_cons_ne _ hmf, List.idxOf_cons_ne _ hms] at h
              rw [List.idxOf_cons_ne _ hmf, List.idxOf_cons_ne _ hms]
              exact Nat.succ_lt_succ (ih (Nat.lt_of_succ_lt_succ h))
  rw [List.idxOf_cons_ne _ (Ne.symm hf), List.idxOf_cons_ne _ (Ne.symm hs)]
  exact Nat.succ_lt_succ hmono

/-- **Removing repetitions leaves the names in the order of first mention.** -/
theorem firstSeen_eraseDups (mentions : List ColumnName) :
    FirstSeen mentions.eraseDups mentions := by
  cases mentions with
  | nil => exact ⟨by simp, by simp, by simp⟩
  | cons column mentions =>
      -- What remains after the first name is no tail of the list, hence the induction on length.
      have hrest := firstSeen_eraseDups (mentions.filter fun other => !other == column)
      have hne : ∀ other ∈ (mentions.filter fun other => !other == column).eraseDups,
          other ≠ column := by
        intro other hother
        have := (List.mem_filter.mp ((hrest.mem_iff other).mp hother)).2
        simpa using this
      refine ⟨fun other => List.mem_eraseDups, ?_, ?_⟩
      · rw [List.eraseDups_cons]
        exact List.nodup_cons.mpr ⟨fun h => hne column h rfl, hrest.nodup⟩
      · rw [List.eraseDups_cons]
        refine List.pairwise_cons.mpr ⟨fun other hother => ?_, ?_⟩
        · rw [List.idxOf_cons_self, List.idxOf_cons_ne _ (Ne.symm (hne other hother))]
          exact Nat.succ_pos _
        · exact hrest.ordered.imp_of_mem fun hf hs h =>
            idxOf_cons_lt_of_filter (hne _ hf) (hne _ hs) h
termination_by mentions.length
decreasing_by
  exact Nat.lt_succ_of_le (List.length_filter_le _ _)

namespace DecisionTable

/-! ## The columns of a table -/

/-- **The input columns are the names that conditions test**, in the order of first mention. -/
theorem firstSeen_inputs (table : DecisionTable) :
    FirstSeen table.inputs (table.rules.flatMap fun rule => rule.conditions.map (·.column)) :=
  firstSeen_eraseDups _

/-- **The output columns are the names that actions set**, in the order of first mention. -/
theorem firstSeen_outputs (table : DecisionTable) :
    FirstSeen table.outputs (table.rules.flatMap fun rule => rule.actions.map (·.column)) :=
  firstSeen_eraseDups _

/-- The column of a condition is an input column of the table. -/
theorem column_mem_inputs {table : DecisionTable} {rule : Rule} {condition : Condition}
    (hr : rule ∈ table.rules) (hc : condition ∈ rule.conditions) :
    condition.column ∈ table.inputs :=
  (table.firstSeen_inputs.mem_iff _).mpr
    (List.mem_flatMap.mpr ⟨rule, hr, List.mem_map.mpr ⟨condition, hc, rfl⟩⟩)

/-- The column of an action is an output column of the table. -/
theorem column_mem_outputs {table : DecisionTable} {rule : Rule} {action : Action}
    (hr : rule ∈ table.rules) (ha : action ∈ rule.actions) :
    action.column ∈ table.outputs :=
  (table.firstSeen_outputs.mem_iff _).mpr
    (List.mem_flatMap.mpr ⟨rule, hr, List.mem_map.mpr ⟨action, ha, rfl⟩⟩)

end DecisionTable

end RuleTable
