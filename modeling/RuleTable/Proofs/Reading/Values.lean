import RuleTable.Proofs.Reading.Pieces
import RuleTable.Proofs.Reading.Rules
import RuleTable.Proofs.Reading.Shapes
import RuleTable.Proofs.Table.Cells
import RuleTable.Reading.RuleText

/-!
# The values of rules that are read

What is known of the columns and values of a rule only because it was read from a line. **A sound
condition** has a name on its left that is not empty and starts with no digit, and a value that ends
with ink, in brackets where it is an expression; a sound action likewise. All of it is seen in the ways
in which a clause can be taken apart, since clauses are trimmed. Sound rules are trimmed.
-/

set_option autoImplicit false

namespace RuleTable

open Text

/-! ## Names of columns -/

/-- **A proper name of a column**: a small letter or `_`, and then small letters, digits and `_`. -/
def ColumnName.IsProper (column : ColumnName) : Prop :=
  ∃ c rest, column.chars = c :: rest ∧ (c.isLower || c == '_') = true ∧
    ∀ d ∈ rest, isColumnChar d = true

/-- A letter in lower case is a small letter. -/
theorem isLower_toLower {c : Char} (h : c.isAlpha = true) : c.toLower.isLower = true := by
  have hnat : 97 ≤ c.toLower.toNat ∧ c.toLower.toNat ≤ 122 := by
    rw [toNat_toLower]
    rw [isAlpha_iff] at h
    split <;> omega
  show (decide ('a'.val ≤ c.toLower.val) && decide (c.toLower.val ≤ 'z'.val)) = true
  rw [Bool.and_eq_true, decide_eq_true_eq, decide_eq_true_eq]
  exact hnat

/-- **A variable has a proper name for its column.** -/
theorem isProper_ofText {text : Text} (h : isVariable text = true) :
    (ColumnName.ofText text).IsProper := by
  cases text with
  | nil => cases h
  | cons c text =>
      rw [isVariable, Bool.and_eq_true, Bool.or_eq_true, beq_iff_eq] at h
      obtain ⟨hfirst, -⟩ := h
      have hink : isBlank c = false := by
        rcases hfirst with halpha | rfl
        · exact isBlank_of_isAlpha halpha
        · decide
      -- The first character is not trimmed, and its lower case is kept.
      obtain ⟨rest, hrest⟩ : [c] <+: trimEnd (c :: text) :=
        EndsInk.startsText_trimEnd ⟨[], c, rfl, hink⟩ ⟨text, rfl⟩
      have htrim : trim (c :: text) = c :: rest := by
        rw [trim, trimStart, List.dropWhile_cons_of_neg (by simp [hink]), ← hrest,
          List.singleton_append]
      have hlower : lowerCase c = [c.toLower] := by
        rw [lowerCase, if_pos]
        rcases hfirst with halpha | rfl
        · exact toNat_lt_of_isAlpha halpha
        · decide
      have hcolumn : (c.toLower.isLower || c.toLower == '_') = true := by
        rcases hfirst with halpha | rfl
        · rw [isLower_toLower halpha, Bool.true_or]
        · decide
      have hkept : isColumnChar c.toLower = true := by
        rw [isColumnChar, Bool.or_right_comm, hcolumn, Bool.true_or]
      refine ⟨c.toLower, ColumnName.squeeze false rest, ?_, hcolumn,
        fun _ => ColumnName.isColumnChar_of_mem_squeeze⟩
      show ColumnName.squeeze false (trim (c :: text)) = _
      rw [htrim, ColumnName.squeeze, if_neg (by simp [hink]), hlower,
        List.filter_singleton, hkept]
      rfl

/-! ## Conditions -/

/-- **A sound condition**: its column has a proper name, its value ends with ink, and the value of
`isIn` stands in brackets. -/
structure Condition.IsSound (condition : Condition) : Prop where
  column : condition.column.IsProper
  ends : EndsInk condition.value
  brackets : condition.operator = .isIn → ∃ inner, condition.value = ['['] ++ inner ++ [']']

/-- A sound condition is trimmed. -/
theorem Condition.IsSound.isTrimmed {condition : Condition} (h : condition.IsSound) :
    condition.IsTrimmed := by
  refine ⟨h.ends, fun hop => ?_⟩
  obtain ⟨inner, hinner⟩ := h.brackets hop
  rw [hinner]
  exact (ink_of_enclosed inner (by decide) (by decide)).1

/-- A condition whose value is an expression in brackets is sound. -/
theorem isSound_of_brackets {left inner : Text} {operator : Operator}
    (h : isVariable left = true) :
    (Condition.on left operator (['['] ++ inner ++ [']'])).IsSound :=
  ⟨isProper_ofText h, (ink_of_enclosed inner (by decide) (by decide)).2, fun _ => ⟨inner, rfl⟩⟩

/-- **A trimmed clause comes to a sound condition**, in whatever way it is taken apart. -/
theorem Decomposes.isSound {clause left : Text} {shape : Shape} {condition : Condition}
    (h : Decomposes clause shape left condition) (htrim : trim clause = clause) :
    condition.IsSound := by
  cases h with
  | @range left low _ _ _ high hsplits =>
      have hsound : (Condition.on left .isIn
          (['['] ++ (low ++ "..".toList ++ high) ++ [']'])).IsSound :=
        isSound_of_brackets hsplits.isVariable
      simpa only [List.append_assoc] using hsound
  | list hsplits => exact isSound_of_brackets hsplits.isVariable
  | containment hsplits hvalue =>
      exact ⟨isProper_ofText hsplits.isVariable, hvalue.endsInk (hsplits.endsInk htrim),
        fun hop => by cases hop⟩
  | equality hsplits =>
      exact ⟨isProper_ofText hsplits.isVariable, hsplits.endsInk htrim, fun hop => by cases hop⟩
  | @comparison front text gap value operator hclause _ hvariable hsign _ _ hne =>
      have hsuffix : value <:+ clause := by
        rw [hclause, hsign.2.1]
        exact ((List.suffix_append gap value).trans (List.suffix_append _ _)).trans
          (List.suffix_append front _)
      have hclause' : clause ≠ [] := by
        rintro rfl
        exact hne (List.suffix_nil.mp hsuffix)
      exact ⟨isProper_ofText hvariable,
        (endsInk_of_trim_eq htrim hclause').of_suffix hsuffix hne,
        fun hop => absurd hop hsign.1.2⟩

/-- **The condition of a trimmed clause is sound**, whatever its shape. -/
theorem isSound_of_readCondition {clause : Text} {condition : Condition}
    (htrim : trim clause = clause) (h : readCondition clause = .ok condition) :
    condition.IsSound := by
  obtain ⟨shape, hread⟩ := exists_read?_of_readCondition h
  obtain ⟨left, hlongest⟩ := (read?_eq_some_iff htrim).mp hread
  exact hlongest.decomposes.isSound htrim

/-! ## Actions -/

/-- **A sound action**: its column has a proper name, and its value ends with ink. -/
structure Action.IsSound (action : Action) : Prop where
  column : action.column.IsProper
  ends : EndsInk action.value

/-- **The action of a clause is sound**: the clause is trimmed again behind its full stop. -/
theorem isSound_of_readAction {clause : Text} {action : Action} (h : readAction clause = .ok action) :
    action.IsSound := by
  simp only [readAction] at h
  split at h
  · next variableName value hread =>
      obtain rfl : Action.set variableName value = action := by simpa using h
      obtain ⟨cut, ⟨w, heq, -, -, hafter⟩, hvariable, rfl, hvalue⟩ := exists_cut_of_readCut? hread
      obtain ⟨rfl, hne⟩ := someText?_eq_some_iff.mp hvalue
      have hclause : trimEnd (dropFullStop clause) ≠ [] := by
        obtain ⟨b, more, hmore, -⟩ := startsBlank_iff.mp hafter
        rw [heq, hmore]
        simp
      have hsuffix : cut.right <:+ trimEnd (dropFullStop clause) :=
        (List.dropWhile_suffix _).trans ⟨_, heq.symm⟩
      exact ⟨isProper_ofText hvariable, (endsInk_trimEnd hclause).of_suffix hsuffix hne⟩
  · cases h

/-! ## Rules -/

/-- What is read from a list item by item comes from the items. -/
theorem exists_of_mem_mapM {ε α β : Type} {read : α → Except ε β} {items : List α}
    {results : List β} {result : β} (h : items.mapM read = .ok results) (hr : result ∈ results) :
    ∃ item ∈ items, read item = .ok result := by
  have hboth := mapM_eq_ok_iff.mp h
  induction hboth with
  | nil => exact absurd hr List.not_mem_nil
  | cons hfirst hrest ih =>
      rcases List.mem_cons.mp hr with rfl | hr
      · exact ⟨_, List.mem_cons_self, hfirst⟩
      · obtain ⟨item, hi, hread⟩ := ih (mapM_eq_ok_iff.mpr hrest) hr
        exact ⟨item, List.mem_cons_of_mem _ hi, hread⟩

/-- Conditions that are read are sound. -/
theorem isSound_of_readConditions {text : Text} {conditions : List Condition}
    (h : readConditions text = .ok conditions) : ∀ condition ∈ conditions, condition.IsSound := by
  intro condition hc
  obtain ⟨clause, hclause, hread⟩ := exists_of_mem_mapM h hc
  exact isSound_of_readCondition ((splitsInto_conditionClauses text).trimmed clause hclause).1 hread

/-- Actions that are read are sound. -/
theorem isSound_of_readActions {text : Text} {actions : List Action}
    (h : readActions text = .ok actions) : ∀ action ∈ actions, action.IsSound := by
  intro action ha
  obtain ⟨clause, -, hread⟩ := exists_of_mem_mapM h ha
  exact isSound_of_readAction hread

/-- **What a rule has of its form**: one that applies everywhere has the condition that always holds,
and any other has sound conditions. -/
def RuleForm.Has : RuleForm → List Condition → Prop
  | .otherwise, conditions => conditions = [.always]
  | .when, conditions => ∀ condition ∈ conditions, condition.IsSound

/-- **The rule of a line has sound actions, and the conditions of its form.** -/
theorem isSound_of_readRule {suffix line : Text} {rule : Rule}
    (h : readRule suffix line = .ok rule) :
    (∃ form rest, readForm? (trim line) = some (form, rest) ∧ form.Has rule.conditions) ∧
      ∀ action ∈ rule.actions, action.IsSound := by
  obtain ⟨-, form, rest, hform, -, hsays⟩ := readRule_eq_ok_iff.mp h
  cases form with
  | otherwise =>
      obtain ⟨hconditions, text, -, hactions⟩ := hsays
      exact ⟨⟨.otherwise, rest, hform, hconditions⟩, isSound_of_readActions hactions⟩
  | when =>
      obtain ⟨before, after, -, hconditions, hactions⟩ := hsays
      exact ⟨⟨.when, rest, hform, isSound_of_readConditions hconditions⟩,
        isSound_of_readActions hactions⟩

/-- The condition that always holds is trimmed. -/
theorem isTrimmed_always : Condition.always.IsTrimmed :=
  ⟨⟨[], '1', rfl, by decide⟩, fun hop => by cases hop⟩

/-- **A rule that is read is trimmed.** -/
theorem isTrimmed_of_readRule {suffix line : Text} {rule : Rule}
    (h : readRule suffix line = .ok rule) : rule.IsTrimmed := by
  obtain ⟨⟨form, rest, -, hhas⟩, hactions⟩ := isSound_of_readRule h
  refine ⟨?_, fun action ha => (hactions action ha).ends⟩
  cases form with
  | otherwise =>
      rw [show rule.conditions = [.always] from hhas]
      exact List.forall_mem_singleton.mpr isTrimmed_always
  | when => exact fun condition hc => (hhas condition hc).isTrimmed

/-- **All rules of a text are trimmed.** -/
theorem RuleText.isTrimmed_of_mem_rules {suffix : Nat → Text} {text : Text} {rule : Rule}
    (h : rule ∈ (RuleText.read suffix text).rules) : rule.IsTrimmed := by
  -- The induction is on the numbered lines, after any number of rules.
  unfold RuleText.read at h
  generalize (lines text).zipIdx 1 = numbered at h
  generalize 0 = count at h
  fun_induction RuleText.readFrom suffix count numbered with
  | case1 count => exact absurd h List.not_mem_nil
  | case2 count line number rest text hi ih => exact ih h
  | case3 count line number rest text hi first hread later ih =>
      rcases List.mem_cons.mp h with rfl | h
      · exact isTrimmed_of_readRule hread
      · exact ih h
  | case4 count line number rest text hi error hread later ih => exact ih h

end RuleTable
