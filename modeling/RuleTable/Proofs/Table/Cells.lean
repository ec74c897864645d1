import RuleTable.Proofs.Text.Trim
import RuleTable.Table.Cell

/-!
# Cells that lose nothing to trimming

Whoever reads a document trims the text of a cell. **A trimmed rule** is one whose cells all stay as
they are: its values end with ink, and the expressions among them start with ink as well. How the
value starts does not matter otherwise, since a value that is no literal is put in quotes and a
literal starts with ink.
-/

set_option autoImplicit false

namespace RuleTable

open Text

/-! ## Trimmed rules -/

/-- **A trimmed condition**: its value ends with ink. The value of `isIn` is an expression already
and starts with ink as well. -/
structure Condition.IsTrimmed (condition : Condition) : Prop where
  ends : EndsInk condition.value
  starts : condition.operator = .isIn → StartsInk condition.value

/-- **A trimmed action**: its value ends with ink. -/
def Action.IsTrimmed (action : Action) : Prop := EndsInk action.value

/-- **A trimmed rule**: its conditions and actions are. -/
structure Rule.IsTrimmed (rule : Rule) : Prop where
  conditions : ∀ condition ∈ rule.conditions, condition.IsTrimmed
  actions : ∀ action ∈ rule.actions, action.IsTrimmed

/-! ## Expressions -/

/-- A text that equals a word up to the case of letters starts with ink if no blank becomes the
first letter of the word in lower case. -/
theorem startsInk_of_sameLetters {text word : Text} {c : Char} {rest : Text}
    (hw : word.map Char.toLower = c :: rest)
    (hc : ∀ code ∈ blankCodes, ((Char.ofNat code).toLower == c) = false)
    (h : sameLetters text word = true) : StartsInk text := by
  rw [sameLetters, beq_iff_eq, hw] at h
  cases text with
  | nil => exact absurd h (List.cons_ne_nil c rest).symm
  | cons d text =>
      have hd : (d.toLower == c) = true := beq_iff_eq.mpr (List.cons.inj h).1
      exact ⟨d, text, rfl, isBlank_eq_false (p := fun d => d.toLower == c) hc hd⟩

/-- A numeral starts with ink. -/
theorem startsInk_of_isNumeral {text : Text} (h : isNumeral text = true) : StartsInk text := by
  cases text with
  | nil => exact absurd h (by decide)
  | cons c text =>
      -- After a sign anything may stand, but the sign itself is ink.
      have hc : (c == '+' || c == '-' || c.isDigit || c == '.') = true := by
        by_cases hsign : (c == '+' || c == '-') = true
        · simp [hsign]
        · rw [isNumeral, if_neg hsign, Bool.and_eq_true] at h
          rw [Bool.or_assoc, h.1, Bool.or_true]
      exact ⟨c, text, rfl, isBlank_eq_false
        (p := fun c => c == '+' || c == '-' || c.isDigit || c == '.') (by decide) hc⟩

/-- **A literal starts with ink.** -/
theorem startsInk_of_readsAsLiteral {text : Text} (h : CellValue.readsAsLiteral text = true) :
    StartsInk text := by
  have hhead : ∀ c : Char, isBlank c = false → (text.head? == some c) = true → StartsInk text := by
    intro c hc hh
    cases text with
    | nil => exact absurd hh (by simp)
    | cons d text =>
        obtain rfl : d = c := by simpa using hh
        exact ⟨d, text, rfl, hc⟩
  simp only [CellValue.readsAsLiteral, isTruthValue, Bool.or_eq_true] at h
  rcases h with ((hquote | hbracket) | hnumeral) | (htrue | hfalse)
  · exact hhead '"' (by decide) hquote
  · exact hhead '[' (by decide) hbracket
  · exact startsInk_of_isNumeral hnumeral
  · exact startsInk_of_sameLetters (c := 't') rfl (by decide) htrue
  · exact startsInk_of_sameLetters (c := 'f') rfl (by decide) hfalse

/-- A text between two characters that are no blanks starts and ends with ink. -/
theorem ink_of_enclosed {first last : Char} (text : Text) (hf : isBlank first = false)
    (hl : isBlank last = false) :
    StartsInk ([first] ++ text ++ [last]) ∧ EndsInk ([first] ++ text ++ [last]) :=
  ⟨⟨first, text ++ [last], rfl, hf⟩, ⟨[first] ++ text, last, rfl, hl⟩⟩

/-- **The expression of a value that ends with ink starts and ends with ink.** -/
theorem ink_of_render {written : Text} (h : EndsInk written) :
    StartsInk (CellValue.ofText written).render ∧ EndsInk (CellValue.ofText written).render := by
  by_cases hl : CellValue.readsAsLiteral written = true
  · rw [CellValue.ofText, if_pos hl]
    exact ⟨startsInk_of_readsAsLiteral hl, h⟩
  · rw [CellValue.ofText, if_neg hl]
    exact ink_of_enclosed written (by decide) (by decide)

/-- **The cell of a trimmed condition starts and ends with ink.** -/
theorem ink_of_inputCell {condition : Condition} (h : condition.IsTrimmed) :
    StartsInk (inputCell (some condition)) ∧ EndsInk (inputCell (some condition)) := by
  obtain ⟨column, operator, value⟩ := condition
  have hrender := ink_of_render h.ends
  -- The token of an operator stands before the expression and a space.
  have htoken : ∀ token : Text, StartsInk token →
      StartsInk (token ++ [' '] ++ (CellValue.ofText value).render) ∧
        EndsInk (token ++ [' '] ++ (CellValue.ofText value).render) := by
    intro token ht
    exact ⟨(ht.append _).append _, hrender.2.append _⟩
  cases operator with
  | isIn => exact ⟨h.starts rfl, h.ends⟩
  | contains =>
      refine ⟨?_, ?_⟩
      · exact ⟨'c', _, rfl, by decide⟩
      · exact EndsInk.append ⟨[], ')', rfl, by decide⟩ _
  | equals => exact hrender
  | notEquals => exact htoken _ ⟨'!', ['='], rfl, by decide⟩
  | greaterThan => exact htoken _ ⟨'>', [], rfl, by decide⟩
  | lessThan => exact htoken _ ⟨'<', [], rfl, by decide⟩
  | greaterOrEqual => exact htoken _ ⟨'>', ['='], rfl, by decide⟩
  | lessOrEqual => exact htoken _ ⟨'<', ['='], rfl, by decide⟩

/-! ## Cells -/

namespace Rule

variable {rule : Rule}

/-- **The input cells of a trimmed rule lose nothing to trimming.** -/
theorem IsTrimmed.trim_inputCellIn (h : rule.IsTrimmed) (column : ColumnName) :
    trim (rule.inputCellIn column) = rule.inputCellIn column := by
  unfold inputCellIn
  cases hc : rule.conditionOn? column.chars with
  | none => rfl
  | some condition =>
      have hmem : condition ∈ rule.conditions := List.mem_of_find?_eq_some hc
      have hink := ink_of_inputCell (h.conditions condition hmem)
      exact trim_eq_self hink.1 hink.2

/-- **The output cells of a trimmed rule lose nothing to trimming.** -/
theorem IsTrimmed.trim_outputCellIn (h : rule.IsTrimmed) (column : ColumnName) :
    trim (rule.outputCellIn column) = rule.outputCellIn column := by
  unfold outputCellIn
  cases ha : rule.actionOn? column.chars with
  | none => decide
  | some action =>
      have hmem : action ∈ rule.actions := List.mem_of_find?_eq_some ha
      have hink := ink_of_render (h.actions action hmem)
      exact trim_eq_self hink.1 hink.2

end Rule

end RuleTable
