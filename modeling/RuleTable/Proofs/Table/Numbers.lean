import RuleTable.Proofs.Reading.Passage
import RuleTable.Proofs.Text.Decimals
import RuleTable.Table.Cell

/-!
# What counts as a number

Two parts of the library ask whether a text is a number: a cell leaves a number without quotes, and
a range ends at the `and` that a number follows. Only decimal numbers are meant, and no word for
infinity or for an undefined value. **A text counts as a decimal** when both parts go by that. All
texts do but the signed words, which count as numbers in both.
-/

set_option autoImplicit false

namespace RuleTable

open Text

/-! ## Words -/

/-- A word for no number that is no signed word has no sign. -/
theorem isNumberWord_of_isNotFinite {text : Text} (h : IsNotFinite text)
    (hsigned : ¬ IsSignedWord text) : isNumberWord text = true := by
  obtain ⟨sign, word, rfl, hsign, hword⟩ := h
  rcases hsign with rfl | rfl | rfl
  · exact hword
  · exact absurd ⟨'+', word, rfl, Or.inl rfl, hword⟩ hsigned
  · exact absurd ⟨'-', word, rfl, Or.inr rfl, hword⟩ hsigned

/-- A word for no number is no truth value. -/
theorem isTruthValue_of_isNumberWord {word : Text} (h : isNumberWord word = true) :
    isTruthValue word = false := by
  have hdiffer : ∀ keyword truth : Text, sameLetters keyword truth = false →
      sameLetters word keyword = true → sameLetters word truth = false := by
    intro keyword truth hne hsame
    rw [← Bool.not_eq_true, sameLetters_iff] at hne ⊢
    exact fun htruth => hne ((sameLetters_iff.mp hsame).symm.trans htruth)
  rw [isNumberWord, Bool.or_eq_true, Bool.or_eq_true] at h
  rw [isTruthValue, Bool.or_eq_false_iff]
  rcases h with (hinf | hinfinity) | hnan
  · exact ⟨hdiffer _ _ (by decide) hinf, hdiffer _ _ (by decide) hinf⟩
  · exact ⟨hdiffer _ _ (by decide) hinfinity, hdiffer _ _ (by decide) hinfinity⟩
  · exact ⟨hdiffer _ _ (by decide) hnan, hdiffer _ _ (by decide) hnan⟩

/-- **A word for no number does not read as a literal** when it has no sign. -/
theorem readsAsLiteral_of_isNumberWord {word : Text} (h : isNumberWord word = true) :
    CellValue.readsAsLiteral word = false := by
  have hnumeral : isNumeral word = false := by
    rw [← Bool.not_eq_true, isNumeral_iff]
    rintro (hdecimal | ⟨sign, rest, rfl, hsign, -⟩)
    · exact IsNotFinite.not_isDecimal ⟨[], word, rfl, Or.inl rfl, h⟩ hdecimal
    · have hstops := stops_cons.mp (stops_isSignChar_of_isNumberWord h)
      rcases hsign with rfl | rfl
      · cases hstops
      · cases hstops
  obtain ⟨c, rest, rfl, hc⟩ := exists_cons_of_isNumberWord h
  have hhead : ∀ mark : Char, mark.isAlpha = false → ((c :: rest).head? == some mark) = false := by
    intro mark hmark
    rw [List.head?_cons, Option.some_beq_some, beq_eq_false_iff_ne]
    rintro rfl
    rw [hc] at hmark
    cases hmark
  rw [CellValue.readsAsLiteral, hhead '"' (by decide), hhead '[' (by decide), hnumeral,
    isTruthValue_of_isNumberWord h]
  rfl

/-! ## Numbers in cells and in ranges -/

/-- **A text counts as a decimal.** -/
structure CountsAsDecimal (text : Text) : Prop where
  /-- It is a numeral exactly if it is a decimal number. -/
  numeral : isNumeral text = true ↔ IsDecimal text
  /-- If it is a word for no number, it is no literal and stands in quotes in its cell. -/
  quoted : IsNotFinite text →
    CellValue.ofText text = .text text ∧ outputCell (some text) = ['"'] ++ text ++ ['"']
  /-- As the token behind the `and` of a range it ends the range exactly if it is a decimal
  number. -/
  ends : ∀ before c after, startsConjunction (c :: after) = true →
    firstToken? (after.drop 4) = some text →
    (Place.range.scan before c after = .rangeAnd .top ↔ IsDecimal text)

/-- **A range ends at an `and` exactly if a numeral follows.** -/
theorem scan_range_eq_top_iff {before after token : Text} {c : Char}
    (hand : startsConjunction (c :: after) = true) (htoken : firstToken? (after.drop 4) = some token) :
    Place.range.scan before c after = .rangeAnd .top ↔ isNumeral token = true := by
  rw [scan_eq_rangeAnd_iff, htoken, Option.any_some]
  by_cases hnumeral : isNumeral token = true
  · simp [hand, hnumeral]
  · simp [hnumeral]

/-- **Every text counts as a decimal but the signed words**: a sign with a word for infinity or for
an undefined value behind it, in any case. -/
theorem countsAsDecimal_iff (text : Text) : CountsAsDecimal text ↔ ¬ IsSignedWord text := by
  constructor
  · intro h hsigned
    exact hsigned.isNotFinite.not_isDecimal (h.numeral.mp (isNumeral_iff.mpr (Or.inr hsigned)))
  · intro hsigned
    have hnumeral : isNumeral text = true ↔ IsDecimal text :=
      isNumeral_iff.trans (or_iff_left hsigned)
    refine ⟨hnumeral, fun hword => ?_, fun before c after hand htoken => ?_⟩
    · have hliteral := readsAsLiteral_of_isNumberWord (isNumberWord_of_isNotFinite hword hsigned)
      have hvalue : CellValue.ofText text = .text text := by
        rw [CellValue.ofText, hliteral, if_neg Bool.false_ne_true]
      exact ⟨hvalue, by rw [outputCell, hvalue, CellValue.render]⟩
    · exact (scan_range_eq_top_iff hand htoken).trans hnumeral

/-- **Minus infinity counts as a number**: it stands in its cell without quotes, and a range ends at
the `and` before it. -/
theorem not_countsAsDecimal_minusInf :
    IsNotFinite "-inf".toList ∧ isNumeral "-inf".toList = true ∧
      CellValue.ofText "-inf".toList = .literal "-inf".toList ∧
      Place.range.scan [] ' ' "and -inf and b is 2".toList = .rangeAnd .top ∧
      ¬ CountsAsDecimal "-inf".toList := by
  have hsigned : IsSignedWord "-inf".toList :=
    ⟨'-', "inf".toList, rfl, Or.inr rfl, by decide⟩
  have hnumeral : isNumeral "-inf".toList = true := by decide
  refine ⟨hsigned.isNotFinite, hnumeral, by decide, by decide, fun h => ?_⟩
  exact hsigned.isNotFinite.not_isDecimal (h.numeral.mp hnumeral)

end RuleTable
