import RuleTable.Text.Blank
import RuleTable.Text.LowerCase

/-!
# Column names

A variable is written in a rule in any case and with blanks between its words. Its **column name**
is what the table calls it: small ASCII letters, digits and `_` only, so that two spellings of one
variable meet in one column.
-/

set_option autoImplicit false

namespace RuleTable

open Text

/-- Whether a character may stand in a column name: a small ASCII letter, a digit or `_`. -/
def isColumnChar (c : Char) : Bool := c.isLower || c.isDigit || c == '_'

/-- **A column name**: the characters by which a table knows a variable. -/
structure ColumnName where
  chars : Text
  plain : ∀ c ∈ chars, isColumnChar c = true
deriving DecidableEq

namespace ColumnName

/-- The column characters of a trimmed text: each run of blanks becomes one `_`, each other
character the column characters of its lower-case form. `inBlank` says that the character before
was a blank. -/
def squeeze (inBlank : Bool) : Text → Text
  | [] => []
  | c :: text =>
      if isBlank c then
        if inBlank then squeeze true text else '_' :: squeeze true text
      else (lowerCase c).filter isColumnChar ++ squeeze false text

/-- Only column characters are left. -/
theorem isColumnChar_of_mem_squeeze {inBlank : Bool} {text : Text} {c : Char}
    (h : c ∈ squeeze inBlank text) : isColumnChar c = true := by
  induction text generalizing inBlank with
  | nil => simp [squeeze] at h
  | cons d text ih =>
      rw [squeeze] at h
      split at h
      · split at h
        · exact ih h
        · rcases List.mem_cons.mp h with rfl | h
          · rfl
          · exact ih h
      · rcases List.mem_append.mp h with h | h
        · exact (List.mem_filter.mp h).2
        · exact ih h

/-- **The column name of a variable** as a rule writes it: trimmed, in lower case, each run of
blanks as one `_`, without the characters that a column name cannot hold. -/
def ofText (written : Text) : ColumnName :=
  ⟨squeeze false (trim written), fun _ => isColumnChar_of_mem_squeeze⟩

end ColumnName

end RuleTable
