import RuleTable.Text.Letter

/-!
# Names in documents

The names of elements and attributes.
-/

set_option autoImplicit false

namespace RuleTable

open Text

namespace Xml

/-- Whether a name may start with a character. -/
def isNameStart (c : Char) : Bool := isAlphabetic c || c == '_' || c == ':'

/-- Whether a character may stand in a name after its start. -/
def isNameChar (c : Char) : Bool :=
  isAlphanumeric c || c == '_' || c == ':' || c == '-' || c == '.'

/-- The longest name at the start of a text, and what follows it. -/
def name? : Text → Option (Text × Text)
  | [] => none
  | c :: text =>
      if isNameStart c then some (c :: text.takeWhile isNameChar, text.dropWhile isNameChar)
      else none

/-- What follows a name is shorter than the text. -/
theorem length_of_name? {text name rest : Text} (h : name? text = some (name, rest)) :
    rest.length < text.length := by
  cases text with
  | nil => simp [name?] at h
  | cons c text =>
      rw [name?] at h
      split at h
      · simp only [Option.some.injEq, Prod.mk.injEq] at h
        rw [← h.2]
        exact Nat.lt_succ_of_le (length_dropWhile_le _ _)
      · simp at h

end Xml

end RuleTable
