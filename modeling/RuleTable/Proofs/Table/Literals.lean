import RuleTable.Proofs.Reading.Rules
import RuleTable.Proofs.Table.Numbers

/-!
# Whole literals

A cell is an expression, and a quoted text or a list in it has to close where the cell ends. A value
that starts like one of them becomes its cell as it is, and any other text is put in quotes as it
is. So it depends on the value alone whether its cell is whole: **the value has to be well
delimited**, and then it is a literal, or may stand between quotes.
-/

set_option autoImplicit false

namespace RuleTable

open Text

/-! ## Literals -/

/-- **What may stand between quotes.** A backslash takes the next character with it, and no other
quote stands inside. -/
inductive IsQuotable : Text → Prop
  | nil : IsQuotable []
  | plain {c : Char} {text : Text} (hquote : c ≠ '"') (hslash : c ≠ '\\') (h : IsQuotable text) :
      IsQuotable (c :: text)
  | escaped (c : Char) {text : Text} (h : IsQuotable text) : IsQuotable ('\\' :: c :: text)

/-- **A quoted text**: the quote that ends it is the first that may. -/
def IsQuoted (text : Text) : Prop := ∃ body, text = ['"'] ++ body ++ ['"'] ∧ IsQuotable body

/-- **A list or a range**, from bracket to bracket. -/
def IsBracketed (text : Text) : Prop := ∃ inner, text = ['['] ++ inner ++ [']']

theorem IsQuoted.head? {text : Text} (h : IsQuoted text) : text.head? = some '"' := by
  obtain ⟨body, rfl, -⟩ := h
  rfl

theorem IsBracketed.head? {text : Text} (h : IsBracketed text) : text.head? = some '[' := by
  obtain ⟨inner, rfl⟩ := h
  rfl

/-! ## Values in cells -/

variable {written : Text}

end RuleTable
