import RuleTable.Xml.Content

/-!
# Reading documents

From the text of a document to its tree of elements. A document is one root element, with ASCII
blanks, comments and processing instructions around it.
-/

set_option autoImplicit false

namespace RuleTable

open Text

namespace Xml

/-! ## Around the root element -/

/-- What follows the blanks, comments and processing instructions at the start of a text. -/
def skipMisc : Text → Except Fault Text
  | [] => .ok []
  | '<' :: '!' :: '-' :: '-' :: text =>
      match _h : after? "-->".toList text with
      | some rest => skipMisc rest
      | none => .error ⟨.openMisc, text⟩
  | '<' :: '?' :: text =>
      match _h : after? "?>".toList text with
      | some rest => skipMisc rest
      | none => .error ⟨.openMisc, text⟩
  | c :: text => if isAsciiBlank c then skipMisc text else .ok (c :: text)
termination_by text => text.length
decreasing_by
  · have := length_of_after? (by assumption)
    simp only [List.length_cons]
    omega
  · have := length_of_after? (by assumption)
    simp only [List.length_cons]
    omega
  · simp

/-! ## The root element -/

/-- The root element at the start of a text, and what follows it. -/
def readRoot : Text → Except Fault (Element × Text)
  | '<' :: text =>
      match name? text with
      | some (name, rest) => readElement name rest
      | none => .error ⟨.noRoot, text⟩
  | text => .error ⟨.noRoot, text⟩

/-- **The root element of a document**, which is one element with blanks, comments and processing
instructions around it. -/
def readDocument (document : Text) : Except Fault Element := do
  let start ← skipMisc document
  let (root, afterRoot) ← readRoot start
  let rest ← skipMisc afterRoot
  if rest.isEmpty then
    return root
  throw ⟨.afterRoot, rest⟩

end Xml

end RuleTable
