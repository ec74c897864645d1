import RuleTable.Text.Blank

/-!
# Cutting a clause at a keyword

The shapes of clauses are told apart by keywords such as `between` and `is`. A keyword counts
where an ASCII blank stands on each side of it, in any case. A clause may hold a keyword several
times, and **the cuts** of the clause are all of them; a shape tries the rightmost first, so that
the variable before it is as long as it can be.
-/

set_option autoImplicit false

namespace RuleTable

open Text

/-- **A cut** of a text around a keyword: what stands before it, nearest character first, and
what stands after it. -/
structure Cut where
  before : Text
  after : Text
deriving DecidableEq

namespace Cut

/-- What stands left of the keyword, without the blanks it ends with. -/
def left (cut : Cut) : Text := trimEnd cut.before.reverse

/-- What stands right of the keyword, without the blanks it starts with. -/
def right (cut : Cut) : Text := trimStart cut.after

/-- The cut at the very start of `text`, where `before` stands before it. -/
def here? (keyword before text : Text) : Option Cut :=
  if startsBlank before then
    match dropWord? keyword text with
    | some after => if startsBlank after then some ⟨before, after⟩ else none
    | none => none
  else none

/-- The cuts of the text that follows `before`, leftmost first. -/
def allFrom (keyword before : Text) : Text → List Cut
  | [] => []
  | c :: text => (here? keyword before (c :: text)).toList ++ allFrom keyword (c :: before) text

/-- **The cuts of a text** at a keyword, rightmost first. -/
def all (keyword text : Text) : List Cut := (allFrom keyword [] text).reverse

end Cut

end RuleTable
