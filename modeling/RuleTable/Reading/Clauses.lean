import RuleTable.Text.Blank
import RuleTable.Text.Numeral

/-!
# Clauses

How the text of a rule falls into clauses. **The separator** is the first comma outside
parentheses: conditions stand before it and actions after it. Conditions are joined by the word
`and`, except where that word stands inside parentheses or closes a range opened by `between`.
Actions are joined by every `and` that stands alone.
-/

set_option autoImplicit false

namespace RuleTable

open Text

/-! ## The separator -/

/-- How deep in parentheses a text is after a character. A closing parenthesis counts even when
none is open. -/
def depthAfter (depth : Int) (c : Char) : Int :=
  if c = '(' then depth + 1 else if c = ')' then depth - 1 else depth

/-- The text before and after the first comma at depth zero. -/
def cutAtComma? (depth : Int) : Text → Option (Text × Text)
  | [] => none
  | c :: text =>
      if c = ',' ∧ depth = 0 then some ([], text)
      else (cutAtComma? (depthAfter depth c) text).map fun (before, after) => (c :: before, after)

/-- **The two halves of a rule**: what stands before and after its separator. -/
def halves? (text : Text) : Option (Text × Text) := cutAtComma? 0 text

/-! ## Conditions -/

/-- Where in the conditions a reader is: at the top, inside parentheses (with how many more open
around the innermost pair), or in a range whose `and` is still to come. -/
inductive Place
  | top
  | parens (outer : Nat)
  | range
deriving DecidableEq

/-- The place after an opening parenthesis. -/
def Place.opened : Place → Place
  | parens outer => parens (outer + 1)
  | _ => parens 0

/-- The place after a closing parenthesis; one that closes nothing changes nothing. -/
def Place.closed : Place → Place
  | parens 0 => top
  | parens (outer + 1) => parens outer
  | place => place

/-- Whether a character joins on to a keyword next to it: a letter, a digit or `_`, of ASCII. -/
def joinsKeyword (c : Char) : Bool := c.isAlphanum || c == '_'

/-- Whether the word `between` stands at the start of `text`, where `before` stands before it,
nearest character first. -/
def opensRange (before text : Text) : Bool :=
  ! before.head?.any joinsKeyword &&
    match dropWord? "between".toList text with
    | some after => ! after.head?.any joinsKeyword
    | none => false

/-- Whether a text starts with the word `and` between two ASCII blanks. -/
def startsConjunction : Text → Bool
  | b₁ :: a :: n :: d :: b₂ :: _ =>
      isAsciiBlank b₁ && sameLetters [a, n, d] "and".toList && isAsciiBlank b₂
  | _ => false

/-- **What comes next in the conditions**, and the place after it. -/
inductive Scan
  /-- One character of the clause. -/
  | character (place : Place)
  /-- The `and` of a range with a blank on each side, part of the clause. -/
  | rangeAnd (place : Place)
  /-- The `and` between two clauses with a blank on each side. -/
  | conjunction
deriving DecidableEq

/-- What comes next where `c` and `text` are left and `before` has been read of the clause, nearest
character first. The `and` of a range closes the range if a numeral follows. -/
def Place.scan (place : Place) (before : Text) (c : Char) (text : Text) : Scan :=
  if c = '(' then .character place.opened
  else if c = ')' then .character place.closed
  else match place with
    | parens outer => .character (parens outer)
    | range =>
        if startsConjunction (c :: text) then
          .rangeAnd (if (firstToken? (text.drop 4)).any isNumeral then top else range)
        else .character range
    | top =>
        if opensRange before (c :: text) then .character range
        else if startsConjunction (c :: text) then .conjunction
        else .character top

/-- A clause as a list: without the blanks at its ends, and none at all if only blanks are left. -/
def clauseOf (text : Text) : List Text :=
  if (trim text).isEmpty then [] else [trim text]

/-- The clauses of the conditions from a place on. `current` is what has been read of the current
clause, nearest character first. -/
def conditionClausesFrom (place : Place) (current : Text) : Text → List Text
  | [] => clauseOf current.reverse
  | c :: text =>
      match place.scan current c text with
      | .character place => conditionClausesFrom place (c :: current) text
      | .rangeAnd place =>
          conditionClausesFrom place ((text.take 4).reverse ++ c :: current) (text.drop 4)
      | .conjunction =>
          clauseOf current.reverse ++ conditionClausesFrom .top [] (text.drop 4)
termination_by text => text.length
decreasing_by all_goals simp only [List.length_drop, List.length_cons]; omega

/-- **The clauses of the conditions** of a rule, trimmed and not empty. -/
def conditionClauses (text : Text) : List Text := conditionClausesFrom .top [] text

/-! ## Actions -/

/-- What follows an `and` that stands alone, when one starts `text` after any ASCII blanks. The
blanks after it are dropped as well. -/
def afterAnd? (text : Text) : Option Text :=
  match dropWord? "and".toList (skipBlanks text) with
  | some after => if startsBlank after then some (skipBlanks after) else none
  | none => none

/-- What follows an `and` that stands alone is shorter than the text. -/
theorem length_of_afterAnd? {text after : Text} (h : afterAnd? text = some after) :
    after.length < text.length := by
  rw [afterAnd?] at h
  split at h
  · next rest hrest =>
      split at h
      · simp only [Option.some.injEq] at h
        have h₁ := length_of_dropWord? hrest
        have h₂ := length_skipBlanks_le text
        have h₃ := length_skipBlanks_le rest
        have h₄ : "and".toList.length = 3 := by decide
        rw [h] at h₃
        omega
      · simp at h
  · simp at h

/-- The clauses of the actions from a text on. `current` is what has been read of the current
clause, nearest character first. -/
def actionClausesFrom (current : Text) : Text → List Text
  | [] => clauseOf current.reverse
  | c :: text =>
      if isAsciiBlank c then
        match _h : afterAnd? (c :: text) with
        | some after => clauseOf current.reverse ++ actionClausesFrom [] after
        | none => actionClausesFrom (c :: current) text
      else actionClausesFrom (c :: current) text
termination_by text => text.length
decreasing_by
  · exact length_of_afterAnd? (by assumption)
  · simp
  · simp

/-- **The clauses of the actions** of a rule, trimmed and not empty. -/
def actionClauses (text : Text) : List Text := actionClausesFrom [] text

end RuleTable
