import RuleTable.Proofs.Reading.Halves
import RuleTable.Proofs.Reading.Phrase
import RuleTable.Proofs.Reading.Rules
import RuleTable.Proofs.Reading.Scan
import RuleTable.Proofs.Reading.Shapes

/-!
# Rules as they are written

**A written rule** is put together from its parts: clauses of five shapes, joined with the word
`and`, then a comma, then what is assigned. Its line is read as the rule it was written for. For
every clause there are three things to show: the readers of the shapes find its own shape and
nothing before it, the scan for `and` passes over it, and so does the scan for the separator.
-/

set_option autoImplicit false

namespace RuleTable

open Text

/-! ## Tests -/

/-- **What a clause says of its variable.** -/
inductive Test
  /-- `is value` -/
  | equals (value : PlainValue)
  /-- a comparison sign and a value -/
  | compares (sign : Operator) (isSign : sign ≠ .contains ∧ sign ≠ .isIn) (value : PlainValue)
  /-- `contains value`, or `contains any value` -/
  | contains (any : Bool) (value : PlainValue)
  /-- `between low and high` -/
  | between (low high : Decimal)
  /-- `in (item, …)` -/
  | oneOf (list : Items)

namespace Test

/-- The keyword or sign of a test. -/
def sign : Test → Text
  | equals _ => "is".toList
  | compares sign _ _ => sign.token
  | contains _ _ => "contains".toList
  | between _ _ => "between".toList
  | oneOf _ => "in".toList

/-- What stands behind the keyword or sign. -/
def operand : Test → Text
  | equals value => value.text
  | compares _ _ value => value.text
  | contains any value => if any then "any ".toList ++ value.text else value.text
  | between low high => low.text ++ " and ".toList ++ high.text
  | oneOf list => list.text

/-- The operator of the condition that the test is. -/
def operator : Test → Operator
  | equals _ => .equals
  | compares sign _ _ => sign
  | contains _ _ => .contains
  | between _ _ => .isIn
  | oneOf _ => .isIn

/-- The value of the condition that the test is. -/
def value : Test → Text
  | equals value => value.text
  | compares _ _ value => value.text
  | contains _ value => value.text
  | between low high => ['['] ++ low.text ++ "..".toList ++ high.text ++ [']']
  | oneOf list => list.quoted

end Test

/-- **A clause as it is written**: a variable and what is said of it. -/
structure Clause where
  variableName : Variable
  test : Test

namespace Clause

/-- The text of a clause. -/
def text (clause : Clause) : Text :=
  clause.variableName.text ++ ' ' :: (clause.test.sign ++ ' ' :: clause.test.operand)

/-- The condition that a clause says. -/
def condition (clause : Clause) : Condition :=
  .on clause.variableName.text clause.test.operator clause.test.value

end Clause

/-! ## The ends of a clause -/

namespace Test

theorem startsInk_operand (test : Test) : StartsInk test.operand := by
  cases test with
  | equals value => exact value.startsInk
  | compares sign hsign value => exact value.startsInk
  | contains any value =>
      cases any with
      | false => exact value.startsInk
      | true => exact ⟨'a', _, rfl, by decide⟩
  | between low high => exact (low.startsInk.append _).append _
  | oneOf list => exact ⟨'(', _, rfl, by decide⟩

theorem endsInk_operand (test : Test) : EndsInk test.operand := by
  cases test with
  | equals value => exact value.endsInk
  | compares sign hsign value => exact value.endsInk
  | contains any value =>
      cases any with
      | false => exact value.endsInk
      | true => exact value.endsInk.append _
  | between low high => exact EndsInk.append high.endsInk _
  | oneOf list => exact EndsInk.append ⟨[], ')', rfl, by decide⟩ _

end Test

namespace Clause

theorem startsInk_text (clause : Clause) : StartsInk clause.text :=
  clause.variableName.startsInk.append _

theorem endsInk_text (clause : Clause) : EndsInk clause.text := by
  have hend := clause.test.endsInk_operand.append
    (clause.variableName.text ++ ' ' :: (clause.test.sign ++ [' ']))
  simpa [text] using hend

theorem trim_text (clause : Clause) : trim clause.text = clause.text :=
  trim_eq_self clause.startsInk_text clause.endsInk_text

theorem text_ne_nil (clause : Clause) : clause.text ≠ [] := clause.startsInk_text.ne_nil

end Clause

/-! ## Reading a clause -/

/-- The bounds of a range are read as they are written. -/
theorem rangeBounds?_append (low high : Decimal) :
    rangeBounds? (low.text ++ " and ".toList ++ high.text) = some (low.text, high.text) := by
  have hlow : IsBound low.text := ⟨low.text_ne_nil, fun _ => low.isBoundChar_of_mem⟩
  have hhigh : IsBound high.text := ⟨high.text_ne_nil, fun _ => high.isBoundChar_of_mem⟩
  refine rangeBounds?_eq_some_iff.mpr
    ⟨[' '], "and".toList, [' '], ?_, hlow, isGap_space, by decide, isGap_space, hhigh⟩
  rw [List.append_assoc]
  rfl

section NoShape

variable {clause : Text}

theorem readRange?_eq_none (h : ¬ Occurs isAsciiBlank "between".toList clause) :
    readRange? clause = none := by
  rw [readRange?, readCut?_eq_none_of_not_occurs h, Option.map_none]

theorem readList?_eq_none (h : ¬ Occurs isAsciiBlank "in".toList clause) :
    readList? clause = none := by
  rw [readList?, readCut?_eq_none_of_not_occurs h, Option.map_none]

theorem readContainment?_eq_none (h : ¬ Occurs isAsciiBlank "contains".toList clause) :
    readContainment? clause = none := by
  rw [readContainment?, readCut?_eq_none_of_not_occurs h, Option.map_none]

end NoShape

/-- A list is no range, even if its items say `between`: a range would have a parenthesis in its
variable. -/
theorem readRange?_list (variableName : Variable) (list : Items) :
    readRange? (variableName.text ++ ' ' :: ("in".toList ++ ' ' :: list.text)) = none := by
  rw [readRange?, readCut?_eq_none, Option.map_none]
  intro cut hcut hvariable
  obtain ⟨w, heq, hsame, hbefore, hafter⟩ := hcut
  obtain ⟨hne, hletters⟩ := IsKeyword.of_sameLetters (by decide) hsame
  have hparen : '(' ∉ w := fun hmem => absurd (hletters '(' hmem) (by decide)
  have hclause : variableName.text ++ ' ' :: ("in".toList ++ ' ' :: list.text)
      = (variableName.text ++ ' ' :: ("in".toList ++ ' ' :: []))
        ++ '(' :: (join ", ".toList list.items ++ [')']) := by
    simp [Items.text]
  rw [hclause] at heq
  rcases append_cons_eq_append hne hparen heq with ⟨m, hm, -⟩ | ⟨m, hm, hfront⟩
  · have hmem : '(' ∈ cut.before := by
      rw [← List.mem_reverse, hm]
      simp
    exact absurd hmem (paren_not_mem_before hvariable)
  · -- The keyword would stand in front of the parenthesis, and there is only `in`.
    have hcut : IsCut "between".toList (variableName.text ++ ' ' :: ("in".toList ++ ' ' :: []))
        ⟨cut.before, m⟩ := by
      refine ⟨w, hfront, hsame, hbefore, ?_⟩
      rw [hm] at hafter
      cases m with
      | nil => exact absurd (show isAsciiBlank '(' = true from hafter) (by decide)
      | cons c m => exact hafter
    exact absurd hcut.occurs (variableName.not_occurs_append (by decide) (by decide) (by decide))

section Comparison

variable {sign : Operator} (h : sign ≠ .contains ∧ sign ≠ .isIn)

include h

theorem startsSign_token (rest : Text) : StartsSign (sign.token ++ ' ' :: rest) sign (' ' :: rest) := by
  refine comparisonSign?_eq_some_iff.mp ?_
  cases sign with
  | contains => exact absurd rfl h.1
  | isIn => exact absurd rfl h.2
  | _ => rfl

/-- No keyword is a comparison sign. -/
theorem not_occurs_token {edge : Char → Bool} {keyword : Text} (hk : IsKeyword keyword) :
    ¬ Occurs edge keyword sign.token := by
  apply not_occurs_of_no_letters hk
  cases sign with
  | contains => exact absurd rfl h.1
  | isIn => exact absurd rfl h.2
  | _ => decide

theorem flat_token : ∀ c ∈ sign.token, c ≠ ',' ∧ c ≠ '(' ∧ c ≠ ')' := by
  cases sign with
  | contains => exact absurd rfl h.1
  | isIn => exact absurd rfl h.2
  | _ => decide

/-- A comparison is read as it is written. -/
theorem readComparison?_append (variableName : Variable) (value : PlainValue) :
    readComparison? (variableName.text ++ ' ' :: (sign.token ++ ' ' :: value.text))
      = some (.on variableName.text sign value.text) := by
  have hfront : ∀ c ∈ variableName.text ++ [' '], isComparisonChar c = false := by
    intro c hc
    rcases List.mem_append.mp hc with hc | hc
    · exact variableName.isComparisonChar_of_mem hc
    · rw [List.mem_singleton.mp hc]
      decide
  have hname : trimEnd (variableName.text ++ [' ']) = variableName.text :=
    trimEnd_append_of_endsInk variableName.endsInk (by decide)
  have hway := Decomposes.comparison rfl hfront (by rw [hname]; exact variableName.isVariable_text)
    (startsSign_token h value.text) isGap_space.2 value.startsInk.stops_isAsciiBlank value.text_ne_nil
  rw [hname, List.append_assoc] at hway
  exact readComparison?_eq_some_iff.mpr ⟨_, hway⟩

end Comparison

namespace Test

theorem flat_sign (test : Test) : ∀ c ∈ test.sign, c ≠ ',' ∧ c ≠ '(' ∧ c ≠ ')' := by
  cases test with
  | compares sign hsign value => exact flat_token hsign
  | equals value =>
      show ∀ c ∈ "is".toList, _
      decide
  | contains any value =>
      show ∀ c ∈ "contains".toList, _
      decide
  | between low high =>
      show ∀ c ∈ "between".toList, _
      decide
  | oneOf list =>
      show ∀ c ∈ "in".toList, _
      decide

end Test

section Containment

variable (any : Bool) (value : PlainValue)

theorem not_occurs_any {edge : Char → Bool} {keyword : Text} (hk : IsKeyword keyword)
    (hspace : edge ' ' = true) (hany : ¬ Occurs edge keyword "any".toList)
    (hvalue : ¬ Occurs edge keyword value.text) :
    ¬ Occurs edge keyword (if any then "any ".toList ++ value.text else value.text) := by
  cases any with
  | false => exact hvalue
  | true =>
      show ¬ Occurs edge keyword ("any".toList ++ ' ' :: value.text)
      rw [occurs_append_cons hk hspace (by decide), not_or]
      exact ⟨hany, hvalue⟩

theorem not_occurs_contained {keyword : Text} (hk : keyword ∈ clauseKeywords) :
    ¬ Occurs isAsciiBlank keyword (if any then "any ".toList ++ value.text else value.text) := by
  have hany : ∀ keyword ∈ clauseKeywords, ¬ Occurs isAsciiBlank keyword "any".toList := by decide
  exact not_occurs_any any value (isKeyword_of_mem hk) (by decide) (hany keyword hk)
    (value.not_occurs hk)

theorem flat_contained : ∀ c ∈ if any then "any ".toList ++ value.text else value.text,
    c ≠ ',' ∧ c ≠ '(' ∧ c ≠ ')' := by
  have hany : ∀ c ∈ "any ".toList, c ≠ ',' ∧ c ≠ '(' ∧ c ≠ ')' := by decide
  cases any with
  | false => exact value.flat
  | true =>
      intro c hc
      rcases List.mem_append.mp hc with hc | hc
      · exact hany c hc
      · exact value.flat c hc

theorem contained?_any :
    contained? (if any then "any ".toList ++ value.text else value.text) = some value.text := by
  cases any with
  | false => exact value.contained?_text
  | true =>
      have hany : SaysAny ("any ".toList ++ value.text) value.text :=
        ⟨"any".toList, [' '], rfl, by decide, isGap_space, value.startsInk.stops_isAsciiBlank⟩
      exact contained?_eq_some_iff.mpr ⟨Or.inl hany, value.text_ne_nil⟩

end Containment

/-! ### The shape that counts -/

section Shape

variable {clause variableName value : Text} {condition : Condition}

theorem readCondition_of_range (h : readRange? clause = some condition) :
    readCondition clause = .ok condition := by
  simp only [readCondition, h]
  rfl

theorem readCondition_of_list (hrange : readRange? clause = none)
    (h : readList? clause = some condition) : readCondition clause = .ok condition := by
  simp only [readCondition, hrange, h]
  rfl

theorem readCondition_of_containment (hrange : readRange? clause = none)
    (hlist : readList? clause = none) (h : readContainment? clause = some condition) :
    readCondition clause = .ok condition := by
  simp only [readCondition, hrange, hlist, h]
  rfl

theorem readCondition_of_equality (hrange : readRange? clause = none)
    (hlist : readList? clause = none) (hcontains : readContainment? clause = none)
    (h : readEquality? clause = some (variableName, value)) :
    readCondition clause = .ok (.on variableName .equals value) := by
  simp only [readCondition, hrange, hlist, hcontains, h]
  rfl

theorem readCondition_of_comparison (hrange : readRange? clause = none)
    (hlist : readList? clause = none) (hcontains : readContainment? clause = none)
    (hequal : readEquality? clause = none) (h : readComparison? clause = some condition) :
    readCondition clause = .ok condition := by
  simp only [readCondition, hrange, hlist, hcontains, hequal, h]
  rfl

end Shape

section Variable

variable (variableName : Variable) (value : PlainValue)

theorem readCondition_equals :
    readCondition (variableName.text ++ ' ' :: ("is".toList ++ ' ' :: value.text))
      = .ok (.on variableName.text .equals value.text) := by
  have hnone (keyword : Text) (hk : keyword ∈ clauseKeywords)
      (hsign : ¬ Occurs isAsciiBlank keyword "is".toList) :=
    variableName.not_occurs_append hk hsign (value.not_occurs hk)
  have hread : readEquality? (variableName.text ++ ' ' :: ("is".toList ++ ' ' :: value.text))
      = some (variableName.text, value.text) :=
    variableName.readCut?_append (by decide) value.startsInk (someText?_eq_some_iff.mpr ⟨rfl, value.text_ne_nil⟩)
      (Or.inl (value.not_occurs (by decide)))
  exact readCondition_of_equality (readRange?_eq_none (hnone _ (by decide) (by decide)))
    (readList?_eq_none (hnone _ (by decide) (by decide)))
    (readContainment?_eq_none (hnone _ (by decide) (by decide))) hread

theorem readCondition_compares {sign : Operator} (hsign : sign ≠ .contains ∧ sign ≠ .isIn) :
    readCondition (variableName.text ++ ' ' :: (sign.token ++ ' ' :: value.text))
      = .ok (.on variableName.text sign value.text) := by
  have hnone (keyword : Text) (hk : keyword ∈ clauseKeywords) :=
    variableName.not_occurs_append hk (not_occurs_token hsign (isKeyword_of_mem hk))
      (value.not_occurs hk)
  exact readCondition_of_comparison (readRange?_eq_none (hnone _ (by decide)))
    (readList?_eq_none (hnone _ (by decide))) (readContainment?_eq_none (hnone _ (by decide)))
    (readCut?_eq_none_of_not_occurs (hnone _ (by decide)))
    (readComparison?_append hsign variableName value)

theorem readCondition_contains (any : Bool) :
    readCondition (variableName.text ++ ' ' :: ("contains".toList
        ++ ' ' :: (if any then "any ".toList ++ value.text else value.text)))
      = .ok (.on variableName.text .contains value.text) := by
  have hnone (keyword : Text) (hk : keyword ∈ clauseKeywords)
      (hsign : ¬ Occurs isAsciiBlank keyword "contains".toList) :=
    variableName.not_occurs_append hk hsign (not_occurs_contained any value hk)
  have hread : readCut? "contains".toList contained? (variableName.text ++ ' ' ::
      ("contains".toList ++ ' ' :: (if any then "any ".toList ++ value.text else value.text)))
      = some (variableName.text, value.text) :=
    variableName.readCut?_append (by decide) (Test.contains any value).startsInk_operand
      (contained?_any any value) (Or.inl (not_occurs_contained any value (by decide)))
  refine readCondition_of_containment (readRange?_eq_none (hnone _ (by decide) (by decide)))
    (readList?_eq_none (hnone _ (by decide) (by decide))) ?_
  rw [readContainment?, hread, Option.map_some]

theorem readCondition_between (low high : Decimal) :
    readCondition (variableName.text ++ ' ' :: ("between".toList
        ++ ' ' :: (low.text ++ " and ".toList ++ high.text)))
      = .ok (.on variableName.text .isIn (Test.between low high).value) := by
  have hagain : ¬ Occurs isAsciiBlank "between".toList
      (low.text ++ ' ' :: ("and".toList ++ ' ' :: high.text)) := by
    rw [occurs_append_cons (by decide) (by decide) (by decide),
      occurs_append_cons (by decide) (by decide) (by decide), not_or, not_or]
    exact ⟨not_occurs_of_no_letters (by decide) fun _ => low.isAlpha_of_mem, by decide,
      not_occurs_of_no_letters (by decide) fun _ => high.isAlpha_of_mem⟩
  have hread : readCut? "between".toList rangeBounds? (variableName.text ++ ' ' ::
      ("between".toList ++ ' ' :: (low.text ++ " and ".toList ++ high.text)))
      = some (variableName.text, low.text, high.text) :=
    variableName.readCut?_append (by decide) (Test.between low high).startsInk_operand
      (rangeBounds?_append low high) (Or.inl (by simpa using hagain))
  apply readCondition_of_range
  rw [readRange?, hread, Option.map_some]
  rfl

theorem readCondition_oneOf (list : Items) :
    readCondition (variableName.text ++ ' ' :: ("in".toList ++ ' ' :: list.text))
      = .ok (.on variableName.text .isIn list.quoted) := by
  have hread : readCut? "in".toList listItems?
      (variableName.text ++ ' ' :: ("in".toList ++ ' ' :: list.text))
      = some (variableName.text, join ", ".toList list.items) :=
    variableName.readCut?_append (by decide) (Test.oneOf list).startsInk_operand
      list.listItems?_text (Or.inr rfl)
  apply readCondition_of_list (readRange?_list variableName list)
  rw [readList?, hread, Option.map_some, ← list.quotedList_join]

end Variable

/-- **A written clause is read as the condition it says.** -/
theorem Clause.readCondition_text (clause : Clause) :
    readCondition clause.text = .ok clause.condition := by
  obtain ⟨variableName, test⟩ := clause
  cases test with
  | equals value => exact readCondition_equals variableName value
  | compares sign hsign value => exact readCondition_compares variableName value hsign
  | contains any value => exact readCondition_contains variableName value any
  | between low high => exact readCondition_between variableName low high
  | oneOf list => exact readCondition_oneOf variableName list

end RuleTable
