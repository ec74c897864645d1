import RuleTable.Proofs.Reading.Rules
import RuleTable.Proofs.Text.Runs
import RuleTable.Reading.RuleText

/-!
# The ids of rules that are read

The id of a rule is a word for its form and a suffix that was drawn for it. Ids go into longer
ids, with `_` and the name of a column behind them, and `_` occurs in the words for forms and in
column names as well. Still, **the ids of rules with different suffixes stay apart**, whatever is
written behind them, because a drawn suffix holds no `_` and is no word for a form.
-/

set_option autoImplicit false

namespace RuleTable

open Text

/-! ## Suffixes -/

/-- Whether a character is a hexadecimal digit, in lower case. -/
def isLowerHexDigit (c : Char) : Bool := c.isDigit || ('a' ≤ c && c ≤ 'f')

/-- **A drawn suffix**: eight hexadecimal digits in lower case, or the mark `#` and a number. -/
def IsDrawn (suffix : Text) : Prop :=
  (suffix.length = 8 ∧ suffix.all isLowerHexDigit = true) ∨
    ∃ digits : Text, suffix = '#' :: digits ∧ digits.all Char.isDigit = true

/-- A drawn suffix holds no `_`. -/
theorem IsDrawn.underscore_notMem {suffix : Text} (h : IsDrawn suffix) : '_' ∉ suffix := by
  intro hu
  rcases h with ⟨-, hall⟩ | ⟨digits, rfl, hall⟩
  · exact absurd (List.all_eq_true.mp hall _ hu) (by decide)
  · rcases List.mem_cons.mp hu with hmark | hu
    · exact absurd hmark (by decide)
    · exact absurd (List.all_eq_true.mp hall _ hu) (by decide)

/-- A drawn suffix is not the word for the other form of rules. -/
theorem IsDrawn.ne_otherwise {suffix : Text} (h : IsDrawn suffix) : suffix ≠ "otherwise".toList := by
  rintro rfl
  rcases h with ⟨hlength, -⟩ | ⟨digits, hmark, -⟩
  · exact absurd hlength (by decide)
  · exact absurd (List.cons.inj hmark).1 (by decide)

/-! ## Ids that stay apart -/

/-- The part of an id before its first `_`. -/
def firstPart (id : Text) : Text := id.takeWhile (· != '_')

/-- What holds no `_` is the first part of what is put together with it. -/
theorem firstPart_append {part : Text} (rest : Text) (h : '_' ∉ part) :
    firstPart (part ++ '_' :: rest) = part := by
  have hpart : ∀ c ∈ part, (c != '_') = true := by
    intro c hc
    simpa using ne_of_mem_of_not_mem hc h
  exact takeWhile_append_of_stops hpart (stops_cons.mpr (by decide))

/-- **Two ids stay apart**: with `_` and any text behind each of them they differ. -/
def IdsApart (id other : Text) : Prop :=
  ∀ rest rest' : Text, id ++ '_' :: rest ≠ other ++ '_' :: rest'

/-- Ids that stay apart differ. -/
theorem IdsApart.ne {id other : Text} (h : IdsApart id other) : id ≠ other := by
  rintro rfl
  exact h [] [] rfl

/-- **Ids with different suffixes stay apart**, whatever the forms of their rules. -/
theorem idsApart_of_suffix_ne {suffix suffix' : Text} (form form' : RuleForm)
    (hs : IsDrawn suffix) (hs' : IsDrawn suffix') (hne : suffix ≠ suffix') :
    IdsApart (form.idStem ++ suffix) (form'.idStem ++ suffix') := by
  intro rest rest' heq
  have hwhen : RuleForm.idStem .when = "rule_".toList := rfl
  have hother : RuleForm.idStem .otherwise = "rule_".toList ++ "otherwise".toList ++ ['_'] := rfl
  -- Behind `rule_` stands the suffix or the word `otherwise`, up to the next `_`.
  have hword : '_' ∉ "otherwise".toList := by decide
  cases form <;> cases form'
  · simp only [hwhen, List.append_assoc, List.append_cancel_left_eq] at heq
    have hfirst := congrArg firstPart heq
    rw [firstPart_append _ hs.underscore_notMem, firstPart_append _ hs'.underscore_notMem] at hfirst
    exact hne hfirst
  · simp only [hwhen, hother, List.append_assoc, List.append_cancel_left_eq,
      List.cons_append] at heq
    have hfirst := congrArg firstPart heq
    rw [firstPart_append _ hs.underscore_notMem, firstPart_append _ hword] at hfirst
    exact hs.ne_otherwise hfirst
  · simp only [hwhen, hother, List.append_assoc, List.append_cancel_left_eq,
      List.cons_append] at heq
    have hfirst := congrArg firstPart heq
    rw [firstPart_append _ hword, firstPart_append _ hs'.underscore_notMem] at hfirst
    exact hs'.ne_otherwise hfirst.symm
  · simp only [hother, List.append_assoc, List.append_cancel_left_eq] at heq
    have hfirst := congrArg firstPart heq
    rw [firstPart_append _ hs.underscore_notMem, firstPart_append _ hs'.underscore_notMem] at hfirst
    exact hne hfirst

/-! ## The rules of a text -/

/-- **The id of a rule that is read** ends with the suffix. -/
theorem exists_id_of_readRule {suffix line : Text} {rule : Rule}
    (h : readRule suffix line = .ok rule) : ∃ form : RuleForm, rule.id = form.idStem ++ suffix := by
  obtain ⟨-, form, rest, -, hid, -⟩ := readRule_eq_ok_iff.mp h
  exact ⟨form, hid⟩

namespace RuleText

/-- **Each rule of some lines has the suffix of its place** among all rules in its id. -/
theorem exists_forms_of_readFrom (suffix : Nat → Text) (count : Nat) (lines : List (Text × Nat)) :
    ∃ forms : List RuleForm, (readFrom suffix count lines).rules.map (·.id)
      = (forms.zipIdx count).map fun form => form.1.idStem ++ suffix form.2 := by
  fun_induction readFrom suffix count lines with
  | case1 count => exact ⟨[], rfl⟩
  | case2 count line number rest text hi ih => exact ih
  | case3 count line number rest text hi rule hread later ih =>
      obtain ⟨forms, hforms⟩ := ih
      obtain ⟨form, hform⟩ := exists_id_of_readRule hread
      refine ⟨form :: forms, ?_⟩
      rw [List.map_cons, hform, hforms, List.zipIdx_cons, List.map_cons]
  | case4 count line number rest text hi error hread later ih => exact ih

end RuleText

/-- **The ids of some rules are drawn apart**: each of them is of the kind of rules, and any two of
them stay apart. -/
structure DrawnApart (rules : List Rule) : Prop where
  kind : ∀ rule ∈ rules, firstPart rule.id = "rule".toList
  apart : rules.Pairwise fun rule other => IdsApart rule.id other.id

/-- What holds of the ids of some rules holds of those of a part of them. -/
theorem DrawnApart.sublist {rules part : List Rule} (h : DrawnApart rules)
    (hp : part.Sublist rules) : DrawnApart part :=
  ⟨fun rule hr => h.kind rule (hp.subset hr), h.apart.sublist hp⟩

/-- The id of a rule is of the kind of rules, whatever its form. -/
theorem firstPart_idStem (form : RuleForm) (suffix : Text) :
    firstPart (form.idStem ++ suffix) = "rule".toList := by
  have hword : '_' ∉ "rule".toList := by decide
  cases form with
  | when => exact firstPart_append suffix hword
  | otherwise => exact firstPart_append ("otherwise_".toList ++ suffix) hword

/-- **The ids of the rules of a text are drawn apart** if different suffixes are drawn for them. -/
theorem RuleText.drawnApart {suffix : Nat → Text} {text : Text}
    (hdrawn : ∀ n < (read suffix text).rules.length, IsDrawn (suffix n))
    (hne : ∀ m n, m < n → n < (read suffix text).rules.length → suffix m ≠ suffix n) :
    DrawnApart (read suffix text).rules := by
  obtain ⟨forms, hforms⟩ : ∃ forms : List RuleForm, (read suffix text).rules.map (·.id) = _ :=
    exists_forms_of_readFrom suffix 0 ((lines text).zipIdx 1)
  have hlength : forms.length = (read suffix text).rules.length := by
    simpa using (congrArg List.length hforms).symm
  constructor
  · intro rule hr
    have hid : rule.id ∈ (read suffix text).rules.map (·.id) := List.mem_map.mpr ⟨rule, hr, rfl⟩
    rw [hforms] at hid
    obtain ⟨⟨form, n⟩, -, hid⟩ := List.mem_map.mp hid
    rw [← hid, firstPart_idStem]
  · rw [← List.pairwise_map (f := fun rule : Rule => rule.id), hforms, List.pairwise_iff_getElem]
    intro m n hm hn hlt
    have hnr : n < (read suffix text).rules.length := by simpa [← hlength] using hn
    simp only [List.getElem_map, List.getElem_zipIdx, Nat.zero_add]
    exact idsApart_of_suffix_ne _ _ (hdrawn m (by omega)) (hdrawn n hnr) (hne m n hlt hnr)

end RuleTable
