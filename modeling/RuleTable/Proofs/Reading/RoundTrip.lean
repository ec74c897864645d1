import RuleTable.Proofs.Reading.Written

/-!
# Reading undoes writing

**A written rule** is one or more written clauses, joined with the word `and`, and one or more
assignments, joined in the same way, with a full stop at the end or without. The scans of a line
pass over the clauses one by one, over a range through the place behind its `and` and over a list
through its parentheses, so the line comes apart into the parts it was put together from; each of
them is read as what it says, and **the line is read as the rule that was written**.
-/

set_option autoImplicit false

namespace RuleTable

open Text

/-! ## The scans pass over a clause -/

section Passes

variable (variableName : Variable) {sign operand : Text}

theorem flat_append (hsign : ∀ c ∈ sign, c ≠ ',' ∧ c ≠ '(' ∧ c ≠ ')')
    (hoperand : ∀ c ∈ operand, c ≠ ',' ∧ c ≠ '(' ∧ c ≠ ')') :
    ∀ c ∈ variableName.text ++ ' ' :: (sign ++ ' ' :: operand), c ≠ ',' ∧ c ≠ '(' ∧ c ≠ ')' := by
  intro c hc
  simp only [List.mem_append, List.mem_cons] at hc
  rcases hc with hc | rfl | hc | rfl | hc
  · exact variableName.flat c hc
  · decide
  · exact hsign c hc
  · decide
  · exact hoperand c hc

/-- **Where neither the sign nor the operand is special**, the scans pass over a clause. -/
theorem passes_append (hsign : ∀ c ∈ sign, c ≠ ',' ∧ c ≠ '(' ∧ c ≠ ')')
    (hoperand : ∀ c ∈ operand, c ≠ ',' ∧ c ≠ '(' ∧ c ≠ ')')
    (hand : ¬ Occurs isAsciiBlank "and".toList sign ∧ ¬ Occurs isAsciiBlank "and".toList operand)
    (hbetween : ¬ Occurs (! joinsKeyword ·) "between".toList sign ∧
      ¬ Occurs (! joinsKeyword ·) "between".toList operand) :
    Passes (variableName.text ++ ' ' :: (sign ++ ' ' :: operand)) := by
  apply passes_of_forall fun c hc => (flat_append variableName hsign hoperand c hc).2
  · exact variableName.not_occurs_append (by decide) hand.1 hand.2
  · rw [variableName.occurs_between_append_iff,
      occurs_append_cons (by decide) (by decide) (by decide), not_or]
    exact hbetween

theorem firstToken?_append {token rest : Text} (hne : token ≠ [])
    (h : ∀ c ∈ token, isBlank c = false) (hrest : EndsWord rest) :
    firstToken? (token ++ rest) = some token := by
  have hink : ∀ c ∈ token, (! isAsciiBlank c) = true := by
    intro c hc
    rw [isAsciiBlank_of_isBlank (h c hc), Bool.not_false]
  have hskip : skipBlanks (token ++ rest) = token ++ rest :=
    skipBlanks_eq_self ((startsInk_of_forall hne h).append rest)
  have hstops : Stops (! isAsciiBlank ·) rest := by
    intro c hc
    simp [hrest c hc]
  have htake : (token ++ rest).takeWhile (! isAsciiBlank ·) = token :=
    takeWhile_append_of_stops hink hstops
  rw [firstToken?, hskip, htake]
  cases token with
  | nil => exact absurd rfl hne
  | cons c token => rfl

/-- **The scan passes over a range**: its `between` leads into it, and its `and` out of it, since a
numeral follows. -/
theorem passes_between (low high : Decimal) :
    Passes (variableName.text ++ ' ' :: ("between".toList
      ++ ' ' :: (low.text ++ " and ".toList ++ high.text))) := by
  intro rest hrest
  have hdigits (decimal : Decimal) : ∀ c ∈ decimal.text, c.isAlpha = false :=
    fun _ => decimal.isAlpha_of_mem
  have hflat : ∀ c ∈ variableName.text ++ ' ' :: ("between".toList ++ ' ' :: low.text),
      c ≠ ',' ∧ c ≠ '(' ∧ c ≠ ')' := flat_append variableName (by decide) low.flat
  have hand : ¬ Occurs isAsciiBlank "and".toList
      (variableName.text ++ ' ' :: ("between".toList ++ ' ' :: low.text)) :=
    variableName.not_occurs_append (by decide) (by decide)
      (not_occurs_of_no_letters (by decide) (hdigits low))
  have hopens : OpensIn [] (variableName.text ++ ' ' :: ("between".toList ++ ' ' :: low.text)) := by
    rw [opensIn_nil_iff, variableName.occurs_between_append_iff,
      occurs_append_cons (by decide) (by decide) (by decide)]
    exact Or.inl (by decide)
  have hend : EndsWord (" and ".toList ++ high.text ++ rest) := endsWord_cons (by decide) _
  have hinto := leads_top_range (fun c hc => (hflat c hc).2) (hend.noConjunction hand) hopens hend
  have hnumeral : (firstToken? (high.text ++ rest)).any isNumeral = true := by
    rw [firstToken?_append high.text_ne_nil (fun _ => high.isBlank_eq_false_of_mem) hrest]
    exact high.isNumeral_text
  have hthrough (before : Text) : Leads .range before " and ".toList (high.text ++ rest) .top := by
    rw [Leads, conditionClausesFrom_range_and, if_pos hnumeral]
  have hout (before : Text) : Leads .top before high.text rest .top :=
    leads_top (fun c hc => (high.flat c hc).2)
      (hrest.noConjunction (not_occurs_of_no_letters (by decide) (hdigits high)))
      (not_opensIn_of_no_letters (hdigits high)) hrest
  -- Into the range, past its `and`, and out behind the numeral.
  have hall := hinto.append ((hthrough _).append (hout _))
  simpa using hall

/-- In front of a parenthesis a space starts no conjunction. -/
theorem startsConjunction_paren (rest : Text) : startsConjunction (' ' :: '(' :: rest) = false := by
  rw [← Bool.not_eq_true, startsConjunction_iff]
  rintro ⟨b₁, w, b₂, after, heq, -, hsame, -⟩
  obtain ⟨hne, hletters⟩ := IsKeyword.of_sameLetters (by decide) hsame
  obtain ⟨c, w, rfl⟩ := List.exists_cons_of_ne_nil hne
  obtain ⟨-, htail⟩ := List.cons.inj heq
  obtain ⟨rfl, -⟩ := List.cons.inj htail
  exact absurd (hletters _ List.mem_cons_self) (by decide)

/-- **The scan passes over a list** and over whatever its items say. -/
theorem passes_oneOf (list : Items) :
    Passes (variableName.text ++ ' ' :: ("in".toList ++ ' ' :: list.text)) := by
  intro rest _
  have hand : ¬ Occurs isAsciiBlank "and".toList (variableName.text ++ ' ' :: "in".toList) := by
    rw [variableName.occurs_append_iff (by decide)]
    decide
  have hshut : ¬ OpensIn [] (variableName.text ++ ' ' :: "in".toList) := by
    rw [opensIn_nil_iff, variableName.occurs_between_append_iff]
    decide
  have hflat : ∀ c ∈ variableName.text ++ ' ' :: "in".toList, c ≠ '(' ∧ c ≠ ')' := by
    have hword : ∀ c ∈ ' ' :: "in".toList, c ≠ '(' ∧ c ≠ ')' := by decide
    intro c hc
    rcases List.mem_append.mp hc with hc | hc
    · exact (variableName.flat c hc).2
    · exact hword c hc
  have hend (after : Text) : EndsWord (' ' :: after) := endsWord_cons (by decide) after
  have hfront (after : Text) :
      Leads .top [] (variableName.text ++ ' ' :: "in".toList) (' ' :: after) .top :=
    leads_top hflat ((hend after).noConjunction hand) hshut (hend after)
  have hspace (before after : Text) : Leads .top before [' '] ('(' :: after) .top :=
    Leads.cons (scan_top (by decide) (by decide) (opensRange_of_isAlpha (by decide))
      (startsConjunction_paren after)) leads_nil
  have hopen (before after : Text) : Leads .top before ['('] after (.parens 0) :=
    Leads.cons rfl leads_nil
  have hitems (before after : Text) :
      Leads (.parens 0) before (join ", ".toList list.items) after (.parens 0) :=
    leads_parens fun _ => list.ne_paren_of_mem
  have hclose (before after : Text) : Leads (.parens 0) before [')'] after .top :=
    Leads.cons rfl leads_nil
  have hall := (hfront _).append ((hspace _ _).append
    ((hopen _ _).append ((hitems _ _).append (hclose _ rest))))
  simpa [Items.text] using hall

end Passes

namespace Clause

/-- **The scan for `and` passes over a written clause.** -/
theorem passes_text (clause : Clause) : Passes clause.text := by
  obtain ⟨variableName, test⟩ := clause
  have hflat := test.flat_sign
  cases test with
  | equals value =>
      have hand : ¬ Occurs isAsciiBlank "and".toList "is".toList := by decide
      have hbetween : ¬ Occurs (! joinsKeyword ·) "between".toList "is".toList := by decide
      exact passes_append variableName hflat value.flat ⟨hand, value.not_occurs (by decide)⟩
        ⟨hbetween, value.not_occurs_between⟩
  | compares sign hsign value =>
      exact passes_append variableName hflat value.flat
        ⟨not_occurs_token hsign (by decide), value.not_occurs (by decide)⟩
        ⟨not_occurs_token hsign (by decide), value.not_occurs_between⟩
  | contains any value =>
      have hand : ¬ Occurs isAsciiBlank "and".toList "contains".toList := by decide
      have hbetween : ¬ Occurs (! joinsKeyword ·) "between".toList "contains".toList := by decide
      exact passes_append variableName hflat (flat_contained any value)
        ⟨hand, not_occurs_contained any value (by decide)⟩
        ⟨hbetween, not_occurs_any any value (by decide) (by decide) (by decide)
          value.not_occurs_between⟩
  | between low high => exact passes_between variableName low high
  | oneOf list => exact passes_oneOf variableName list

/-- **The scan for the separator passes over a written clause.** -/
theorem isClosed_text (clause : Clause) : IsClosed clause.text := by
  obtain ⟨variableName, test⟩ := clause
  have hflat := test.flat_sign
  cases test with
  | equals value => exact isClosed_of_forall (flat_append variableName hflat value.flat)
  | compares sign hsign value =>
      exact isClosed_of_forall (flat_append variableName hflat value.flat)
  | contains any value =>
      exact isClosed_of_forall (flat_append variableName hflat (flat_contained any value))
  | between low high =>
      have hand : ∀ c ∈ " and ".toList, c ≠ ',' ∧ c ≠ '(' ∧ c ≠ ')' := by decide
      refine isClosed_of_forall (flat_append variableName hflat fun c hc => ?_)
      rcases List.mem_append.mp hc with hc | hc
      · rcases List.mem_append.mp hc with hc | hc
        · exact low.flat c hc
        · exact hand c hc
      · exact high.flat c hc
  | oneOf list =>
      have hin : IsClosed " in ".toList := isClosed_of_forall (by decide)
      have hlist : IsClosed list.text := by
        rw [Items.text]
        exact isClosed_parens fun c hc => list.ne_paren_of_mem hc
      have hboth := (isClosed_of_forall variableName.flat).append (hin.append hlist)
      have htext : " in ".toList ++ list.text = ' ' :: ("in".toList ++ ' ' :: list.text) := by simp
      rwa [htext] at hboth

/-- **Written clauses come apart again.** -/
theorem conditionClauses_join_text {clauses : List Clause} (hne : clauses ≠ []) :
    conditionClauses (join " and ".toList (clauses.map text)) = clauses.map text := by
  have hclause (clause : Clause) : clauseOf clause.text = [clause.text] :=
    clauseOf_eq clause.trim_text clause.text_ne_nil
  rw [← List.dropLast_concat_getLast hne, List.map_append, List.map_singleton]
  apply conditionClauses_join
  · intro text htext
    obtain ⟨clause, -, rfl⟩ := List.mem_map.mp htext
    exact ⟨clause.passes_text, hclause clause⟩
  · exact (conditionClausesFrom_of_leads ((clauses.getLast hne).passes_text [] endsWord_nil)).trans
      (hclause _)

theorem readConditions_join_text {clauses : List Clause} (hne : clauses ≠ []) :
    readConditions (join " and ".toList (clauses.map text)) = .ok (clauses.map condition) := by
  rw [readConditions, conditionClauses_join_text hne, mapM_eq_ok_iff, List.forall₂_map_left_iff,
    List.forall₂_map_right_iff, List.forall₂_same]
  exact fun clause _ => clause.readCondition_text

end Clause

/-! ## Assignments -/

/-- **An assignment as it is written**: a variable, the word `is` and a value. The value does not
end with a full stop. -/
structure Assignment where
  variableName : Variable
  value : Phrase
  avoids : ∀ keyword ∈ ["and".toList, "is".toList], value.Avoids keyword
  noStop : value.text.getLast? ≠ some '.'

namespace Assignment

/-- The text of an assignment. -/
def text (assignment : Assignment) : Text :=
  assignment.variableName.text ++ ' ' :: ("is".toList ++ ' ' :: assignment.value.text)

/-- The action that an assignment says. -/
def action (assignment : Assignment) : Action :=
  .set assignment.variableName.text assignment.value.text

variable (assignment : Assignment)

theorem startsInk_text : StartsInk assignment.text :=
  assignment.variableName.startsInk.append _

theorem endsInk_text : EndsInk assignment.text := by
  have hend := assignment.value.endsInk.append
    (assignment.variableName.text ++ ' ' :: ("is".toList ++ [' ']))
  simpa [text] using hend

theorem not_occurs_and : ¬ Occurs isAsciiBlank "and".toList assignment.text :=
  assignment.variableName.not_occurs_append (by decide) (by decide)
    (assignment.value.not_occurs (by decide) (assignment.avoids _ (by decide)))

theorem readEquality?_text :
    readEquality? assignment.text
      = some (assignment.variableName.text, assignment.value.text) :=
  assignment.variableName.readCut?_append (by decide) assignment.value.startsInk
    (someText?_eq_some_iff.mpr ⟨rfl, assignment.value.text_ne_nil⟩)
    (Or.inl (assignment.value.not_occurs (by decide) (assignment.avoids _ (by decide))))

/-- **An assignment is read as the action it says**, with a full stop or without. -/
theorem readAction_text (fullStop : Bool) :
    readAction (assignment.text ++ if fullStop then ['.'] else []) = .ok assignment.action := by
  have hdrop : dropFullStop (assignment.text ++ if fullStop then ['.'] else [])
      = assignment.text := by
    cases fullStop with
    | true => simp [dropFullStop]
    | false =>
        have hsplit : assignment.text = assignment.variableName.text ++ " is ".toList
            ++ assignment.value.text := by simp [text]
        have hlast : assignment.text.getLast? ≠ some '.' := by
          rw [hsplit, List.getLast?_append_of_ne_nil _ assignment.value.text_ne_nil]
          exact assignment.noStop
        simp [dropFullStop, hlast]
  have htrim : trimEnd (assignment.text ++ []) = assignment.text :=
    trimEnd_append_of_endsInk assignment.endsInk_text (by simp)
  rw [List.append_nil] at htrim
  simp only [readAction, hdrop, htrim, assignment.readEquality?_text]
  rfl

/-- The text of an assignment is an action, with a full stop or without. -/
theorem isAction_text (fullStop : Bool) :
    StartsInk (assignment.text ++ if fullStop then ['.'] else []) ∧
      EndsInk (assignment.text ++ if fullStop then ['.'] else []) ∧
      ¬ Occurs isAsciiBlank "and".toList (assignment.text ++ if fullStop then ['.'] else []) := by
  refine ⟨assignment.startsInk_text.append _, ?_, ?_⟩
  · cases fullStop with
    | true => exact EndsInk.append ⟨[], '.', rfl, by decide⟩ _
    | false => simpa using assignment.endsInk_text
  · cases fullStop with
    | true => exact not_occurs_concat (by decide) (by decide) (by decide) assignment.not_occurs_and
    | false => simpa using assignment.not_occurs_and

theorem text_append_ne_stop (after : Text) : assignment.text ++ after ≠ ['.'] := by
  intro h
  have hlength := congrArg List.length h
  simp only [text, List.length_append, List.length_cons, List.length_nil] at hlength
  omega

theorem ink_join_text {assignments : List Assignment} (hne : assignments ≠ []) (fullStop : Bool) :
    StartsInk (join " and ".toList (assignments.map text) ++ if fullStop then ['.'] else []) ∧
      EndsInk (join " and ".toList (assignments.map text) ++ if fullStop then ['.'] else []) := by
  have hne' : assignments.map text ≠ [] := by simpa using hne
  have hstart : StartsInk (join " and ".toList (assignments.map text)) := by
    refine startsInk_join hne' fun clause hclause => ?_
    obtain ⟨assignment, -, rfl⟩ := List.mem_map.mp hclause
    exact assignment.startsInk_text
  have hend : EndsInk (join " and ".toList (assignments.map text)) := by
    refine endsInk_join hne' fun clause hclause => ?_
    obtain ⟨assignment, -, rfl⟩ := List.mem_map.mp hclause
    exact assignment.endsInk_text
  refine ⟨hstart.append _, ?_⟩
  cases fullStop with
  | true => exact EndsInk.append ⟨[], '.', rfl, by decide⟩ _
  | false => simpa using hend

/-- **Written assignments are read as the actions they say.** -/
theorem readActions_join_text {assignments : List Assignment} (hne : assignments ≠ [])
    (fullStop : Bool) :
    readActions (join " and ".toList (assignments.map text) ++ if fullStop then ['.'] else [])
      = .ok (assignments.map action) := by
  -- The full stop belongs to the last assignment.
  obtain ⟨earlier, last, rfl⟩ : ∃ earlier last, assignments = earlier ++ [last] :=
    ⟨_, _, (List.dropLast_concat_getLast hne).symm⟩
  have hplain (assignment : Assignment) :
      assignment.text ++ (if false then ['.'] else []) = assignment.text := by simp
  have hmem : ∀ clause ∈ earlier.map text ++ [last.text ++ if fullStop then ['.'] else []],
      ∃ (assignment : Assignment) (stop : Bool),
        clause = assignment.text ++ if stop then ['.'] else [] := by
    intro clause hclause
    rcases List.mem_append.mp hclause with hclause | hclause
    · obtain ⟨assignment, -, rfl⟩ := List.mem_map.mp hclause
      exact ⟨assignment, false, (hplain assignment).symm⟩
    · exact ⟨last, fullStop, List.mem_singleton.mp hclause⟩
  have hclauses : actionClauses (join " and ".toList
        (earlier.map text ++ [last.text ++ if fullStop then ['.'] else []]))
      = earlier.map text ++ [last.text ++ if fullStop then ['.'] else []] := by
    refine actionClauses_join (List.concat_ne_nil _ _) fun clause hclause => ?_
    obtain ⟨assignment, stop, rfl⟩ := hmem clause hclause
    exact assignment.isAction_text stop
  have hfilter : (earlier.map text ++ [last.text ++ if fullStop then ['.'] else []]).filter
      (· != ['.']) = earlier.map text ++ [last.text ++ if fullStop then ['.'] else []] := by
    refine List.filter_eq_self.mpr fun clause hclause => ?_
    obtain ⟨assignment, stop, rfl⟩ := hmem clause hclause
    exact bne_iff_ne.mpr (assignment.text_append_ne_stop _)
  rw [List.map_append, List.map_singleton, join_append_singleton, readActions, hclauses, hfilter,
    mapM_eq_ok_iff, List.map_append, List.map_singleton]
  apply List.rel_append
  · rw [List.forall₂_map_left_iff, List.forall₂_map_right_iff, List.forall₂_same]
    intro assignment _
    rw [← hplain assignment]
    exact assignment.readAction_text false
  · exact List.Forall₂.cons (last.readAction_text fullStop) List.Forall₂.nil

end Assignment

/-! ## Rules -/

/-- **A rule as it is written**: clauses, assignments, and a full stop or none. -/
structure WrittenRule where
  clauses : List Clause
  assignments : List Assignment
  fullStop : Bool
  clauses_ne_nil : clauses ≠ []
  assignments_ne_nil : assignments ≠ []

namespace WrittenRule

/-- The line of a rule. -/
def line (written : WrittenRule) : Text :=
  "If ".toList ++ (join " and ".toList (written.clauses.map Clause.text) ++ ", ".toList
    ++ (join " and ".toList (written.assignments.map Assignment.text)
      ++ if written.fullStop then ['.'] else []))

/-- The rule that is written, with `suffix` at the end of its id. -/
def rule (written : WrittenRule) (suffix : Text) : Rule where
  id := RuleForm.when.idStem ++ suffix
  conditions := written.clauses.map Clause.condition
  actions := written.assignments.map Assignment.action
  source := written.line
  conditions_ne_nil := by simpa using written.clauses_ne_nil
  actions_ne_nil := by simpa using written.assignments_ne_nil

/-- **Reading undoes writing**: the line of a written rule is read as that rule. -/
theorem readRule_line (written : WrittenRule) (suffix : Text) :
    readRule suffix written.line = .ok (written.rule suffix) := by
  have hclosed : IsClosed (join " and ".toList (written.clauses.map Clause.text)) := by
    refine isClosed_join (isClosed_of_forall (by decide)) fun text htext => ?_
    obtain ⟨clause, -, rfl⟩ := List.mem_map.mp htext
    exact clause.isClosed_text
  have hconditions : trim (join " and ".toList (written.clauses.map Clause.text))
      = join " and ".toList (written.clauses.map Clause.text) := by
    refine trim_join (by simpa using written.clauses_ne_nil) fun text htext => ?_
    obtain ⟨clause, -, rfl⟩ := List.mem_map.mp htext
    exact ⟨clause.trim_text, clause.text_ne_nil⟩
  obtain ⟨hstart, hend⟩ :=
    Assignment.ink_join_text written.assignments_ne_nil written.fullStop
  exact (readRule_halves_iff hclosed hconditions (trim_eq_self hstart hend) hstart.ne_nil).mpr
    ⟨rfl, rfl, Clause.readConditions_join_text written.clauses_ne_nil,
      Assignment.readActions_join_text written.assignments_ne_nil written.fullStop⟩

/-- One word, as a phrase. -/
def word (text : Text) (h : text ≠ [] ∧ ∀ c ∈ text, isBlank c = false) : Phrase :=
  ⟨[text], List.cons_ne_nil _ _, List.forall_mem_singleton.mpr h⟩

/-- A rule with a clause of each shape; an item of its list is left empty. -/
def everyShape : WrittenRule where
  clauses :=
    [⟨⟨word "status".toList (by decide), by decide, by decide, by decide⟩,
        .equals ⟨word "open".toList (by decide), by decide, by decide, by decide⟩⟩,
      ⟨⟨⟨["total".toList, "amount".toList], by decide, by decide⟩, by decide, by decide, by decide⟩,
        .compares .greaterOrEqual (by decide)
          ⟨word "3".toList (by decide), by decide, by decide, by decide⟩⟩,
      ⟨⟨word "note".toList (by decide), by decide, by decide, by decide⟩,
        .contains true
          ⟨⟨["late".toList, "fee".toList], by decide, by decide⟩, by decide, by decide, by decide⟩⟩,
      ⟨⟨word "age".toList (by decide), by decide, by decide, by decide⟩,
        .between ⟨"18".toList, none, by decide, by decide⟩
          ⟨"65".toList, some "5".toList, by decide, by decide⟩⟩,
      ⟨⟨word "tier".toList (by decide), by decide, by decide, by decide⟩,
        .oneOf ⟨["gold".toList, []], by decide, by decide, by decide, by decide⟩⟩]
  assignments :=
    [⟨⟨word "rate".toList (by decide), by decide, by decide, by decide⟩,
      word "25%".toList (by decide), by decide, by decide⟩]
  fullStop := true
  clauses_ne_nil := List.cons_ne_nil _ _
  assignments_ne_nil := List.cons_ne_nil _ _

/-- **The line of that rule** is read as what its clauses say. -/
theorem readRule_everyShape :
    everyShape.line = ("If status is open and total amount >= 3 and note contains any late fee " ++
      "and age between 18 and 65.5 and tier in (gold, ), rate is 25%.").toList ∧
    ∃ rule, readRule "1".toList everyShape.line = .ok rule ∧
      rule.conditions = [.on "status".toList .equals "open".toList,
        .on "total amount".toList .greaterOrEqual "3".toList,
        .on "note".toList .contains "late fee".toList,
        .on "age".toList .isIn "[18..65.5]".toList,
        .on "tier".toList .isIn "[\"gold\", \"\"]".toList] ∧
      rule.actions = [.set "rate".toList "25%".toList] :=
  ⟨by decide +kernel, _, readRule_line everyShape "1".toList, by decide, by decide⟩

end WrittenRule

end RuleTable
