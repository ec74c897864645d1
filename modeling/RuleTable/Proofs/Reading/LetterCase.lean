import RuleTable.Proofs.Reading.Ids
import RuleTable.Proofs.Reading.Scan
import RuleTable.Proofs.Reading.Texts
import RuleTable.Proofs.Text.LetterCase

/-!
# Reading ignores the case of letters

Two lines that differ only in the case of ASCII letters are read alike: as rules that differ only in
the case of letters in their values, or with errors that differ only in the case of letters in what
they show. **Each reader is blind to case**: to fold a text and then read it is to read it and then
fold what was read. So lines that are equal when folded are read alike.
-/

set_option autoImplicit false

namespace RuleTable

open Text

/-! ## Folding what is read -/

/-- A condition with its value folded. -/
def Condition.folded (condition : Condition) : Condition :=
  { condition with value := Text.folded condition.value }

/-- An action with its value folded. -/
def Action.folded (action : Action) : Action :=
  { action with value := Text.folded action.value }

/-- A rule with its values and its source folded. -/
def Rule.folded (rule : Rule) : Rule where
  id := rule.id
  conditions := rule.conditions.map (·.folded)
  actions := rule.actions.map (·.folded)
  source := Text.folded rule.source
  conditions_ne_nil := by simpa using rule.conditions_ne_nil
  actions_ne_nil := by simpa using rule.actions_ne_nil

/-- An error with the text it shows folded. -/
def LineError.folded : LineError → LineError
  | empty => empty
  | noKeyword line => noKeyword (Text.folded line)
  | noSeparator line => noSeparator (Text.folded line)
  | unreadable half clause => unreadable half (Text.folded clause)

/-- What a reader gives, folded. -/
def foldedResult {α : Type} (fold : α → α) : Except LineError α → Except LineError α
  | .ok value => .ok (fold value)
  | .error error => .error error.folded

section Readers

variable {α : Type} {fold : α → α} {clause : Text}

/-! ## Clauses -/

theorem isVariable_folded (text : Text) : isVariable (folded text) = isVariable text := by
  cases text with
  | nil => rfl
  | cons c text =>
      have hrest : Blind fun c => c.isAlphanum || c == '_' || isAsciiBlank c :=
        (blind_isAlphanum.or (blind_beq (by decide))).or blind_isAsciiBlank
      rw [folded_cons, isVariable, isVariable, blind_isAlpha c, beq_toLower (by decide),
        all_folded hrest]

/-- A cut with both of its sides folded. -/
def Cut.folded (cut : Cut) : Cut := ⟨Text.folded cut.before, Text.folded cut.after⟩

theorem here?_folded (keyword before text : Text) :
    Cut.here? keyword (folded before) (folded text)
      = (Cut.here? keyword before text).map Cut.folded := by
  rw [Cut.here?, Cut.here?, startsBlank_folded, dropWord?_folded]
  cases dropWord? keyword text with
  | none => split <;> rfl
  | some after =>
      simp only [Option.map_some, startsBlank_folded]
      split
      · split <;> rfl
      · rfl

theorem allFrom_folded (keyword before text : Text) :
    Cut.allFrom keyword (folded before) (folded text)
      = (Cut.allFrom keyword before text).map Cut.folded := by
  induction text generalizing before with
  | nil => rfl
  | cons c text ih =>
      have hhere := here?_folded keyword before (c :: text)
      have hlater := ih (c :: before)
      rw [folded_cons] at hhere hlater ⊢
      rw [Cut.allFrom, Cut.allFrom, hhere, hlater, List.map_append]
      cases Cut.here? keyword before (c :: text) <;> rfl

/-- **A clause is cut at the same places in any case.** -/
theorem all_folded_cuts (keyword clause : Text) :
    Cut.all keyword (folded clause) = (Cut.all keyword clause).map Cut.folded := by
  have hcuts : Cut.allFrom keyword [] (folded clause) = _ := allFrom_folded keyword [] clause
  rw [Cut.all, Cut.all, hcuts, List.map_reverse]

/-- **A clause is read at a keyword in any case**, if its operand is. -/
theorem readCut?_folded {keyword : Text} {operand? : Text → Option α}
    (ho : ∀ text, operand? (folded text) = (operand? text).map fold) (clause : Text) :
    readCut? keyword operand? (folded clause)
      = (readCut? keyword operand? clause).map fun read => (folded read.1, fold read.2) := by
  rw [readCut?, readCut?, all_folded_cuts, List.findSome?_map, List.map_findSome?]
  congr 1
  funext cut
  have hleft : cut.folded.left = folded cut.left := by
    rw [Cut.left, Cut.left, ← trimEnd_folded, folded_reverse]
    rfl
  have hright : cut.folded.right = folded cut.right := trimStart_folded cut.after
  simp only [Function.comp_apply, hleft, hright, isVariable_folded, ho]
  split
  · cases operand? cut.right <;> rfl
  · rfl

/-! ## Operands -/

theorem blind_isBoundChar : Blind isBoundChar := blind_isDigit.or (blind_beq (by decide))

theorem blind_isComparisonChar : Blind isComparisonChar :=
  (((blind_beq (by decide)).or (blind_beq (by decide))).or (blind_beq (by decide))).or
    (blind_beq (by decide))

theorem rangeBounds?_folded (text : Text) :
    rangeBounds? (folded text)
      = (rangeBounds? text).map fun bounds => (folded bounds.1, folded bounds.2) := by
  simp only [rangeBounds?, takeWhile_folded blind_isBoundChar, dropWhile_folded blind_isBoundChar,
    skipBlanks_folded, takeWhile_folded blind_isWordChar, dropWhile_folded blind_isWordChar,
    isEmpty_folded, startsBlank_folded, sameLetters_folded, all_folded blind_isBoundChar]
  split <;> rfl

/-- A folded text is a mark if the text is. -/
theorem folded_eq_mark_iff {mark : Char} (hm : mark.isAlpha = false) (text : Text) :
    folded text = [mark] ↔ text = [mark] := by
  cases text with
  | nil => simp
  | cons c text =>
      rw [folded_cons, List.cons.injEq, List.cons.injEq, toLower_eq_iff hm]
      simp [folded]

theorem listItems?_folded (text : Text) :
    listItems? (folded text) = (listItems? text).map folded := by
  cases text with
  | nil => rfl
  | cons c text =>
      by_cases hc : c = '('
      · have hclose : ')'.isAlpha = false := by decide
        have hmark : Blind (· != ')') := (blind_beq hclose).not
        have hbeq : (folded (text.dropWhile (· != ')')) == [')'])
            = (text.dropWhile (· != ')') == [')']) := by
          rw [Bool.eq_iff_iff, beq_iff_eq, beq_iff_eq, folded_eq_mark_iff (by decide)]
        rw [hc, folded_cons, (toLower_eq_iff (by decide)).mpr rfl]
        simp only [listItems?, takeWhile_folded hmark, dropWhile_folded hmark, isEmpty_folded, hbeq]
        split <;> rfl
      · have hc' : c.toLower ≠ '(' := fun h => hc ((toLower_eq_iff (by decide)).mp h)
        simp [listItems?, hc, hc']

theorem someText?_folded (text : Text) : someText? (folded text) = (someText? text).map folded := by
  rw [someText?, someText?, isEmpty_folded]
  split <;> rfl

theorem contained?_folded (text : Text) :
    contained? (folded text) = (contained? text).map folded := by
  simp only [contained?, takeWhile_folded blind_isWordChar, dropWhile_folded blind_isWordChar,
    sameLetters_folded, startsBlank_folded, skipBlanks_folded, someText?_folded]
  split <;> rfl

theorem quotedList_folded (items : Text) :
    quotedList (folded items) = folded (quotedList items) := by
  have hitem : ∀ item : Text, ['"'] ++ trim (folded item) ++ ['"']
      = folded (['"'] ++ trim item ++ ['"']) := by
    intro item
    rw [trim_folded, folded_append, folded_append]
    rfl
  rw [quotedList, quotedList, splitOn_folded (by decide), List.map_map, folded_append, folded_append,
    folded_join, List.map_map]
  simp only [Function.comp_def, hitem]
  rfl

/-! ## The shapes of conditions -/

/-- A condition on a variable in any case. -/
theorem on_folded (variableName : Text) (operator : Operator) (value : Text) :
    Condition.on (folded variableName) operator (folded value)
      = (Condition.on variableName operator value).folded := by
  rw [Condition.on, ofText_folded]
  rfl

theorem readRange?_folded (clause : Text) :
    readRange? (folded clause) = (readRange? clause).map (·.folded) := by
  rw [readRange?, readRange?, readCut?_folded rangeBounds?_folded, Option.map_map, Option.map_map]
  congr 1
  funext ⟨variableName, low, high⟩
  simp only [Function.comp_apply, ← on_folded, folded_append]
  rfl

theorem readList?_folded (clause : Text) :
    readList? (folded clause) = (readList? clause).map (·.folded) := by
  rw [readList?, readList?, readCut?_folded listItems?_folded, Option.map_map, Option.map_map]
  congr 1
  funext ⟨variableName, items⟩
  simp only [Function.comp_apply, ← on_folded, quotedList_folded]

theorem readContainment?_folded (clause : Text) :
    readContainment? (folded clause) = (readContainment? clause).map (·.folded) := by
  rw [readContainment?, readContainment?, readCut?_folded contained?_folded, Option.map_map,
    Option.map_map]
  congr 1
  funext ⟨variableName, value⟩
  simp only [Function.comp_apply, ← on_folded]

theorem readEquality?_folded (clause : Text) :
    readEquality? (folded clause)
      = (readEquality? clause).map fun read => (folded read.1, folded read.2) := by
  rw [readEquality?, readEquality?, readCut?_folded someText?_folded]

theorem comparisonSign?_folded (text : Text) :
    comparisonSign? (folded text)
      = (comparisonSign? text).map fun sign => (sign.1, folded sign.2) := by
  fun_cases comparisonSign? text with
  | case1 text => rfl
  | case2 text => rfl
  | case3 text => rfl
  | case4 text h =>
      show comparisonSign? ('>' :: folded text) = _
      rw [comparisonSign?]
      · rfl
      · exact folded_ne_cons (by decide) h
  | case5 text h =>
      show comparisonSign? ('<' :: folded text) = _
      rw [comparisonSign?]
      · rfl
      · exact folded_ne_cons (by decide) h
  | case6 text => rfl
  | case7 text hge hle hne hg hl he =>
      -- A folded text with a sign would have had it before.
      rw [comparisonSign?.eq_def]
      split
      · next rest h => exact (folded_ne_cons (by decide) hg _ h).elim
      · next rest h => exact (folded_ne_cons (by decide) hl _ h).elim
      · next rest h =>
          obtain ⟨after, rfl, hrest⟩ := exists_of_folded_eq_cons (by decide) h
          obtain ⟨after, rfl, -⟩ := exists_of_folded_eq_cons (by decide) hrest.symm
          exact (hne after rfl).elim
      · next rest _ h => exact (folded_ne_cons (by decide) hg _ h).elim
      · next rest _ h => exact (folded_ne_cons (by decide) hl _ h).elim
      · next rest h => exact (folded_ne_cons (by decide) he _ h).elim
      · rfl

theorem readComparison?_folded (clause : Text) :
    readComparison? (folded clause) = (readComparison? clause).map (·.folded) := by
  have hsign : Blind (! isComparisonChar ·) := blind_isComparisonChar.not
  simp only [readComparison?, takeWhile_folded hsign, dropWhile_folded hsign, trimEnd_folded,
    comparisonSign?_folded, isVariable_folded]
  rcases comparisonSign? (clause.dropWhile (! isComparisonChar ·)) with _ | ⟨operator, text⟩
  · rfl
  · simp only [Option.map_some, skipBlanks_folded, someText?_folded]
    split
    · rw [Option.map_map, Option.map_map]
      congr 1
      funext value
      simp only [Function.comp_apply, ← on_folded]
    · rfl

/-- **A clause of the conditions is read in any case.** -/
theorem readCondition_folded (clause : Text) :
    readCondition (folded clause) = foldedResult (·.folded) (readCondition clause) := by
  simp only [readCondition, readRange?_folded, readList?_folded, readContainment?_folded,
    readEquality?_folded, readComparison?_folded]
  -- The first shape that the clause has is the first that the folded clause has.
  cases readRange? clause with
  | some condition => rfl
  | none =>
      cases readList? clause with
      | some condition => rfl
      | none =>
          cases readContainment? clause with
          | some condition => rfl
          | none =>
              rcases readEquality? clause with _ | ⟨variableName, value⟩
              · cases readComparison? clause with
                | some condition => rfl
                | none => rfl
              · simp only [Option.map_some, on_folded]
                rfl

theorem dropFullStop_folded (text : Text) :
    dropFullStop (folded text) = folded (dropFullStop text) := by
  have hlast : (folded text).getLast? = some '.' ↔ text.getLast? = some '.' := by
    rw [folded, List.getLast?_map, Option.map_eq_some_iff]
    constructor
    · rintro ⟨c, hc, hlower⟩
      rwa [(toLower_eq_iff (by decide)).mp hlower] at hc
    · intro h
      exact ⟨'.', h, by decide⟩
  rw [dropFullStop, dropFullStop]
  by_cases h : text.getLast? = some '.'
  · rw [if_pos h, if_pos (hlast.mpr h), folded, folded, List.map_dropLast]
  · rw [if_neg h, if_neg (hlast.not.mpr h)]
/-- **A clause of the actions is read in any case.** -/
theorem readAction_folded (clause : Text) :
    readAction (folded clause) = foldedResult (·.folded) (readAction clause) := by
  simp only [readAction, dropFullStop_folded, trimEnd_folded, readEquality?_folded]
  rcases readEquality? (trimEnd (dropFullStop clause)) with _ | ⟨variableName, value⟩
  · rfl
  · simp only [Option.map_some, Action.set, ofText_folded]
    rfl

/-! ## Conditions -/

theorem blind_joinsKeyword : Blind joinsKeyword := blind_isAlphanum.or (blind_beq (by decide))

theorem opensRange_folded (before text : Text) :
    opensRange (folded before) (folded text) = opensRange before text := by
  rw [opensRange, opensRange, any_head?_folded blind_joinsKeyword, dropWord?_folded]
  cases dropWord? "between".toList text with
  | none => rfl
  | some after =>
      simp only [Option.map_some]
      rw [any_head?_folded blind_joinsKeyword]

theorem startsConjunction_folded (text : Text) :
    startsConjunction (folded text) = startsConjunction text := by
  rcases text with _ | ⟨b₁, _ | ⟨a, _ | ⟨n, _ | ⟨d, _ | ⟨b₂, text⟩⟩⟩⟩⟩
  · rfl
  · rfl
  · rfl
  · rfl
  · rfl
  · have hword := sameLetters_folded [a, n, d] "and".toList
    show (isAsciiBlank b₁.toLower && sameLetters (folded [a, n, d]) "and".toList
      && isAsciiBlank b₂.toLower) = _
    rw [hword, blind_isAsciiBlank b₁, blind_isAsciiBlank b₂]
    rfl

theorem drop_folded (n : Nat) (text : Text) : (folded text).drop n = folded (text.drop n) :=
  List.map_drop.symm

theorem take_folded (n : Nat) (text : Text) : (folded text).take n = folded (text.take n) :=
  List.map_take.symm

/-- **What comes next in the conditions does not depend on case.** -/
theorem scan_folded (place : Place) (before : Text) (c : Char) (text : Text) :
    place.scan (folded before) c.toLower (folded text) = place.scan before c text := by
  have hconjunction := startsConjunction_folded (c :: text)
  have hrange := opensRange_folded before (c :: text)
  have htoken : (firstToken? (folded (text.drop 4))).any isNumeral
      = (firstToken? (text.drop 4)).any isNumeral := by
    rw [firstToken?_folded]
    cases firstToken? (text.drop 4) with
    | none => rfl
    | some token => exact isNumeral_folded token
  have hparens : '('.isAlpha = false ∧ ')'.isAlpha = false := by decide
  rw [folded_cons] at hconjunction hrange
  simp only [Place.scan, toLower_eq_iff hparens.1, toLower_eq_iff hparens.2, hconjunction, hrange,
    drop_folded, htoken]

theorem clauseOf_folded (text : Text) : clauseOf (folded text) = (clauseOf text).map folded := by
  rw [clauseOf, clauseOf, trim_folded, isEmpty_folded]
  split <;> rfl

/-- **The conditions fall into the same clauses in any case.** -/
theorem conditionClausesFrom_folded (place : Place) (current text : Text) :
    conditionClausesFrom place (folded current) (folded text)
      = (conditionClausesFrom place current text).map folded := by
  fun_induction conditionClausesFrom place current text with
  | case1 place current =>
      rw [folded_nil, conditionClausesFrom, ← folded_reverse, clauseOf_folded]
  | case2 place current c text next hscan ih =>
      rw [folded_cons, conditionClausesFrom, scan_folded, hscan]
      exact ih
  | case3 place current c text next hscan ih =>
      rw [folded_cons, conditionClausesFrom, scan_folded, hscan]
      dsimp only
      rw [take_folded, drop_folded, ← folded_reverse, ← folded_cons, ← folded_append]
      exact ih
  | case4 place current c text hscan ih =>
      rw [folded_cons, conditionClausesFrom, scan_folded, hscan]
      dsimp only
      rw [drop_folded, ← folded_reverse, clauseOf_folded, List.map_append]
      exact congrArg _ ih

theorem foldedResult_mapM {read : Text → Except LineError α}
    (h : ∀ text, read (folded text) = foldedResult fold (read text)) (texts : List Text) :
    (texts.map folded).mapM read = foldedResult (List.map fold) (texts.mapM read) := by
  induction texts with
  | nil => rfl
  | cons text texts ih =>
      rw [List.map_cons, List.mapM_cons, List.mapM_cons, h, ih]
      cases read text with
      | error error => rfl
      | ok value => cases texts.mapM read <;> rfl

theorem readConditions_folded (text : Text) :
    readConditions (folded text) = foldedResult (List.map (·.folded)) (readConditions text) := by
  have hclauses : conditionClauses (folded text) = (conditionClauses text).map folded :=
    conditionClausesFrom_folded .top [] text
  rw [readConditions, hclauses, foldedResult_mapM readCondition_folded, readConditions]

/-! ## Actions -/

theorem afterAnd?_folded (text : Text) : afterAnd? (folded text) = (afterAnd? text).map folded := by
  rw [afterAnd?, afterAnd?, skipBlanks_folded, dropWord?_folded]
  cases dropWord? "and".toList (skipBlanks text) with
  | none => rfl
  | some after =>
      simp only [Option.map_some, startsBlank_folded, skipBlanks_folded]
      split <;> rfl

/-- **The actions fall into the same clauses in any case.** -/
theorem actionClausesFrom_folded (current text : Text) :
    actionClausesFrom (folded current) (folded text)
      = (actionClausesFrom current text).map folded := by
  fun_induction actionClausesFrom current text with
  | case1 current =>
      rw [folded_nil, actionClausesFrom, ← folded_reverse, clauseOf_folded]
  | case2 current c text hc after hafter ih =>
      have hafter' := afterAnd?_folded (c :: text)
      rw [hafter, folded_cons] at hafter'
      rw [folded_cons, actionClausesFrom_cons, blind_isAsciiBlank c, if_pos hc, hafter']
      simp only [Option.map_some]
      rw [← folded_reverse, clauseOf_folded, List.map_append]
      exact congrArg _ ih
  | case3 current c text hc hafter ih =>
      have hafter' := afterAnd?_folded (c :: text)
      rw [hafter, folded_cons] at hafter'
      rw [folded_cons, actionClausesFrom_cons, blind_isAsciiBlank c, if_pos hc, hafter']
      exact ih
  | case4 current c text hc ih =>
      rw [folded_cons, actionClausesFrom_cons, blind_isAsciiBlank c, if_neg hc]
      exact ih

theorem readActions_folded (text : Text) :
    readActions (folded text) = foldedResult (List.map (·.folded)) (readActions text) := by
  have hclauses : actionClauses (folded text) = (actionClauses text).map folded :=
    actionClausesFrom_folded [] text
  have hstops : ((actionClauses text).map folded).filter (· != ['.'])
      = ((actionClauses text).filter (· != ['.'])).map folded := by
    rw [List.filter_map]
    congr 1
    refine List.filter_congr fun clause _ => ?_
    rw [Function.comp_apply, Bool.eq_iff_iff, bne_iff_ne, bne_iff_ne, Ne,
      folded_eq_mark_iff (by decide)]
  rw [readActions, hclauses, hstops, foldedResult_mapM readAction_folded, readActions]

/-! ## Lines -/

theorem cutAtComma?_folded (depth : Int) (text : Text) :
    cutAtComma? depth (folded text)
      = (cutAtComma? depth text).map fun halves => (folded halves.1, folded halves.2) := by
  induction text generalizing depth with
  | nil => rfl
  | cons c text ih =>
      have hmarks : '('.isAlpha = false ∧ ')'.isAlpha = false ∧ ','.isAlpha = false := by decide
      have hdepth : depthAfter depth c.toLower = depthAfter depth c := by
        simp only [depthAfter, toLower_eq_iff hmarks.1, toLower_eq_iff hmarks.2.1]
      rw [folded_cons, cutAtComma?, cutAtComma?, hdepth, ih]
      simp only [toLower_eq_iff hmarks.2.2]
      split
      · rfl
      · cases cutAtComma? (depthAfter depth c) text <;> rfl

theorem readForm?_folded (text : Text) :
    readForm? (folded text) = (readForm? text).map fun read => (read.1, folded read.2) := by
  simp only [readForm?, skipBlanks_folded, takeWhile_folded blind_isWordChar,
    dropWhile_folded blind_isWordChar, sameLetters_folded]
  split
  · rfl
  · split <;> rfl

theorem otherwiseActions?_folded (rest : Text) :
    otherwiseActions? (folded rest) = (otherwiseActions? rest).map folded := by
  rw [otherwiseActions?, otherwiseActions?, trimStart_folded]
  split
  · next text h =>
      obtain ⟨after, hafter, rfl⟩ := exists_of_folded_eq_cons (by decide) h
      rw [hafter, trim_folded]
      rfl
  · next h =>
      split
      · next text htext =>
          refine absurd ?_ (h (folded text))
          rw [htext]
          rfl
      · rfl

theorem ruleOfHalves_folded (id : Text) (conditions : List Condition) (actions : List Action)
    (conditionsText actionsText source : Text) :
    ruleOfHalves id (conditions.map (·.folded)) (actions.map (·.folded)) (folded conditionsText)
        (folded actionsText) (folded source)
      = foldedResult (·.folded)
        (ruleOfHalves id conditions actions conditionsText actionsText source) := by
  unfold ruleOfHalves Rule.make
  by_cases hc : conditions = []
  · simp only [hc, List.map_nil, dif_pos]
    rfl
  · by_cases ha : actions = []
    · simp only [hc, ha, List.map_nil, List.map_eq_nil_iff, dif_neg, dif_pos, not_false_eq_true]
      rfl
    · simp only [hc, ha, List.map_eq_nil_iff, dif_neg, not_false_eq_true]
      rfl

/-- **A line is read in any case**: what it says is folded with it. -/
theorem readRule_folded (suffix line : Text) :
    readRule suffix (folded line) = foldedResult (·.folded) (readRule suffix line) := by
  by_cases hempty : (trim line).isEmpty = true
  · simp only [readRule, trim_folded, isEmpty_folded, hempty, if_true]
    rfl
  · have hempty' : ¬ (trim (folded line)).isEmpty = true := by rwa [trim_folded, isEmpty_folded]
    rw [readRule_of_not_isEmpty hempty, readRule_of_not_isEmpty hempty', trim_folded,
      readForm?_folded]
    rcases readForm? (trim line) with _ | ⟨_ | _, rest⟩
    · rfl
    · -- A rule with conditions.
      simp only [Option.map_some, halves?, cutAtComma?_folded]
      rcases cutAtComma? 0 rest with _ | ⟨before, after⟩
      · rfl
      · simp only [Option.map_some, trim_folded, readConditions_folded, readActions_folded]
        cases readConditions (trim before) with
        | error error => rfl
        | ok conditions =>
            cases readActions (trim after) with
            | error error => rfl
            | ok actions => exact ruleOfHalves_folded _ conditions actions _ _ line
    · -- A rule that applies everywhere.
      simp only [Option.map_some, otherwiseActions?_folded]
      cases otherwiseActions? rest with
      | none => rfl
      | some text =>
          simp only [Option.map_some, readActions_folded]
          cases readActions text with
          | error error => rfl
          | ok actions => exact ruleOfHalves_folded _ [.always] actions [] text line

end Readers

/-! ## Lines with the same letters -/

/-- **Two errors are alike**: of one kind and for one half, with the same letters in what they
show. -/
inductive LineError.Alike : LineError → LineError → Prop
  | empty : Alike .empty .empty
  | noKeyword {line other : Text} :
      sameLetters line other = true → Alike (.noKeyword line) (.noKeyword other)
  | noSeparator {line other : Text} :
      sameLetters line other = true → Alike (.noSeparator line) (.noSeparator other)
  | unreadable (half : Half) {clause other : Text} :
      sameLetters clause other = true → Alike (.unreadable half clause) (.unreadable half other)

/-- **Two rules are alike**: of one form, with as many conditions and actions, on the same columns
and with the same operators and the same letters in their values. Their ids end with their
suffixes. -/
structure Rule.Alike (suffix suffix' : Text) (rule other : Rule) : Prop where
  ids : ∃ form : RuleForm, rule.id = form.idStem ++ suffix ∧ other.id = form.idStem ++ suffix'
  conditions : List.Forall₂ (fun condition condition' => condition.column = condition'.column ∧
      condition.operator = condition'.operator ∧
      sameLetters condition.value condition'.value = true) rule.conditions other.conditions
  actions : List.Forall₂ (fun action action' => action.column = action'.column ∧
      sameLetters action.value action'.value = true) rule.actions other.actions

/-- **Two lines are read alike**: as rules that are alike, or with errors that are. -/
inductive ReadAlike (suffix suffix' : Text) :
    Except LineError Rule → Except LineError Rule → Prop
  | rules {rule other : Rule} :
      rule.Alike suffix suffix' other → ReadAlike suffix suffix' (.ok rule) (.ok other)
  | errors {error other : LineError} :
      error.Alike other → ReadAlike suffix suffix' (.error error) (.error other)

theorem LineError.alike_of_folded {error other : LineError} (h : error.folded = other.folded) :
    error.Alike other := by
  cases error <;> cases other <;> simp only [LineError.folded, reduceCtorEq] at h
  · exact .empty
  · exact .noKeyword (sameLetters_iff_folded.mpr (LineError.noKeyword.inj h))
  · exact .noSeparator (sameLetters_iff_folded.mpr (LineError.noSeparator.inj h))
  · obtain ⟨rfl, hclause⟩ := LineError.unreadable.inj h
    exact .unreadable _ (sameLetters_iff_folded.mpr hclause)

/-- Two lists with the same items after a change have pairwise the same items after it. -/
theorem forall₂_of_map_eq_map {α β : Type} {f : α → β} {items others : List α}
    (h : items.map f = others.map f) :
    List.Forall₂ (fun item other => f item = f other) items others := by
  have hboth : List.Forall₂ Eq (items.map f) (others.map f) := List.forall₂_eq_eq_eq ▸ h
  exact List.forall₂_map_right_iff.mp (List.forall₂_map_left_iff.mp hboth)

/-- Rules that are equal when folded are alike. -/
theorem Rule.alike_of_folded {suffix suffix' source source' : Text} {rule other : Rule}
    (h : rule.folded = other.folded) (hid : ∃ form : RuleForm, rule.id = form.idStem) :
    (rule.named suffix source).Alike suffix suffix' (other.named suffix' source') := by
  obtain ⟨form, hform⟩ := hid
  have hother : rule.folded.id = other.folded.id := congrArg Rule.id h
  have hconditions := forall₂_of_map_eq_map (congrArg Rule.conditions h)
  have hactions := forall₂_of_map_eq_map (congrArg Rule.actions h)
  refine ⟨⟨form, congrArg (· ++ suffix) hform, congrArg (· ++ suffix') (hother ▸ hform)⟩,
    hconditions.imp fun condition condition' hc => ?_, hactions.imp fun action action' ha => ?_⟩
  · obtain ⟨hcolumn, hoperator, hvalue⟩ := Condition.mk.inj hc
    exact ⟨hcolumn, hoperator, sameLetters_iff_folded.mpr hvalue⟩
  · obtain ⟨hcolumn, hvalue⟩ := Action.mk.inj ha
    exact ⟨hcolumn, sameLetters_iff_folded.mpr hvalue⟩

/-- **Lines with the same letters are read alike**, whatever suffixes are drawn for their ids. -/
theorem readRule_of_sameLetters {line other : Text} (h : sameLetters line other = true)
    (suffix suffix' : Text) :
    ReadAlike suffix suffix' (readRule suffix line) (readRule suffix' other) := by
  have hfolded : folded (trim line) = folded (trim other) := by
    rw [← trim_folded, ← trim_folded, sameLetters_iff_folded.mp h]
  have hsaid : foldedResult (·.folded) (readRule [] (trim line))
      = foldedResult (·.folded) (readRule [] (trim other)) := by
    rw [← readRule_folded, ← readRule_folded, hfolded]
  rw [readRule_eq_map suffix, readRule_eq_map suffix']
  cases hline : readRule [] (trim line) with
  | error error =>
      cases hother : readRule [] (trim other) with
      | error error' =>
          rw [hline, hother] at hsaid
          exact .errors (LineError.alike_of_folded (Except.error.inj hsaid))
      | ok said' =>
          rw [hline, hother] at hsaid
          cases hsaid
  | ok said =>
      cases hother : readRule [] (trim other) with
      | error error' =>
          rw [hline, hother] at hsaid
          cases hsaid
      | ok said' =>
          rw [hline, hother] at hsaid
          obtain ⟨form, hform⟩ := exists_id_of_readRule hline
          rw [List.append_nil] at hform
          exact .rules (Rule.alike_of_folded (Except.ok.inj hsaid) ⟨form, hform⟩)

/-- A rule with its keywords and its values in another case. -/
theorem readRule_of_sameLetters_keywords :
    sameLetters "IF Age BETWEEN 10 And 20 AND Tags CONTAINS Any Vip, Tier IS Gold.".toList
        "if age between 10 and 20 and tags contains any VIP, tier is gold.".toList = true ∧
      ReadAlike "#0".toList "#1".toList
        (readRule "#0".toList
          "IF Age BETWEEN 10 And 20 AND Tags CONTAINS Any Vip, Tier IS Gold.".toList)
        (readRule "#1".toList
          "if age between 10 and 20 and tags contains any VIP, tier is gold.".toList) :=
  ⟨by decide, readRule_of_sameLetters (by decide) _ _⟩

end RuleTable
