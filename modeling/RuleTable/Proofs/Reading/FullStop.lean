import RuleTable.Proofs.Reading.Rules
import RuleTable.Proofs.Reading.Separator

/-!
# The full stop at the end of a line

A line may end with a full stop, which is no part of its last action. Behind a text that does not
end with a blank, a full stop ends a word without being one: no form, separator or `and` is found
there that was not found before, and the last clause grows by the full stop, which its reader
drops. So **a line is read with its full stop as without it**: as a rule with the same conditions
and actions, or with an error of the same kind.
-/

set_option autoImplicit false

namespace RuleTable

open Text

/-! ## Texts that a full stop may follow -/

/-- **A full stop may follow a text**: the text does not end with a blank or with a full stop. -/
def TakesStop (text : Text) : Prop := ∀ c ∈ text.getLast?, isBlank c = false ∧ c ≠ '.'

namespace TakesStop

variable {text after : Text}

theorem of_suffix (h : TakesStop text) (hs : after <:+ text) : TakesStop after := by
  intro c hc
  obtain ⟨before, rfl⟩ := hs
  exact h c (by rw [List.getLast?_append, Option.mem_def.mp hc]; rfl)

theorem endsInk (h : TakesStop text) (hne : text ≠ []) : EndsInk text :=
  ⟨text.dropLast, text.getLast hne, (List.dropLast_concat_getLast hne).symm,
    (h _ (List.getLast?_eq_some_getLast hne)).1⟩

/-- A text that is trimmed may be followed by a full stop unless one is there. -/
theorem of_trim (hstop : (trim text).getLast? ≠ some '.') : TakesStop (trim text) := by
  intro c hc
  have hne : trim text ≠ [] := by
    rintro hnil
    simp [hnil] at hc
  obtain ⟨front, d, hd, hink⟩ := endsInk_trim hne
  rw [hd, List.getLast?_concat] at hc hstop
  obtain rfl := Option.some.inj hc
  exact ⟨hink, fun h => hstop (congrArg some h)⟩

end TakesStop

/-- Only the start of a text is trimmed that a full stop may follow. -/
theorem TakesStop.trim_eq {text : Text} (h : TakesStop text) : trim text = trimStart text := by
  by_cases hnil : trimStart text = []
  · rw [trim, hnil]
    rfl
  · have hink := (h.of_suffix (List.dropWhile_suffix _)).endsInk hnil
    have hsame : trimEnd (trimStart text ++ []) = trimStart text :=
      trimEnd_append_of_endsInk hink (List.forall_mem_nil _)
    rwa [List.append_nil] at hsame

theorem TakesStop.trimmed {text : Text} (h : TakesStop text) : TakesStop (trim text) := by
  rw [h.trim_eq]
  exact h.of_suffix (List.dropWhile_suffix _)

/-- Trimming leaves the full stop where it is. -/
theorem TakesStop.trim_concat {text : Text} (h : TakesStop text) :
    trim (text ++ ['.']) = trim text ++ ['.'] := by
  have hstart : trimStart (text ++ ['.']) = trimStart text ++ ['.'] :=
    Stops.dropWhile_append (stops_cons.mpr (by decide)) text
  have hend : trimEnd (trimStart text ++ ['.'] ++ []) = trimStart text ++ ['.'] :=
    trimEnd_append_of_endsInk ⟨trimStart text, '.', rfl, by decide⟩ (List.forall_mem_nil _)
  rw [List.append_nil] at hend
  rw [h.trim_eq, trim, hstart, hend]

/-! ## Actions -/

/-- No `and` stands alone because of a full stop behind it, and none ceases to. -/
theorem afterAnd?_concat_stop (text : Text) :
    afterAnd? (text ++ ['.']) = (afterAnd? text).map (· ++ ['.']) := by
  have hskip (text : Text) : skipBlanks (text ++ ['.']) = skipBlanks text ++ ['.'] :=
    Stops.dropWhile_append (stops_cons.mpr (by decide)) text
  have hstarts (text : Text) : startsBlank (text ++ ['.']) = startsBlank text := by
    cases text <;> rfl
  rw [afterAnd?, afterAnd?, hskip, dropWord?_append (stops_cons.mpr (by decide)) (by decide)]
  cases dropWord? "and".toList (skipBlanks text) with
  | none => rfl
  | some after =>
      simp only [Option.map_some, hstarts, hskip]
      split <;> rfl

/-- What follows an `and` is the end of the text, and not empty if no blank ends the text. -/
theorem TakesStop.of_afterAnd? {text after : Text} (h : TakesStop text)
    (hafter : afterAnd? text = some after) : TakesStop after ∧ after ≠ [] := by
  obtain ⟨blanks, w, gap, rfl, -, -, hgap, -⟩ := afterAnd?_eq_some_iff.mp hafter
  have hrest : TakesStop (gap ++ after) :=
    h.of_suffix ((List.suffix_append w _).trans (List.suffix_append blanks _))
  refine ⟨hrest.of_suffix (List.suffix_append gap after), ?_⟩
  rintro rfl
  obtain ⟨front, c, hc, hink⟩ := hrest.endsInk (by simpa using hgap.1)
  have hblank := hgap.2 c (by rw [← List.append_nil gap, hc]; simp)
  rw [isAsciiBlank_of_isBlank hink] at hblank
  cases hblank

/-- **The last clause grows by the full stop**, and the others stay. -/
theorem actionClausesFrom_concat_stop {current text : Text}
    (h : TakesStop (current.reverse ++ text)) (hne : current.reverse ++ text ≠ []) :
    ∃ front last, actionClausesFrom current text = front ++ [last] ∧
      actionClausesFrom current (text ++ ['.']) = front ++ [last ++ ['.']] ∧
      last ≠ [] ∧ TakesStop last := by
  fun_induction actionClausesFrom current text with
  | case1 current =>
      -- What was read of the clause is all of it.
      rw [List.append_nil] at h hne
      have hlast : trim current.reverse ≠ [] :=
        h.trim_eq ▸ (h.endsInk hne).trimStart.ne_nil
      refine ⟨[], trim current.reverse, ?_, ?_, hlast, h.trimmed⟩
      · rw [clauseOf, if_neg (by simpa using hlast), List.nil_append]
      · rw [List.nil_append, List.nil_append, actionClausesFrom_cons, if_neg (by decide)]
        dsimp only
        rw [actionClausesFrom, List.reverse_cons, clauseOf, h.trim_concat, if_neg (by simp)]
  | case2 current c text hc after hafter ih =>
      obtain ⟨htakes, hsome⟩ := (h.of_suffix (List.suffix_append _ _)).of_afterAnd? hafter
      obtain ⟨front, last, hclauses, hstop, hlast⟩ := ih htakes hsome
      refine ⟨clauseOf current.reverse ++ front, last, ?_, ?_, hlast⟩
      · rw [hclauses, List.append_assoc]
      · have hafter' := afterAnd?_concat_stop (c :: text)
        rw [hafter, Option.map_some, List.cons_append] at hafter'
        rw [List.cons_append, actionClausesFrom_cons, if_pos hc, hafter']
        dsimp only
        rw [hstop, List.append_assoc]
  | case3 current c text hc hafter ih =>
      have hcurrent : (c :: current).reverse ++ text = current.reverse ++ c :: text := by simp
      rw [hcurrent] at ih
      obtain ⟨front, last, hclauses, hstop, hlast⟩ := ih h hne
      refine ⟨front, last, hclauses, ?_, hlast⟩
      have hafter' := afterAnd?_concat_stop (c :: text)
      rw [hafter, Option.map_none, List.cons_append] at hafter'
      rw [List.cons_append, actionClausesFrom_cons, if_pos hc, hafter']
      exact hstop
  | case4 current c text hc ih =>
      have hcurrent : (c :: current).reverse ++ text = current.reverse ++ c :: text := by simp
      rw [hcurrent] at ih
      obtain ⟨front, last, hclauses, hstop, hlast⟩ := ih h hne
      refine ⟨front, last, hclauses, ?_, hlast⟩
      rw [List.cons_append, actionClausesFrom_cons, if_neg hc]
      exact hstop

/-- The full stop behind a clause is dropped. -/
theorem readAction_concat_stop {clause : Text} (h : TakesStop clause) :
    readAction (clause ++ ['.']) = readAction clause := by
  have hnone : ¬ clause.getLast? = some '.' := fun hlast => (h '.' hlast).2 rfl
  have hdrop : dropFullStop clause = clause := if_neg hnone
  have hstop : dropFullStop (clause ++ ['.']) = clause := by
    rw [dropFullStop, if_pos List.getLast?_concat, List.dropLast_concat]
  rw [readAction, readAction, hdrop, hstop]

/-- **Actions are read with a full stop as without it.** Where there is none, the full stop is no
clause. -/
theorem readActions_concat_stop {text : Text} (h : TakesStop text) :
    readActions (text ++ ['.']) = readActions text := by
  by_cases hne : text = []
  · subst hne
    have hnone : actionClauses [] = [] := by
      rw [actionClauses, actionClausesFrom]
      rfl
    have hstop : actionClauses ['.'] = [['.']] := by
      rw [actionClauses, actionClausesFrom_cons, if_neg (by decide)]
      dsimp only
      rw [actionClausesFrom]
      rfl
    rw [List.nil_append, readActions, readActions, hnone, hstop]
    rfl
  have h' : TakesStop ([].reverse ++ text) := h
  obtain ⟨front, last, hclauses, hstop, hlast, htakes⟩ := actionClausesFrom_concat_stop h' hne
  have hkept : last ≠ ['.'] := by
    rintro rfl
    exact (htakes '.' rfl).2 rfl
  have hkept' : last ++ ['.'] ≠ ['.'] := fun hdot => by simp [hlast] at hdot
  have hone (clause : Text) (hclause : clause ≠ ['.']) :
      List.filter (· != ['.']) [clause] = [clause] := by simp [hclause]
  rw [readActions, readActions, actionClauses, actionClauses, hclauses, hstop, List.filter_append,
    List.filter_append, hone _ hkept, hone _ hkept', List.mapM_append, List.mapM_append,
    List.mapM_cons, List.mapM_cons, readAction_concat_stop htakes]

/-! ## Lines -/

/-- The separator is found at the same place, or in neither text. -/
theorem halves?_concat_stop (text : Text) :
    halves? (text ++ ['.'])
      = (halves? text).map fun (before, after) => (before, after ++ ['.']) := by
  have hcut (depth : Int) : cutAtComma? depth (text ++ ['.'])
      = (cutAtComma? depth text).map fun (before, after) => (before, after ++ ['.']) := by
    induction text generalizing depth with
    | nil => rfl
    | cons c text ih =>
        rw [List.cons_append, cutAtComma?, cutAtComma?, ih]
        split
        · rfl
        · cases cutAtComma? (depthAfter depth c) text <;> rfl
  exact hcut 0

/-- A line has the same form. -/
theorem readForm?_concat_stop (text : Text) :
    readForm? (text ++ ['.']) = (readForm? text).map fun (form, rest) => (form, rest ++ ['.']) := by
  have hskip : skipBlanks (text ++ ['.']) = skipBlanks text ++ ['.'] :=
    Stops.dropWhile_append (stops_cons.mpr (by decide)) text
  have hstops : Stops isWordChar ['.'] := stops_cons.mpr (by decide)
  rw [readForm?, readForm?, hskip]
  dsimp only
  rw [hstops.takeWhile_append, hstops.dropWhile_append]
  split
  · rfl
  · split <;> rfl

theorem suffix_of_readForm? {text rest : Text} {form : RuleForm}
    (h : readForm? text = some (form, rest)) : rest <:+ text := by
  have hrest : rest = (skipBlanks text).dropWhile isWordChar := by
    rw [readForm?] at h
    split_ifs at h <;> cases h <;> rfl
  rw [hrest]
  exact (List.dropWhile_suffix _).trans (List.dropWhile_suffix _)

/-- The actions of a rule that applies everywhere stand behind a comma. -/
theorem otherwiseActions?_eq_some_iff {rest text : Text} :
    otherwiseActions? rest = some text
      ↔ ∃ after, trimStart rest = ',' :: after ∧ trim after = text := by
  rw [otherwiseActions?]
  constructor
  · intro h
    split at h
    · next after hrest => exact ⟨after, hrest, Option.some.inj h⟩
    · cases h
  · rintro ⟨after, hrest, rfl⟩
    rw [hrest]
    rfl

theorem TakesStop.of_otherwiseActions? {rest text : Text} (h : TakesStop rest)
    (htext : otherwiseActions? rest = some text) : TakesStop text := by
  obtain ⟨after, hrest, rfl⟩ := otherwiseActions?_eq_some_iff.mp htext
  have hafter : after <:+ rest :=
    (List.suffix_cons ',' after).trans (hrest ▸ List.dropWhile_suffix _)
  exact (h.of_suffix hafter).trimmed

theorem otherwiseActions?_concat_stop {rest : Text} (h : TakesStop rest) :
    otherwiseActions? (rest ++ ['.']) = (otherwiseActions? rest).map (· ++ ['.']) := by
  have hstart : trimStart (rest ++ ['.']) = trimStart rest ++ ['.'] :=
    Stops.dropWhile_append (stops_cons.mpr (by decide)) rest
  have hafter {after : Text} (hrest : trimStart rest = ',' :: after) : TakesStop after :=
    h.of_suffix ((List.suffix_cons ',' after).trans (hrest ▸ List.dropWhile_suffix _))
  ext text
  rw [otherwiseActions?_eq_some_iff, hstart, Option.map_eq_some_iff]
  constructor
  · rintro ⟨dotted, hdotted, rfl⟩
    cases hrest : trimStart rest with
    | nil =>
        rw [hrest] at hdotted
        cases hdotted
    | cons c after =>
        rw [hrest] at hdotted
        obtain ⟨rfl, rfl⟩ := List.cons.inj hdotted
        exact ⟨trim after, otherwiseActions?_eq_some_iff.mpr ⟨after, hrest, rfl⟩,
          (hafter hrest).trim_concat.symm⟩
  · rintro ⟨plain, hplain, rfl⟩
    obtain ⟨after, hrest, rfl⟩ := otherwiseActions?_eq_some_iff.mp hplain
    exact ⟨after ++ ['.'], by rw [hrest, List.cons_append], (hafter hrest).trim_concat⟩

/-! ## What is read -/

/-- **Two errors are of one kind**, and of one half. -/
inductive LineError.SameKind : LineError → LineError → Prop
  | empty : SameKind .empty .empty
  | noKeyword (line other : Text) : SameKind (.noKeyword line) (.noKeyword other)
  | noSeparator (line other : Text) : SameKind (.noSeparator line) (.noSeparator other)
  | unreadable (half : Half) (clause other : Text) :
      SameKind (.unreadable half clause) (.unreadable half other)

theorem LineError.SameKind.refl (error : LineError) : error.SameKind error := by
  cases error <;> constructor

/-- **Two lines are read as the same**: as rules with the same conditions and the same actions, or
with errors of one kind. -/
inductive ReadsSame : Except LineError Rule → Except LineError Rule → Prop
  | rules {rule other : Rule} :
      rule.conditions = other.conditions → rule.actions = other.actions →
        ReadsSame (.ok rule) (.ok other)
  | errors {error other : LineError} :
      error.SameKind other → ReadsSame (.error error) (.error other)

/-- The same conditions and actions make the same rule, whatever else is given. -/
theorem readsSame_ruleOfHalves (id id' : Text) (conditions : List Condition)
    (actions : List Action) (conditionsText conditionsText' actionsText actionsText' source
      source' : Text) :
    ReadsSame (ruleOfHalves id conditions actions conditionsText actionsText source)
      (ruleOfHalves id' conditions actions conditionsText' actionsText' source') := by
  unfold ruleOfHalves Rule.make
  by_cases hc : conditions = []
  · simp only [dif_pos hc]
    exact .errors (.unreadable .condition _ _)
  · by_cases ha : actions = []
    · simp only [dif_neg hc, dif_pos ha]
      exact .errors (.unreadable .action _ _)
    · simp only [dif_neg hc, dif_neg ha]
      exact .rules rfl rfl

/-- Steps that fail alike and go on to the same are read as the same. -/
theorem readsSame_bind {α : Type} (step : Except LineError α)
    {next next' : α → Except LineError Rule} (h : ∀ value, ReadsSame (next value) (next' value)) :
    ReadsSame (step >>= next) (step >>= next') := by
  cases step with
  | error error => exact .errors (.refl error)
  | ok value => exact h value

/-- **The final full stop is optional.** A line that has none is read as it is with one: as a rule
with the same conditions and the same actions, or with an error of the same kind. -/
theorem readRule_concat_stop {line : Text} (hne : trim line ≠ [])
    (hstop : (trim line).getLast? ≠ some '.') (suffix suffix' : Text) :
    ReadsSame (readRule suffix (trim line)) (readRule suffix' (trim line ++ ['.'])) := by
  have htakes : TakesStop (trim line) := .of_trim hstop
  have htrim : trim (trim line ++ ['.']) = trim line ++ ['.'] := by
    rw [htakes.trim_concat, trim_trim]
  have hline : ¬ (trim (trim line)).isEmpty = true := by simpa [trim_trim] using hne
  have hdotted : ¬ (trim (trim line ++ ['.'])).isEmpty = true := by simp [htrim]
  rw [readRule_of_not_isEmpty hline, readRule_of_not_isEmpty hdotted, htrim, trim_trim,
    readForm?_concat_stop]
  cases hform : readForm? (trim line) with
  | none => exact .errors (.noKeyword _ _)
  | some read =>
      obtain ⟨form, rest⟩ := read
      have hrest : TakesStop rest := htakes.of_suffix (suffix_of_readForm? hform)
      cases form with
      | otherwise =>
          simp only [Option.map_some, otherwiseActions?_concat_stop hrest]
          cases hactions : otherwiseActions? rest with
          | none => exact .errors (.noSeparator _ _)
          | some text =>
              simp only [Option.map_some,
                readActions_concat_stop (hrest.of_otherwiseActions? hactions)]
              exact readsSame_bind _ fun actions => readsSame_ruleOfHalves ..
      | when =>
          simp only [Option.map_some, halves?_concat_stop]
          cases hhalves : halves? rest with
          | none => exact .errors (.noSeparator _ _)
          | some halves =>
              obtain ⟨before, after⟩ := halves
              obtain ⟨hsplit, -, -⟩ := cutAtComma?_eq_some_iff.mp hhalves
              have hafter : TakesStop after := by
                refine hrest.of_suffix ?_
                rw [hsplit]
                exact (List.suffix_cons ',' after).trans (List.suffix_append before _)
              simp only [Option.map_some, hafter.trim_concat,
                readActions_concat_stop hafter.trimmed]
              exact readsSame_bind _ fun conditions => readsSame_bind _ fun actions =>
                readsSame_ruleOfHalves ..

/-- A line that ends with the word `and` and a blank, with a point behind a value in it. -/
def endsWithAnd : Text := " If age between 18 and 65, tier is x. and n is is 3.5 and\t".toList

theorem readsSame_endsWithAnd : trim endsWithAnd ≠ [] ∧ (trim endsWithAnd).getLast? ≠ some '.' ∧
    ReadsSame (readRule "#0".toList (trim endsWithAnd))
      (readRule "#1".toList (trim endsWithAnd ++ ['.'])) :=
  ⟨by decide, by decide, readRule_concat_stop (by decide) (by decide) _ _⟩

end RuleTable
