import RuleTable.Conversion.Basic
import RuleTable.Proofs.Reading.Rules
import RuleTable.Proofs.Text.Lines

/-!
# Every line of a text is accounted for

A text of rules is read line by line. **No line is lost and none counts twice**: a line that is
neither blank nor a comment gives a rule or is set aside with its number and the reason, as it would
be on its own. So two texts may be read apart and put together afterwards, and it does not matter how
the lines of a text end.
-/

set_option autoImplicit false

namespace RuleTable

open Text

/-! ## Rules and lines set aside -/

/-- A rule with a suffix drawn for its id and another source. -/
def Rule.named (rule : Rule) (suffix source : Text) : Rule :=
  { rule with id := rule.id ++ suffix, source := source }

/-- A line set aside, with more lines before it. -/
def SkippedLine.raise (more : Nat) (line : SkippedLine) : SkippedLine :=
  { line with number := line.number + more }

/-- **What a rule says**: all of it but its id. -/
def Rule.content (rule : Rule) : List Condition × List Action × Text :=
  (rule.conditions, rule.actions, rule.source)

section Reading

variable {id conditionsText actionsText source : Text} {conditions : List Condition}
  {actions : List Action}

/-- The suffix and the source make no difference to whether two halves are a rule. -/
theorem ruleOfHalves_append (suffix source' : Text) :
    ruleOfHalves (id ++ suffix) conditions actions conditionsText actionsText source'
      = (ruleOfHalves id conditions actions conditionsText actionsText source).map
        (·.named suffix source') := by
  unfold ruleOfHalves Rule.make
  by_cases hc : conditions = []
  · simp only [dif_pos hc, Except.map]
  · by_cases ha : actions = []
    · simp only [dif_neg hc, dif_pos ha, Except.map]
    · simp only [dif_neg hc, dif_neg ha, Except.map, Rule.named]

/-- **What a line says does not depend on the suffix that is drawn**, nor on the blanks around it. -/
theorem readRule_eq_map (suffix line : Text) :
    readRule suffix line = (readRule [] (trim line)).map (·.named suffix line) := by
  by_cases hempty : (trim line).isEmpty = true
  · simp only [readRule, trim_trim, hempty, if_true]
    rfl
  · have hempty' : ¬ (trim (trim line)).isEmpty = true := by rwa [trim_trim]
    rw [readRule_of_not_isEmpty hempty, readRule_of_not_isEmpty hempty', trim_trim]
    rcases readForm? (trim line) with _ | ⟨_ | _, rest⟩
    · rfl
    · -- A rule with conditions.
      dsimp only
      rcases halves? rest with _ | ⟨before, after⟩
      · rfl
      · dsimp only
        cases readConditions (trim before) with
        | error error => rfl
        | ok conditions =>
            cases readActions (trim after) with
            | error error => rfl
            | ok actions =>
                rw [List.append_nil]
                exact ruleOfHalves_append suffix line
    · -- A rule that applies everywhere.
      dsimp only
      cases otherwiseActions? rest with
      | none => rfl
      | some text =>
          dsimp only
          cases readActions text with
          | error error => rfl
          | ok actions =>
              rw [List.append_nil]
              exact ruleOfHalves_append suffix line

/-- A clause that cannot be read is the reason itself. -/
theorem ne_empty_of_readCondition {clause : Text} {error : LineError}
    (h : readCondition clause = .error error) : error ≠ .empty := by
  simp only [readCondition] at h
  split at h
  · cases h
  · cases h
    exact LineError.noConfusion

theorem ne_empty_of_readAction {clause : Text} {error : LineError}
    (h : readAction clause = .error error) : error ≠ .empty := by
  simp only [readAction] at h
  split at h
  · cases h
  · cases h
    exact LineError.noConfusion

theorem ne_empty_of_readActions {text : Text} {error : LineError}
    (h : readActions text = .error error) : error ≠ .empty := by
  obtain ⟨clause, -, hclause⟩ := exists_of_mapM_eq_error h
  exact ne_empty_of_readAction hclause

theorem ne_empty_of_ruleOfHalves {error : LineError}
    (h : ruleOfHalves id conditions actions conditionsText actionsText source = .error error) :
    error ≠ .empty := by
  simp only [ruleOfHalves] at h
  split at h
  · cases h
  · cases h
    exact LineError.noConfusion
  · cases h
    exact LineError.noConfusion

/-- **A line with something on it is not called empty.** -/
theorem ne_empty_of_readRule {suffix line : Text} {error : LineError} (hne : trim line ≠ [])
    (h : readRule suffix line = .error error) : error ≠ .empty := by
  rw [readRule_of_not_isEmpty (by simpa using hne)] at h
  split at h
  · cases h
    exact LineError.noConfusion
  · split at h
    · cases h
      exact LineError.noConfusion
    · rcases error_of_bind_eq_error h with h | ⟨actions, -, h⟩
      · exact ne_empty_of_readActions h
      · exact ne_empty_of_ruleOfHalves h
  · split at h
    · cases h
      exact LineError.noConfusion
    · rcases error_of_bind_eq_error h with h | ⟨conditions, -, h⟩
      · obtain ⟨clause, -, hclause⟩ := exists_of_mapM_eq_error h
        exact ne_empty_of_readCondition hclause
      · rcases error_of_bind_eq_error h with h | ⟨actions, -, h⟩
        · exact ne_empty_of_readActions h
        · exact ne_empty_of_ruleOfHalves h

end Reading

namespace RuleText

/-! ## The lines of a text -/

/-- **Whether a line counts**: something is left of it without the blanks around it, and that does
not start with `#` or with `//`. -/
def Counts (line : Text) : Prop :=
  trim line ≠ [] ∧ ¬ "#".toList <+: trim line ∧ ¬ "//".toList <+: trim line

instance (line : Text) : Decidable (Counts line) := inferInstanceAs (Decidable (_ ∧ _ ∧ _))

/-- The lines that do not count are the ones passed over. -/
theorem isIgnored_iff (line : Text) : isIgnored (trim line) = true ↔ ¬ Counts line := by
  have hhash : (trim line).head? = some '#' ↔ "#".toList <+: trim line :=
    List.singleton_prefix_iff_head?_eq_some.symm
  rw [isIgnored, Counts, Bool.or_eq_true, Bool.or_eq_true, List.isEmpty_iff, beq_iff_eq, hhash,
    List.isPrefixOf_iff_prefix]
  tauto

/-- **The lines of a text that count**, numbered from one. -/
def counted (text : Text) : List (Text × Nat) :=
  ((lines text).zipIdx 1).filter fun line => Counts line.1

/-- Whether a line is a rule. -/
def isRule (line : Text × Nat) : Bool := (readRule [] line.1).toBool

/-- **What was read accounts for numbered lines**: in the order of the lines there is a rule for
each line that is one, and an entry among the lines set aside for each that is none. Both say what
the line says on its own. -/
structure Accounts (read : RuleText) (numbered : List (Text × Nat)) : Prop where
  rules : List.Forall₂ (fun line rule => rule.source = trim line.1 ∧
      ∀ suffix, ∃ alone, readRule suffix line.1 = .ok alone ∧
        alone.conditions = rule.conditions ∧ alone.actions = rule.actions)
    (numbered.filter isRule) read.rules
  skipped : List.Forall₂ (fun line skipped => skipped.number = line.2 ∧
      skipped.text = trim line.1 ∧ skipped.error ≠ .empty ∧
      ∀ suffix, readRule suffix line.1 = .error skipped.error)
    (numbered.filter (! isRule ·)) read.skipped

/-- A line without its blanks says what the line says. -/
theorem readRule_trim {suffix line : Text} {rule : Rule}
    (h : readRule suffix (trim line) = .ok rule) :
    rule.source = trim line ∧ ∀ suffix', ∃ alone, readRule suffix' line = .ok alone ∧
      alone.conditions = rule.conditions ∧ alone.actions = rule.actions := by
  rw [readRule_eq_map, trim_trim] at h
  obtain ⟨said, hsaid, rfl⟩ := exists_of_map_eq_ok h
  refine ⟨rfl, fun suffix' => ⟨said.named suffix' line, ?_, rfl, rfl⟩⟩
  rw [readRule_eq_map, hsaid]
  rfl

theorem readRule_trim_error {suffix line : Text} {error : LineError}
    (h : readRule suffix (trim line) = .error error) (suffix' : Text) :
    readRule suffix' line = .error error := by
  rw [readRule_eq_map, trim_trim] at h
  rw [readRule_eq_map]
  cases hsaid : readRule [] (trim line) with
  | error error' =>
      rw [hsaid] at h
      exact h
  | ok said =>
      rw [hsaid] at h
      cases h

/-- **Every numbered line is accounted for**, whatever the suffixes and however many rules stand
before. -/
theorem accounts_readFrom (suffix : Nat → Text) (count : Nat) (numbered : List (Text × Nat)) :
    (readFrom suffix count numbered).Accounts (numbered.filter fun line => Counts line.1) := by
  fun_induction readFrom suffix count numbered with
  | case1 count => exact ⟨.nil, .nil⟩
  | case2 count line number rest text hi ih =>
      have hline := (isIgnored_iff line).mp hi
      rwa [List.filter_cons_of_neg (by simpa using hline)]
  | case3 count line number rest text hi rule hread later ih =>
      have hline : Counts line := not_not.mp ((isIgnored_iff line).not.mp hi)
      obtain ⟨hsource, halone⟩ := readRule_trim hread
      have hrule : isRule (line, number) = true := by
        obtain ⟨alone, hok, -⟩ := halone []
        rw [isRule, hok]
        rfl
      rw [List.filter_cons_of_pos (by simpa using hline)]
      refine ⟨?_, ?_⟩
      · rw [List.filter_cons_of_pos hrule]
        exact .cons ⟨hsource, halone⟩ ih.rules
      · rw [List.filter_cons_of_neg (by simpa using hrule)]
        exact ih.skipped
  | case4 count line number rest text hi error hread later ih =>
      have hline : Counts line := not_not.mp ((isIgnored_iff line).not.mp hi)
      have halone := readRule_trim_error hread
      have hrule : isRule (line, number) = false := by
        rw [isRule, halone []]
        rfl
      have hne : trim text ≠ [] := by
        rw [trim_trim]
        exact hline.1
      rw [List.filter_cons_of_pos (by simpa using hline)]
      refine ⟨?_, ?_⟩
      · rw [List.filter_cons_of_neg (by simpa using hrule)]
        exact ih.rules
      · rw [List.filter_cons_of_pos (by simpa using hrule)]
        exact .cons ⟨rfl, rfl, ne_empty_of_readRule hne hread, halone⟩ ih.skipped

/-! ## Reading but for ids -/

/-- **Two readings say the same**: the rules differ in their ids at most, and the same lines are set
aside. -/
structure SaysSame (read other : RuleText) : Prop where
  rules : read.rules.map Rule.content = other.rules.map Rule.content
  skipped : read.skipped = other.skipped

/-- Two lines are read the same if they have the same number and differ only in blanks at their
ends. -/
def LooksSame (line other : Text × Nat) : Prop := trim line.1 = trim other.1 ∧ line.2 = other.2

/-- **Lines that look the same say the same**, whatever the suffixes and however many rules stand
before. -/
theorem saysSame_readFrom (suffix suffix' : Nat → Text) {numbered numbered' : List (Text × Nat)}
    (h : List.Forall₂ LooksSame numbered numbered') (count count' : Nat) :
    (readFrom suffix count numbered).SaysSame (readFrom suffix' count' numbered') := by
  induction h generalizing count count' with
  | nil => exact ⟨rfl, rfl⟩
  | @cons line other rest rest' hline hrest ih =>
      obtain ⟨text, number⟩ := line
      obtain ⟨text', number'⟩ := other
      obtain ⟨htext, rfl⟩ : trim text = trim text' ∧ number = number' := hline
      rw [readFrom, readFrom, ← htext]
      by_cases hi : isIgnored (trim text) = true
      · simp only [if_pos hi]
        exact ih count count'
      · simp only [if_neg hi]
        rw [readRule_eq_map (suffix count), readRule_eq_map (suffix' count'), trim_trim]
        cases readRule [] (trim text) with
        | error error =>
            obtain ⟨hrules, hskipped⟩ := ih count count'
            exact ⟨hrules, congrArg (_ :: ·) hskipped⟩
        | ok said =>
            obtain ⟨hrules, hskipped⟩ := ih (count + 1) (count' + 1)
            exact ⟨congrArg (_ :: ·) hrules, hskipped⟩

theorem forall₂_looksSame_refl (numbered : List (Text × Nat)) :
    List.Forall₂ LooksSame numbered numbered :=
  List.forall₂_same.mpr fun _ _ => ⟨rfl, rfl⟩

/-- Lines and the pieces they end look the same. -/
theorem forall₂_looksSame_of_endsLine {pieces texts : List Text}
    (h : List.Forall₂ EndsLine pieces texts) (n : Nat) :
    List.Forall₂ LooksSame (pieces.zipIdx n) (texts.zipIdx n) := by
  induction h generalizing n with
  | nil => exact .nil
  | cons hfirst hlater ih => exact .cons ⟨hfirst.trim_eq, rfl⟩ (ih (n + 1))

/-! ## Putting texts together -/

/-- **Lines are read one part after the other.** -/
theorem readFrom_append (suffix : Nat → Text) (count : Nat) (front back : List (Text × Nat)) :
    readFrom suffix count (front ++ back)
      = ⟨(readFrom suffix count front).rules
          ++ (readFrom suffix (count + (readFrom suffix count front).rules.length) back).rules,
        (readFrom suffix count front).skipped
          ++ (readFrom suffix (count + (readFrom suffix count front).rules.length) back).skipped⟩ := by
  fun_induction readFrom suffix count front with
  | case1 count => rfl
  | case2 count line number rest text hi ih =>
      rw [List.cons_append, readFrom]
      simp only [text] at hi
      simp only [if_pos hi]
      exact ih
  | case3 count line number rest text hi rule hread later ih =>
      rw [List.cons_append, readFrom]
      simp only [text] at hi hread
      simp only [if_neg hi, hread]
      rw [ih, List.length_cons, Nat.add_assoc, Nat.add_comm 1]
      rfl
  | case4 count line number rest text hi error hread later ih =>
      rw [List.cons_append, readFrom]
      simp only [text] at hi hread
      simp only [if_neg hi, hread]
      rw [ih]
      rfl

/-- **With more lines before them the lines set aside have higher numbers**; nothing else changes. -/
theorem readFrom_zipIdx_add (suffix : Nat → Text) (count : Nat) (texts : List Text) (n k : Nat) :
    readFrom suffix count (texts.zipIdx (n + k))
      = ⟨(readFrom suffix count (texts.zipIdx n)).rules,
        (readFrom suffix count (texts.zipIdx n)).skipped.map (·.raise k)⟩ := by
  induction texts generalizing count n with
  | nil => rfl
  | cons text texts ih =>
      have hnext : n + k + 1 = n + 1 + k := by omega
      rw [List.zipIdx_cons, List.zipIdx_cons, readFrom, readFrom, hnext]
      by_cases hi : isIgnored (trim text) = true
      · simp only [if_pos hi]
        exact ih count (n + 1)
      · simp only [if_neg hi]
        cases readRule (suffix count) (trim text) with
        | error error =>
            dsimp only
            rw [ih count (n + 1)]
            rfl
        | ok rule =>
            dsimp only
            rw [ih (count + 1) (n + 1)]

/-- **A text is read piece by piece**: an empty piece behind the last line feed counts for
nothing. -/
theorem saysSame_pieces (suffix suffix' : Nat → Text) (text : Text) :
    (readFrom suffix' 0 ((splitOn '\n' text).zipIdx 1)).SaysSame (read suffix text) := by
  obtain ⟨pieces, rest, hsplit, hrest, hends⟩ := exists_endsLine text
  have hnothing : ∀ count n, readFrom suffix' count (rest.zipIdx n) = ⟨[], []⟩ := by
    intro count n
    rcases hrest with rfl | rfl <;> rfl
  have hpieces := saysSame_readFrom suffix' suffix (forall₂_looksSame_of_endsLine hends 1) 0 0
  rw [hsplit, List.zipIdx_append, readFrom_append, hnothing, List.append_nil, List.append_nil]
  exact hpieces

theorem SaysSame.trans {read other third : RuleText} (h : read.SaysSame other)
    (h' : other.SaysSame third) : read.SaysSame third :=
  ⟨h.rules.trans h'.rules, h.skipped.trans h'.skipped⟩

theorem SaysSame.symm {read other : RuleText} (h : read.SaysSame other) : other.SaysSame read :=
  ⟨h.rules.symm, h.skipped.symm⟩

/-- **Two texts with a line feed between them** say what the one says and then what the other
says. -/
theorem saysSame_append (suffix suffix₁ suffix₂ : Nat → Text) (text later : Text) :
    (read suffix (text ++ '\n' :: later)).SaysSame
      ⟨(read suffix₁ text).rules ++ (read suffix₂ later).rules, (read suffix₁ text).skipped
        ++ (read suffix₂ later).skipped.map (·.raise (text.count '\n' + 1))⟩ := by
  refine (saysSame_pieces suffix suffix (text ++ '\n' :: later)).symm.trans ?_
  have hfirst := saysSame_pieces suffix₁ suffix text
  have hpieces := saysSame_readFrom suffix suffix₂
    (forall₂_looksSame_refl ((splitOn '\n' later).zipIdx 1))
    (0 + (readFrom suffix 0 ((splitOn '\n' text).zipIdx 1)).rules.length) 0
  have hsecond := hpieces.trans (saysSame_pieces suffix₂ suffix₂ later)
  rw [splitOn_append_separator, List.zipIdx_append, length_splitOn, readFrom_append,
    readFrom_zipIdx_add]
  refine ⟨?_, ?_⟩
  · rw [List.map_append, List.map_append, hfirst.rules, hsecond.rules]
  · rw [hfirst.skipped, hsecond.skipped]

/-- **Carriage returns in front of line feeds** say nothing. -/
theorem saysSame_withReturns (suffix suffix' : Nat → Text) (text : Text) :
    (read suffix (withReturns text)).SaysSame (read suffix' text) :=
  (saysSame_pieces suffix suffix (withReturns text)).symm.trans
    ((saysSame_readFrom suffix suffix'
      (forall₂_looksSame_of_endsLine (endsLine_withReturns text) 1) 0 0).trans
      (saysSame_pieces suffix' suffix' text))

/-- **The events of reading account for the lines set aside**, one event for each in their order. -/
theorem forall₂_events {read : RuleText} {numbered : List (Text × Nat)}
    (h : read.Accounts numbered) :
    List.Forall₂ (fun line event => ∃ error, event = .skippedLine line.2 error ∧
      ∀ suffix, readRule suffix line.1 = .error error)
      (numbered.filter (! isRule ·)) read.events := by
  refine List.forall₂_map_right_iff.mpr (h.skipped.imp ?_)
  rintro line skipped ⟨hnumber, -, -, halone⟩
  exact ⟨skipped.error, by rw [hnumber], halone⟩

/-- **Reading loses no line and counts none twice.** Every line that counts gives a rule, or is set
aside and noted in an event, as it would be on its own. Two texts may be read apart and put together
afterwards, and carriage returns in front of line feeds say nothing. -/
theorem accounts_read (suffix : Nat → Text) (text : Text) :
    (read suffix text).Accounts (counted text) ∧
      List.Forall₂ (fun line event => ∃ error, event = .skippedLine line.2 error ∧
        ∀ suffix', readRule suffix' line.1 = .error error)
        ((counted text).filter (! isRule ·)) (read suffix text).events ∧
      (∀ suffix₁ suffix₂ later, (read suffix (text ++ '\n' :: later)).SaysSame
        ⟨(read suffix₁ text).rules ++ (read suffix₂ later).rules, (read suffix₁ text).skipped
          ++ (read suffix₂ later).skipped.map (·.raise (text.count '\n' + 1))⟩) ∧
      ∀ suffix', (read suffix' (withReturns text)).SaysSame (read suffix text) := by
  have haccounts : (read suffix text).Accounts (counted text) := accounts_readFrom suffix 0 _
  exact ⟨haccounts, forall₂_events haccounts,
    fun suffix₁ suffix₂ later => saysSame_append suffix suffix₁ suffix₂ text later,
    fun suffix' => saysSame_withReturns suffix' suffix text⟩

end RuleText

end RuleTable
