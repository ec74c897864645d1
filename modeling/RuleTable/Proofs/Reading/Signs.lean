import RuleTable.Proofs.Reading.Shapes

/-!
# Runs of comparison characters

A comparison is read at the first character of a sign, and the sign is the longest one that starts
there. The characters of signs may go on behind it, and no sign is made of all of them then. **A
clause is read whole** when the sign is the run of all these characters, and when a clause without
such a sign is no comparison. A comparison is not read whole exactly if the run goes on behind a
sign, since what is left of the run is taken for the start of the value.
-/

set_option autoImplicit false

namespace RuleTable

open Text

/-! ## Symbols -/

/-- **The symbols** are the tokens of the operators other than `contains` and `isIn`. -/
theorem ofSymbol?_eq_some_iff {symbol : Text} {operator : Operator} :
    Operator.ofSymbol? symbol = some operator
      ↔ symbol = operator.token ∧ operator ≠ .contains ∧ operator ≠ .isIn := by
  constructor
  · intro h
    have htoken : operator.token = symbol := by simpa using List.find?_some h
    have hmem := List.mem_of_find?_eq_some h
    refine ⟨htoken.symm, ?_, ?_⟩
    · rintro rfl
      exact absurd hmem (by decide)
    · rintro rfl
      exact absurd hmem (by decide)
  · rintro ⟨rfl, hcontains, hin⟩
    cases operator with
    | contains => exact absurd rfl hcontains
    | isIn => exact absurd rfl hin
    | _ => decide

/-- All characters of a symbol are comparison characters. -/
theorem isComparisonChar_of_mem_token {operator : Operator}
    (h : operator ≠ .contains ∧ operator ≠ .isIn) :
    ∀ c ∈ operator.token, isComparisonChar c = true := by
  cases operator with
  | contains => exact absurd rfl h.1
  | isIn => exact absurd rfl h.2
  | _ => decide

/-- **A text that starts with a symbol starts with a longest one.** -/
theorem exists_startsSign {text symbol : Text} {operator : Operator}
    (h : Operator.ofSymbol? symbol = some operator) (hstarts : symbol <+: text) :
    ∃ sign rest, StartsSign text sign rest := by
  obtain ⟨rfl, hoperator⟩ := ofSymbol?_eq_some_iff.mp h
  obtain ⟨c, tail, htoken, -⟩ := exists_token_eq hoperator
  have hpos : 1 ≤ operator.token.length := by
    rw [htoken, List.length_cons]
    omega
  -- No symbol has more than two characters, so one that is longer than another is a longest one.
  by_cases hlonger : ∃ longer : Operator, (longer ≠ .contains ∧ longer ≠ .isIn) ∧
      longer.token <+: text ∧ operator.token.length < longer.token.length
  · obtain ⟨longer, hsign, ⟨rest, rfl⟩, hlt⟩ := hlonger
    refine ⟨longer, rest, hsign, rfl, fun other hother _ => ?_⟩
    have hle := length_token_le_two hother
    omega
  · obtain ⟨rest, rfl⟩ := hstarts
    refine ⟨operator, rest, hoperator, rfl, fun other hother hstarts => ?_⟩
    by_contra hlt
    exact hlonger ⟨other, hother, hstarts, by omega⟩

/-! ## Runs -/

/-- **The run of a clause**: the comparison characters from the first one on up to the next other
character, with what stands before and behind them. -/
structure HasRun (clause front run rest : Text) : Prop where
  clause_eq : clause = front ++ (run ++ rest)
  front : ∀ c ∈ front, isComparisonChar c = false
  ne_nil : run ≠ []
  run : ∀ c ∈ run, isComparisonChar c = true
  stops : Stops isComparisonChar rest

/-- A run is no symbol, but goes on behind one. -/
def IsOverlong (run : Text) : Prop :=
  Operator.ofSymbol? run = none ∧
    ∃ symbol operator, Operator.ofSymbol? symbol = some operator ∧ symbol <+: run

variable {clause : Text}

/-- A comparison character is no blank. -/
theorem isAsciiBlank_of_isComparisonChar {c : Char} (h : isComparisonChar c = true) :
    isAsciiBlank c = false :=
  isAsciiBlank_of_isBlank (isBlank_eq_false (p := isComparisonChar) (by decide) h)

/-- **A clause has one run.** -/
theorem HasRun.unique {front run rest front' run' rest' : Text} (h : HasRun clause front run rest)
    (h' : HasRun clause front' run' rest') : front = front' ∧ run = run' ∧ rest = rest' := by
  -- What stands before the run is itself a run, of the other characters.
  have hother : ∀ {front run rest : Text}, HasRun clause front run rest →
      (∀ c ∈ front, (! isComparisonChar c) = true) ∧ Stops (! isComparisonChar ·) (run ++ rest) := by
    intro front run rest h
    refine ⟨fun c hc => by rw [h.front c hc, Bool.not_false], ?_⟩
    exact stops_append_of_forall h.ne_nil (fun c hc => by rw [h.run c hc, Bool.not_true]) rest
  obtain ⟨hfront, hboth⟩ := Run.append_inj (r := ⟨front, (hother h).1⟩)
    (s := ⟨front', (hother h').1⟩) (hother h).2 (hother h').2 (h.clause_eq.symm.trans h'.clause_eq)
  obtain ⟨hrun, hrest⟩ := Run.append_inj (r := ⟨run, h.run⟩) (s := ⟨run', h'.run⟩) h.stops h'.stops
    hboth
  exact ⟨congrArg Run.text hfront, congrArg Run.text hrun, hrest⟩

/-- **The run of a comparison** starts with the sign that is read. The value starts behind the run
if the sign is all of it. -/
theorem Decomposes.exists_run {left : Text} {condition : Condition}
    (h : Decomposes clause .comparison left condition) :
    ∃ front run rest more, HasRun clause front run rest ∧ isVariable (trimEnd front) = true ∧
      run = condition.operator.token ++ more ∧
      (more = [] → condition.value = skipBlanks rest) ∧
      (condition.operator ≠ .contains ∧ condition.operator ≠ .isIn) ∧
      ∀ longer : Operator, longer ≠ .contains ∧ longer ≠ .isIn → longer.token <+: run →
        longer.token.length ≤ condition.operator.token.length := by
  cases h with
  | @comparison front text gap value operator hclause hfront hvariable hsign hgap hstops _ =>
      obtain ⟨hoperator, htext, hlongest⟩ := hsign
      have htoken := isComparisonChar_of_mem_token hoperator
      -- The run goes on behind the sign as long as there are comparison characters.
      let more := (gap ++ value).takeWhile isComparisonChar
      let rest := (gap ++ value).dropWhile isComparisonChar
      have hmore : more ++ rest = gap ++ value := List.takeWhile_append_dropWhile
      obtain ⟨c, tail, hcons, -⟩ := exists_token_eq hoperator
      refine ⟨front, operator.token ++ more, rest, more,
        ⟨?_, hfront, ?_, ?_, stops_dropWhile _⟩, hvariable, rfl, fun hnil => ?_, hoperator, ?_⟩
      · rw [hclause, htext, List.append_assoc, hmore]
      · rw [hcons]
        exact List.cons_ne_nil c _
      · exact List.forall_mem_append.mpr ⟨htoken, fun c hc => List.mem_takeWhile_imp hc⟩
      · rw [hnil, List.nil_append] at hmore
        rw [hmore, skipBlanks, dropWhile_append_of_stops hgap hstops]
        rfl
      · intro longer hlonger hstarts
        refine hlongest longer hlonger (hstarts.trans ⟨rest, ?_⟩)
        rw [htext, List.append_assoc, hmore]

/-- **An overlong run behind a variable makes a comparison**: its sign is the longest one, and the
rest of the run starts the value. -/
theorem exists_readComparison?_of_isOverlong {front run rest : Text} (h : HasRun clause front run rest)
    (hlong : IsOverlong run) (hvariable : isVariable (trimEnd front) = true) :
    ∃ condition, readComparison? clause = some condition := by
  obtain ⟨hnone, symbol, operator, hsymbol, hstarts⟩ := hlong
  obtain ⟨sign, after, hsign⟩ :=
    exists_startsSign hsymbol (hstarts.trans (List.prefix_append run rest))
  have hoperator := hsign.1
  -- The sign is no more than the run, and not all of it.
  obtain ⟨more, hmore, hafter⟩ := exists_of_append_eq h.stops
    (isComparisonChar_of_mem_token hoperator) hsign.2.1
  have hne : more ≠ [] := by
    rintro rfl
    rw [List.append_nil] at hmore
    rw [ofSymbol?_eq_some_iff.mpr ⟨hmore, hoperator⟩] at hnone
    cases hnone
  obtain ⟨c, tail, rfl⟩ := List.exists_cons_of_ne_nil hne
  have hc : isComparisonChar c = true := h.run c (by simp [hmore])
  have hstops : Stops isAsciiBlank after := by
    rw [hafter, List.cons_append, stops_cons]
    exact isAsciiBlank_of_isComparisonChar hc
  have hvalue : after ≠ [] := by
    rw [hafter]
    exact List.cons_ne_nil c _
  -- No blank is skipped behind the sign.
  have hway : Decomposes clause .comparison (trimEnd front)
      (.on (trimEnd front) sign after) :=
    @Decomposes.comparison clause front (run ++ rest) [] after sign h.clause_eq h.front hvariable
      hsign (fun c hc => absurd hc List.not_mem_nil) hstops hvalue
  exact ⟨_, readComparison?_eq_some_iff.mpr ⟨_, hway⟩⟩

/-! ## Clauses that are read whole -/

/-- **A clause is read in a shape**: by the reader of the shape, and by none before it. -/
def IsReadAs (clause : Text) (shape : Shape) (condition : Condition) : Prop :=
  shape.read? clause = some condition ∧
    ∀ earlier : Shape, earlier.rank < shape.rank → earlier.read? clause = none

/-- No shape but the comparison reads the clause. -/
def OnlyCompares (clause : Text) : Prop :=
  ∀ shape : Shape, shape ≠ .comparison → shape.read? clause = none

/-- **A clause is read whole.** -/
structure ReadsWhole (clause : Text) : Prop where
  /-- Where it is read as a comparison, the operator is the one of its run, and the value starts
  behind the run. -/
  accepted : ∀ condition, IsReadAs clause .comparison condition →
    ∃ front run rest, HasRun clause front run rest ∧
      Operator.ofSymbol? run = some condition.operator ∧ condition.value = skipBlanks rest
  /-- Where its run is no symbol and no other shape reads it, it cannot be read at all. -/
  rejected : ∀ front run rest, HasRun clause front run rest → Operator.ofSymbol? run = none →
    OnlyCompares clause → readCondition clause = .error (.unreadable .condition clause)

/-- The comparison is the last of the shapes. -/
theorem onlyCompares_iff :
    OnlyCompares clause
      ↔ ∀ earlier : Shape, earlier.rank < Shape.comparison.rank → earlier.read? clause = none := by
  refine forall_congr' fun shape => imp_congr_left ?_
  cases shape <;> decide

theorem readCondition_of_onlyCompares (h : OnlyCompares clause) :
    readCondition clause
      = (readComparison? clause).elim (.error (.unreadable .condition clause)) .ok := by
  have hshapes : readShapes? clause = readComparison? clause := by
    rw [readShapes?, h .range (by decide), h .list (by decide), h .containment (by decide),
      h .equality (by decide)]
    rfl
  rw [readCondition_eq, hshapes]
  cases readComparison? clause with
  | none => rfl
  | some condition => rfl

/-- **What is left of the run of a comparison** makes it overlong, if there is any of it. -/
theorem isOverlong_of_append {operator : Operator} {more : Text}
    (hoperator : operator ≠ .contains ∧ operator ≠ .isIn)
    (hlongest : ∀ longer : Operator, longer ≠ .contains ∧ longer ≠ .isIn →
      longer.token <+: operator.token ++ more → longer.token.length ≤ operator.token.length)
    (hne : more ≠ []) : IsOverlong (operator.token ++ more) := by
  refine ⟨?_, operator.token, operator, ofSymbol?_eq_some_iff.mpr ⟨rfl, hoperator⟩,
    List.prefix_append _ _⟩
  cases hsymbol : Operator.ofSymbol? (operator.token ++ more) with
  | none => rfl
  | some longer =>
      -- Otherwise the whole run would be a sign longer than the longest one.
      obtain ⟨htoken, hlonger⟩ := ofSymbol?_eq_some_iff.mp hsymbol
      have hle := hlongest longer hlonger ⟨[], by rw [List.append_nil, htoken]⟩
      rw [← htoken, List.length_append] at hle
      have hpos := List.length_pos_iff.mpr hne
      omega

/-- **Nothing is left of the run of a comparison** where a run behind a variable is never overlong. -/
theorem exists_hasRun_of_readComparison? {condition : Condition}
    (hshort : ∀ front run rest, HasRun clause front run rest →
      isVariable (trimEnd front) = true → ¬ IsOverlong run)
    (hread : readComparison? clause = some condition) :
    ∃ front run rest, HasRun clause front run rest ∧
      Operator.ofSymbol? run = some condition.operator ∧ condition.value = skipBlanks rest := by
  obtain ⟨left, hway⟩ := readComparison?_eq_some_iff.mp hread
  obtain ⟨front, run, rest, more, hrun, hvariable, rfl, hvalue, hoperator, hlongest⟩ :=
    hway.exists_run
  have hnil : more = [] := by
    by_contra hne
    exact hshort front _ rest hrun hvariable (isOverlong_of_append hoperator hlongest hne)
  refine ⟨front, _, rest, hrun, ?_, hvalue hnil⟩
  rw [hnil, List.append_nil]
  exact ofSymbol?_eq_some_iff.mpr ⟨rfl, hoperator⟩

/-- **A clause is read whole exactly if its run is not overlong**, or no variable stands before the
run, or another shape reads the clause. -/
theorem readsWhole_iff (clause : Text) :
    ReadsWhole clause
      ↔ ∀ front run rest, HasRun clause front run rest → IsOverlong run →
        isVariable (trimEnd front) = true → ¬ OnlyCompares clause := by
  constructor
  · intro h front run rest hrun hlong hvariable honly
    obtain ⟨condition, hread⟩ := exists_readComparison?_of_isOverlong hrun hlong hvariable
    have herror := h.rejected front run rest hrun hlong.1 honly
    rw [readCondition_of_onlyCompares honly, hread] at herror
    cases herror
  · intro h
    have hshort : OnlyCompares clause → ∀ front run rest, HasRun clause front run rest →
        isVariable (trimEnd front) = true → ¬ IsOverlong run :=
      fun honly front run rest hrun hvariable hlong => h front run rest hrun hlong hvariable honly
    constructor
    · intro condition hread
      have honly := onlyCompares_iff.mpr hread.2
      exact exists_hasRun_of_readComparison? (hshort honly) hread.1
    · intro front run rest hrun hnone honly
      rw [readCondition_of_onlyCompares honly]
      cases hread : readComparison? clause with
      | none => rfl
      | some condition =>
          -- The run of the comparison is the one run of the clause, which is no symbol.
          obtain ⟨front', run', rest', hrun', hsome, -⟩ :=
            exists_hasRun_of_readComparison? (hshort honly) hread
          obtain ⟨-, rfl, -⟩ := hrun.unique hrun'
          rw [hnone] at hsome
          cases hsome

/-- **A doubled equality sign is not read whole**: the second one becomes the start of the value. -/
theorem not_readsWhole_doubled :
    readCondition "a == 1".toList = .ok (.on "a".toList .equals "= 1".toList) ∧
      ¬ ReadsWhole "a == 1".toList := by
  have hread : readCondition "a == 1".toList = .ok (.on "a".toList .equals "= 1".toList) := by
    decide
  have hrun : HasRun "a == 1".toList "a ".toList "==".toList " 1".toList :=
    ⟨rfl, by decide, by decide, by decide, stops_cons.mpr (by decide)⟩
  have honly : OnlyCompares "a == 1".toList := by
    intro shape hne
    cases shape with
    | comparison => exact absurd rfl hne
    | _ => decide
  refine ⟨hread, fun h => ?_⟩
  have herror := h.rejected _ _ _ hrun (by decide) honly
  rw [hread] at herror
  cases herror

end RuleTable
