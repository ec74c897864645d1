import RuleTable.Proofs.Reading.Cuts
import RuleTable.Proofs.Reading.Halves
import RuleTable.Proofs.Reading.Scan

/-!
# Joining conditions

Whether a clause stays a clause when others are joined on with the word `and`. Two recognisers
have to agree on what `between` opens a range: the reader of the clause wants a blank on each side of
the word, while the scan for `and` only wants no letter, digit or `_` there. **They do not**: after
a `between` next to a hyphen, say, the scan waits for the `and` of a range that the clause does not
have, and swallows the clauses that follow. Clauses without such a `between` compose.
-/

set_option autoImplicit false

namespace RuleTable

open Text

/-! ## How a clause starts -/

theorem exists_letter_of_isVariable {text clause : Text} (h : isVariable text = true)
    (hp : text <+: clause) :
    ∃ c rest, clause = c :: rest ∧ (c.isAlpha || c == '_') = true := by
  cases text with
  | nil => cases h
  | cons c text =>
      obtain ⟨rest, rfl⟩ := hp
      rw [isVariable, Bool.and_eq_true] at h
      exact ⟨c, text ++ rest, rfl, h.1⟩

theorem left_startsClause {keyword clause : Text} {cut : Cut} (h : IsCut keyword clause cut) :
    cut.left <+: clause := by
  obtain ⟨w, heq, -⟩ := h
  rw [List.append_assoc] at heq
  exact (trimEnd_startsText _).trans ⟨_, heq.symm⟩

theorem exists_letter_of_readCut? {α β : Type} {keyword clause : Text}
    {operand? : Text → Option α} {make : Text × α → β} {result : β}
    (h : (readCut? keyword operand? clause).map make = some result) :
    ∃ c rest, clause = c :: rest ∧ (c.isAlpha || c == '_') = true := by
  obtain ⟨read, hread, -⟩ := Option.map_eq_some_iff.mp h
  obtain ⟨cut, hcut, hvariable, -, -⟩ := exists_cut_of_readCut? hread
  exact exists_letter_of_isVariable hvariable (left_startsClause hcut)

theorem exists_letter_of_readComparison? {clause : Text} {condition : Condition}
    (h : readComparison? clause = some condition) :
    ∃ c rest, clause = c :: rest ∧ (c.isAlpha || c == '_') = true := by
  simp only [readComparison?] at h
  split at h
  · split at h
    · next hvariable =>
        exact exists_letter_of_isVariable hvariable
          ((trimEnd_startsText _).trans (List.takeWhile_prefix _))
    · cases h
  · cases h

/-- **A clause with a condition starts as a variable does**, whatever its shape. -/
theorem exists_letter_of_readCondition {clause : Text} {condition : Condition}
    (h : readCondition clause = .ok condition) :
    ∃ c rest, clause = c :: rest ∧ (c.isAlpha || c == '_') = true := by
  simp only [readCondition] at h
  split at h
  · next condition' hread =>
      simp only [Option.orElse_eq_orElse, Option.orElse_eq_or, Option.or_eq_some_iff] at hread
      rcases hread with hrange | ⟨-, hlist | ⟨-, hcontains | ⟨-, hequal | ⟨-, hcompare⟩⟩⟩⟩
      · exact exists_letter_of_readCut? hrange
      · exact exists_letter_of_readCut? hlist
      · exact exists_letter_of_readCut? hcontains
      · exact exists_letter_of_readCut? hequal
      · exact exists_letter_of_readComparison? hcompare
  · cases h

/-- What starts with a letter is no numeral. -/
theorem isNumeral_of_letter {c : Char} (hc : (c.isAlpha || c == '_') = true) (text : Text) :
    isNumeral (c :: text) = false := by
  have hplus : c ≠ '+' := by
    rintro rfl
    revert hc
    decide
  have hminus : c ≠ '-' := by
    rintro rfl
    revert hc
    decide
  have hpoint : c ≠ '.' := by
    rintro rfl
    revert hc
    decide
  have hdigit : c.isDigit = false := by
    rw [← Bool.not_eq_true]
    intro hd
    rw [isAlpha_of_isDigit hd, Bool.false_or, beq_iff_eq] at hc
    rw [hc] at hd
    cases hd
  simp [isNumeral, hplus, hminus, hpoint, hdigit]

/-- The first token of a text that starts with a letter is no numeral. -/
theorem firstToken?_of_letter {c : Char} (hc : (c.isAlpha || c == '_') = true) (text : Text) :
    (firstToken? (c :: text)).any isNumeral = false := by
  have hblank : isAsciiBlank c = false := by
    rw [← Bool.not_eq_true]
    intro hb
    have hword := joinsKeyword_of_isBlank (isBlank_of_isAsciiBlank hb)
    rw [joinsKeyword, Char.isAlphanum, Bool.or_right_comm, hc, Bool.true_or] at hword
    cases hword
  have hskip : skipBlanks (c :: text) = c :: text := List.dropWhile_cons_of_neg (by simp [hblank])
  have htoken : (c :: text).takeWhile (! isAsciiBlank ·)
      = c :: text.takeWhile (! isAsciiBlank ·) := List.takeWhile_cons_of_pos (by simp [hblank])
  rw [firstToken?, hskip, htoken]
  exact isNumeral_of_letter hc _

/-! ## Clauses that are joined -/

/-- **A clause that stands alone**: trimmed, with a condition, and with nothing in it that a line
is cut at, namely commas, parentheses and the word `and`. -/
structure StandsAlone (clause : Text) (condition : Condition) : Prop where
  trimmed : trim clause = clause
  reads : readCondition clause = .ok condition
  flat : ∀ c ∈ clause, c ≠ ',' ∧ c ≠ '(' ∧ c ≠ ')'
  noAnd : ¬ Occurs isAsciiBlank "and".toList clause

/-- The scan takes a `between` of the clause for the start of a range. -/
def SeemsRange (clause : Text) : Prop := Occurs (! joinsKeyword ·) "between".toList clause

instance (clause : Text) : Decidable (SeemsRange clause) :=
  inferInstanceAs (Decidable (Occurs _ _ _))

namespace StandsAlone

variable {clause rest : Text} {condition : Condition}

theorem ne_nil (h : StandsAlone clause condition) : clause ≠ [] := by
  obtain ⟨c, rest, rfl, -⟩ := exists_letter_of_readCondition h.reads
  exact List.cons_ne_nil c rest

theorem unbracketed (h : StandsAlone clause condition) : ∀ c ∈ clause, c ≠ '(' ∧ c ≠ ')' :=
  fun c hc => (h.flat c hc).2

theorem passes (h : StandsAlone clause condition) (hshut : ¬ SeemsRange clause) : Passes clause :=
  passes_of_forall h.unbracketed h.noAnd hshut

theorem leads_range (h : StandsAlone clause condition) (hopens : SeemsRange clause)
    (hrest : EndsWord rest) : Leads .top [] clause rest .range :=
  leads_top_range h.unbracketed (hrest.noConjunction h.noAnd) (opensIn_nil_iff.mpr hopens) hrest

/-- Either way a clause without others is one clause. -/
theorem conditionClauses_eq (h : StandsAlone clause condition) :
    conditionClauses clause = [clause] := by
  have hone : clauseOf ([].reverse ++ clause) = [clause] := clauseOf_eq h.trimmed h.ne_nil
  by_cases hopens : SeemsRange clause
  · exact (conditionClausesFrom_of_leads (h.leads_range hopens endsWord_nil)).trans hone
  · exact (conditionClausesFrom_of_leads (h.passes hopens [] endsWord_nil)).trans hone

/-- Without others, its condition is the only one. -/
theorem readConditions_eq (h : StandsAlone clause condition) :
    readConditions clause = .ok [condition] := by
  rw [readConditions, h.conditionClauses_eq, List.mapM_cons, h.reads]
  rfl

end StandsAlone

section Swallowed

variable {clauses : List Text}

/-- Where clauses are joined on, the `and` in front of them does not close a range: the first of
them starts as a variable does, and not with a numeral. -/
theorem conditionClausesFrom_range_join (hne : clauses ≠ [])
    (h : ∀ clause ∈ clauses, ∃ condition, StandsAlone clause condition) (current : Text) :
    conditionClausesFrom .range current (" and ".toList ++ join " and ".toList clauses)
      = conditionClausesFrom .range (" and ".toList.reverse ++ current)
          (join " and ".toList clauses) := by
  have hnumeral : (firstToken? (join " and ".toList clauses)).any isNumeral = false := by
    obtain ⟨next, later, rfl⟩ := List.exists_cons_of_ne_nil hne
    obtain ⟨condition, hnext⟩ := h next List.mem_cons_self
    obtain ⟨c, tail, rfl, hc⟩ := exists_letter_of_readCondition hnext.reads
    by_cases hlater : later = []
    · simpa [join, hlater] using firstToken?_of_letter hc tail
    · rw [join_cons _ _ hlater]
      exact firstToken?_of_letter hc _
  rw [conditionClausesFrom_range_and, if_neg (Bool.eq_false_iff.mp hnumeral)]

/-- **In a range nothing ends a clause any more**: all that is joined on is swallowed. -/
theorem length_conditionClausesFrom_range_le (hne : clauses ≠ [])
    (h : ∀ clause ∈ clauses, ∃ condition, StandsAlone clause condition) (current : Text) :
    (conditionClausesFrom .range current (join " and ".toList clauses)).length ≤ 1 := by
  induction clauses generalizing current with
  | nil => exact absurd rfl hne
  | cons clause clauses ih =>
      obtain ⟨condition, hclause⟩ := h clause List.mem_cons_self
      have hleads {rest : Text} (hrest : EndsWord rest) : Leads .range current clause rest .range :=
        leads_range hclause.unbracketed (hrest.noConjunction hclause.noAnd)
      by_cases hnil : clauses = []
      · have hjoin : join " and ".toList [clause] = clause := by simp [join]
        rw [hnil, hjoin, conditionClausesFrom_of_leads (hleads endsWord_nil)]
        exact length_clauseOf_le _
      · have hrest : ∀ c ∈ clauses, ∃ condition, StandsAlone c condition :=
          fun c hc => h c (List.mem_cons_of_mem clause hc)
        rw [join_cons _ _ hnil, List.append_assoc, hleads (endsWord_and _),
          conditionClausesFrom_range_join hnil hrest]
        exact ih hnil hrest _

/-- **A clause that seems a range swallows what is joined on**, so there are fewer clauses than were
joined. -/
theorem length_conditionClauses_lt
    (h : ∀ clause ∈ clauses, ∃ condition, StandsAlone clause condition)
    (hopens : ∃ clause ∈ clauses.dropLast, SeemsRange clause) :
    (conditionClauses (join " and ".toList clauses)).length < clauses.length := by
  induction clauses with
  | nil =>
      obtain ⟨clause, hmem, -⟩ := hopens
      cases hmem
  | cons clause clauses ih =>
      obtain ⟨condition, hclause⟩ := h clause List.mem_cons_self
      have hrest : ∀ c ∈ clauses, ∃ condition, StandsAlone c condition :=
        fun c hc => h c (List.mem_cons_of_mem clause hc)
      have hnil : clauses ≠ [] := by
        rintro rfl
        obtain ⟨c, hmem, -⟩ := hopens
        cases hmem
      have hpos : 0 < clauses.length := List.length_pos_iff.mpr hnil
      rw [List.dropLast_cons_of_ne_nil hnil] at hopens
      rw [join_cons _ _ hnil, List.append_assoc, conditionClauses, List.length_cons]
      -- Either this clause swallows the next one, or it is a clause and a later one swallows.
      by_cases hseems : SeemsRange clause
      · have hle := length_conditionClausesFrom_range_le hnil hrest
          (" and ".toList.reverse ++ (clause.reverse ++ []))
        rw [hclause.leads_range hseems (endsWord_and _), conditionClausesFrom_range_join hnil hrest]
        omega
      · have hlater : ∃ c ∈ clauses.dropLast, SeemsRange c := by
          obtain ⟨c, hmem, hc⟩ := hopens
          rcases List.mem_cons.mp hmem with rfl | hmem
          · exact absurd hc hseems
          · exact ⟨c, hmem, hc⟩
        have hlt := ih hrest hlater
        have hle := length_clauseOf_le clause
        rw [hclause.passes hseems _ (endsWord_and _), List.append_nil, conditionClausesFrom_top_and,
          List.reverse_reverse, List.length_append, ← conditionClauses]
        omega

end Swallowed

/-! ## Conjunctions in a line -/

/-- Clauses without one that seems a range, but for the last, come apart again. -/
theorem conditionClauses_of_standsAlone {clauses : List Text} (hne : clauses ≠ [])
    (h : ∀ clause ∈ clauses, ∃ condition, StandsAlone clause condition)
    (hshut : ∀ clause ∈ clauses.dropLast, ¬ SeemsRange clause) :
    conditionClauses (join " and ".toList clauses) = clauses := by
  rw [← List.dropLast_concat_getLast hne]
  refine conditionClauses_join (fun clause hmem => ?_) ?_
  · obtain ⟨condition, hclause⟩ := h clause ((List.dropLast_sublist clauses).subset hmem)
    exact ⟨hclause.passes (hshut clause hmem), clauseOf_eq hclause.trimmed hclause.ne_nil⟩
  · obtain ⟨condition, hclause⟩ := h _ (List.getLast_mem hne)
    exact hclause.conditionClauses_eq

/-- The line of clauses that stand alone is read as a rule exactly if their text is read as
conditions. -/
theorem readRule_of_standsAlone_iff {suffix : Text} {clauses : List Text} {rule : Rule}
    (hne : clauses ≠ []) (h : ∀ clause ∈ clauses, ∃ condition, StandsAlone clause condition) :
    readRule suffix ("If ".toList ++ join " and ".toList clauses ++ ", y is 1".toList) = .ok rule
      ↔ rule.source = "If ".toList ++ join " and ".toList clauses ++ ", y is 1".toList ∧
        rule.id = RuleForm.when.idStem ++ suffix ∧
        readConditions (join " and ".toList clauses) = .ok rule.conditions ∧
        rule.actions = [.set "y".toList "1".toList] := by
  have hclosed : IsClosed (join " and ".toList clauses) := by
    refine isClosed_join (isClosed_of_forall (by decide)) fun clause hmem => ?_
    obtain ⟨condition, hclause⟩ := h clause hmem
    exact isClosed_of_forall hclause.flat
  have htrim : trim (join " and ".toList clauses) = join " and ".toList clauses := by
    refine trim_join hne fun clause hmem => ?_
    obtain ⟨condition, hclause⟩ := h clause hmem
    exact ⟨hclause.trimmed, hclause.ne_nil⟩
  have hactions : readActions "y is 1".toList = .ok [.set "y".toList "1".toList] := by decide +kernel
  have hline : "If ".toList ++ join " and ".toList clauses ++ ", y is 1".toList
      = "If ".toList ++ (join " and ".toList clauses ++ ", ".toList ++ "y is 1".toList) := by
    simp only [List.append_assoc]
    rfl
  rw [hline, readRule_halves_iff hclosed htrim (by decide) (by decide), hactions]
  constructor
  · rintro ⟨hsource, hid, hconditions, hok⟩
    exact ⟨hsource, hid, hconditions, (Except.ok.inj hok).symm⟩
  · rintro ⟨hsource, hid, hconditions, hok⟩
    exact ⟨hsource, hid, hconditions, by rw [hok]⟩

/-- **Conditions compose** exactly if no clause but the last seems a range: then, and only then, a
line of clauses that stand alone has the conditions that they have. -/
theorem conjunction_iff {suffix : Text} {clauses : List Text} {conditions : List Condition}
    (hne : clauses ≠ []) (h : List.Forall₂ StandsAlone clauses conditions) :
    (∃ rule, readRule suffix ("If ".toList ++ join " and ".toList clauses ++ ", y is 1".toList)
        = .ok rule ∧ rule.conditions = conditions)
      ↔ ∀ clause ∈ clauses.dropLast, ¬ Occurs (! joinsKeyword ·) "between".toList clause := by
  have hall : ∀ clause ∈ clauses, ∃ condition, StandsAlone clause condition := by
    have hboth : List.Forall₂ (fun clause condition =>
        (∃ condition, StandsAlone clause condition) ∧ StandsAlone clause condition)
        clauses conditions := h.imp fun clause condition hc => ⟨⟨condition, hc⟩, hc⟩
    exact ((List.forall₂_and_left _ _).mp hboth).1
  have hread : clauses.mapM readCondition = .ok conditions :=
    mapM_eq_ok_iff.mpr (h.imp fun _ _ hc => hc.reads)
  constructor
  · rintro ⟨rule, hrule, hconditions⟩ clause hmem hseems
    obtain ⟨-, -, hline, -⟩ := (readRule_of_standsAlone_iff hne hall).mp hrule
    -- If a clause swallowed another, there would be fewer of them than conditions.
    have hfewer := length_conditionClauses_lt hall ⟨clause, hmem, hseems⟩
    have hsame := (mapM_eq_ok_iff.mp hline).length_eq
    rw [hconditions, ← h.length_eq] at hsame
    omega
  · intro hshut
    have hconditions : conditions ≠ [] := by
      rintro rfl
      exact hne (List.forall₂_nil_right_iff.mp h)
    refine ⟨⟨_, conditions, [.set "y".toList "1".toList], _, hconditions, by decide⟩,
      (readRule_of_standsAlone_iff hne hall).mpr ⟨rfl, rfl, ?_, rfl⟩, rfl⟩
    rw [readConditions, conditionClauses_of_standsAlone hne hall hshut]
    exact hread

/-- Two clauses without a `between` have the two conditions they have alone. -/
theorem conjunction_of_two :
    List.Forall₂ StandsAlone ["a is 1".toList, "b > 2".toList]
        [.on "a".toList .equals "1".toList, .on "b".toList .greaterThan "2".toList] ∧
      ∃ rule, readRule "0".toList ("If ".toList
            ++ join " and ".toList ["a is 1".toList, "b > 2".toList] ++ ", y is 1".toList)
          = .ok rule ∧
        rule.conditions = [.on "a".toList .equals "1".toList, .on "b".toList .greaterThan "2".toList] := by
  have ha : StandsAlone "a is 1".toList (.on "a".toList .equals "1".toList) :=
    ⟨by decide, by decide +kernel, by decide, by decide⟩
  have hb : StandsAlone "b > 2".toList (.on "b".toList .greaterThan "2".toList) :=
    ⟨by decide, by decide +kernel, by decide, by decide⟩
  have hboth := List.Forall₂.cons ha (List.Forall₂.cons hb List.Forall₂.nil)
  exact ⟨hboth, (conjunction_iff (by decide) hboth).mpr (by decide)⟩

/-- **A `between` next to a hyphen swallows the next clause**, although it is no word of its own
between blanks: the two clauses do not have their two conditions together. -/
theorem not_conjunction_of_hyphen :
    (∀ clause ∈ ["a is x-between-y".toList, "b is 2".toList],
        trim clause = clause ∧ (∃ condition, readCondition clause = .ok condition) ∧
        (∀ c ∈ clause, c ≠ ',' ∧ c ≠ '(' ∧ c ≠ ')') ∧
        ¬ Occurs isBlank "and".toList clause ∧ ¬ Occurs isBlank "between".toList clause) ∧
      ¬ ∃ rule, readRule "0".toList "If a is x-between-y and b is 2, y is 1".toList = .ok rule ∧
        ["a is x-between-y".toList, "b is 2".toList].mapM readCondition = .ok rule.conditions := by
  have ha : StandsAlone "a is x-between-y".toList (.on "a".toList .equals "x-between-y".toList) :=
    ⟨by decide, by decide +kernel, by decide, by decide⟩
  have hb : StandsAlone "b is 2".toList (.on "b".toList .equals "2".toList) :=
    ⟨by decide, by decide +kernel, by decide, by decide⟩
  have hall : ∀ clause ∈ ["a is x-between-y".toList, "b is 2".toList],
      ∃ condition, StandsAlone clause condition := by
    rw [List.forall_mem_cons, List.forall_mem_singleton]
    exact ⟨⟨_, ha⟩, ⟨_, hb⟩⟩
  constructor
  · rw [List.forall_mem_cons, List.forall_mem_singleton]
    exact ⟨⟨ha.trimmed, ⟨_, ha.reads⟩, ha.flat, by decide, by decide⟩,
      ⟨hb.trimmed, ⟨_, hb.reads⟩, hb.flat, by decide, by decide⟩⟩
  · rintro ⟨rule, hrule, hconditions⟩
    obtain ⟨-, -, hline, -⟩ := (readRule_of_standsAlone_iff (List.cons_ne_nil _ _) hall).mp hrule
    have hfewer := length_conditionClauses_lt hall ⟨_, List.mem_cons_self, by decide⟩
    have hsame := (mapM_eq_ok_iff.mp hline).length_eq
    rw [← (mapM_eq_ok_iff.mp hconditions).length_eq] at hsame
    omega

end RuleTable
