import RuleTable.Proofs.Reading.Passage

/-!
# The pieces of a half

Each half of a rule falls at its conjunctions into pieces, and of each piece the blanks at its ends
are taken away. **`SplitsInto`** says what the clauses that come out have to do with the text: nothing
but blanks and conjunctions is lost, and a clause is not split again. That it is not is a fact about
the scanner, which looks beyond the end of a clause and carries its place into it: the passage through
a clause on its own is made from the passage through the piece it stands in.
-/

set_option autoImplicit false

namespace RuleTable

open Text

/-! ## Divisions -/

/-- **What is left of a piece** without the blanks at its ends: one clause, or nothing at all. -/
inductive Leaves : Text → List Text → Prop
  | blank {piece : Text} (h : ∀ c ∈ piece, isBlank c = true) : Leaves piece []
  | clause {before clause after : Text} (hbefore : ∀ c ∈ before, isBlank c = true)
      (hafter : ∀ c ∈ after, isBlank c = true) (hstart : StartsInk clause)
      (hend : EndsInk clause) : Leaves (before ++ clause ++ after) [clause]

/-- **A division of a text** into pieces with conjunctions between them, and the clauses that are
left of the pieces. `Takes piece conjunction rest` says that the conjunction between `piece` and `rest` was
taken for one, as the first of them, and `Ends piece` that none was taken in `piece` at the end of the
text. -/
inductive Division (Takes : Text → Text → Text → Prop) (Ends : Text → Prop) :
    Text → List Text → Prop
  | last {piece : Text} {clauses : List Text} (h : Leaves piece clauses) (hends : Ends piece) :
      Division Takes Ends piece clauses
  | more {piece conjunction rest : Text} {clauses later : List Text} (h : Leaves piece clauses)
      (hconjunction : IsConjunction conjunction) (htakes : Takes piece conjunction rest)
      (hrest : Division Takes Ends rest later) :
      Division Takes Ends (piece ++ conjunction ++ rest) (clauses ++ later)

/-- **A text splits into clauses**: they are trimmed and not empty, they are what is left of the
pieces of the text, and each of them splits into itself. -/
structure SplitsInto (Takes : Text → Text → Text → Prop) (Ends : Text → Prop)
    (clausesOf : Text → List Text) (text : Text) : Prop where
  trimmed : ∀ clause ∈ clausesOf text, trim clause = clause ∧ clause ≠ []
  division : Division Takes Ends text (clausesOf text)
  final : ∀ clause ∈ clausesOf text, clausesOf clause = [clause]

/-- What is left of a piece is what trimming makes of it. -/
theorem leaves_clauseOf (piece : Text) : Leaves piece (clauseOf piece) := by
  obtain ⟨before, after, heq, hbefore, hafter⟩ := exists_blanks_of_trim piece
  by_cases hnil : trim piece = []
  · rw [clauseOf, if_pos (List.isEmpty_iff.mpr hnil)]
    refine Leaves.blank fun c hc => ?_
    rw [heq, hnil, List.append_nil, List.mem_append] at hc
    exact hc.elim (hbefore c) (hafter c)
  · have hleaves := Leaves.clause hbefore hafter (startsInk_trim hnil) (endsInk_trim hnil)
    rw [clauseOf, if_neg (by simpa using hnil)]
    rwa [← heq] at hleaves

theorem Leaves.trimmed {piece clause : Text} {clauses : List Text} (h : Leaves piece clauses)
    (hmem : clause ∈ clauses) : trim clause = clause ∧ clause ≠ [] := by
  cases h with
  | blank => cases hmem
  | clause _ _ hstart hend =>
      obtain rfl := List.mem_singleton.mp hmem
      exact ⟨trim_eq_self hstart hend, hstart.ne_nil⟩

theorem Division.trimmed {Takes : Text → Text → Text → Prop} {Ends : Text → Prop}
    {text clause : Text} {clauses : List Text} (h : Division Takes Ends text clauses)
    (hmem : clause ∈ clauses) : trim clause = clause ∧ clause ≠ [] := by
  induction h with
  | last h _ => exact h.trimmed hmem
  | more h _ _ _ ih =>
      rcases List.mem_append.mp hmem with hmem | hmem
      · exact h.trimmed hmem
      · exact ih hmem

/-! ## The passage through a clause on its own -/

section Passage

variable {reader reader' : Reader} {place : Place} {before text rest : Text} {pieces : List Text}
  {c : Char}

/-- Of what was read the scanner sees only whether a word goes on. -/
theorem scan_congr {before' : Text}
    (h : before.head?.any joinsKeyword = before'.head?.any joinsKeyword) :
    place.scan before c text = place.scan before' c text := by
  rw [Place.scan_eq, Place.scan_eq, opensRange, opensRange, h]

/-- What was read before a clause may be left out, if no word goes on in the clause. -/
theorem Scans.of_head (h : Scans reader text pieces reader' rest) (hpieces : pieces = [])
    (hbefore : before.head?.any joinsKeyword = reader.current.head?.any joinsKeyword) :
    ∃ reader'', Scans ⟨reader.place, before⟩ text [] reader'' rest := by
  induction h generalizing before with
  | nil reader text => exact ⟨_, .nil _ text⟩
  | @character _ _ before' _ _ c _ _ hscan _ ih =>
      have hnext : (c :: before).head?.any joinsKeyword = (c :: before').head?.any joinsKeyword := rfl
      obtain ⟨reader'', hrest⟩ := ih hpieces hnext
      exact ⟨reader'', .character ((scan_congr hbefore).trans hscan) hrest⟩
  | @rangeAnd _ _ before' text _ c _ _ hscan _ ih =>
      have hnext : ((text.take 4).reverse ++ c :: before).head?.any joinsKeyword
          = ((text.take 4).reverse ++ c :: before').head?.any joinsKeyword := by
        cases (text.take 4).reverse <;> rfl
      obtain ⟨reader'', hrest⟩ := ih hpieces hnext
      exact ⟨reader'', .rangeAnd ((scan_congr hbefore).trans hscan) hrest⟩
  | conjunction => cases hpieces

/-- At the top a blank leads nowhere else, unless a conjunction starts there. -/
theorem scan_top_of_isBlank (h : isBlank c = true) (hand : startsConjunction (c :: text) = false) :
    Place.top.scan before c text = .character .top :=
  scan_top (ne_of_isBlank h (by decide)) (ne_of_isBlank h (by decide))
    (opensRange_of_isAlpha (isAlpha_of_isBlank h)) hand

/-- **Blanks in front of a clause** are passed at the top. -/
theorem Scans.drop_blanks {blanks : Text} (hblanks : ∀ c ∈ blanks, isBlank c = true)
    (h : Scans ⟨.top, before⟩ (blanks ++ text) [] reader' rest)
    (hlength : rest.length ≤ text.length) :
    Scans ⟨.top, blanks.reverse ++ before⟩ text [] reader' rest := by
  induction blanks generalizing before with
  | nil => exact h
  | cons b blanks ih =>
      have hb := hblanks b List.mem_cons_self
      have htail : ∀ c ∈ blanks, isBlank c = true := fun c hc =>
        hblanks c (List.mem_cons_of_mem b hc)
      rw [List.reverse_cons, List.append_assoc, List.singleton_append]
      rw [List.cons_append] at h
      cases h with
      | nil =>
          rw [List.length_cons, List.length_append] at hlength
          omega
      | character hscan hrest =>
          by_cases hand : startsConjunction (b :: (blanks ++ text)) = true
          · rw [scan_eq_conjunction_iff.mpr ⟨rfl, hand⟩] at hscan
            cases hscan
          · rw [scan_top_of_isBlank hb (Bool.not_eq_true _ ▸ hand)] at hscan
            cases hscan
            exact ih htail hrest
      | rangeAnd hscan => cases (scan_eq_rangeAnd_iff.mp hscan).1

/-- Where no conjunction starts, any reader passes a text. -/
theorem exists_scans_of_noConjunction (h : NoConjunction text []) (place : Place)
    (before : Text) : ∃ reader', Scans ⟨place, before⟩ text [] reader' [] := by
  induction text generalizing place before with
  | nil => exact ⟨_, .nil _ []⟩
  | cons c text ih =>
      have hhere : startsConjunction (c :: text) = false := by
        have hall := h [] (c :: text) rfl (List.cons_ne_nil c text)
        rwa [List.append_nil] at hall
      have htail : NoConjunction text [] := fun front back heq =>
        h (c :: front) back (by rw [heq, List.cons_append])
      obtain ⟨reader', hrest⟩ := ih htail (place.next (opensRange before (c :: text)) c) (c :: before)
      have hscan : place.scan before c text
          = .character (place.next (opensRange before (c :: text)) c) :=
        scan_eq_character_iff.mpr ⟨rfl, fun hand => by rw [hhere] at hand; cases hand⟩
      exact ⟨reader', .character hscan hrest⟩

/-- A text shorter than a conjunction holds none. -/
theorem noConjunction_of_length (h : text.length < 5) : NoConjunction text [] := by
  rintro front back rfl hback
  obtain ⟨c, back, rfl⟩ := List.exists_cons_of_ne_nil hback
  rw [List.append_nil, ← Bool.not_eq_true]
  intro hand
  have hfour := length_of_startsConjunction hand
  rw [List.length_append, List.length_cons] at h
  omega

/-- A text of one token holds no conjunction. -/
theorem noConjunction_of_token (h : ∀ c ∈ skipBlanks text, isAsciiBlank c = false) :
    NoConjunction text [] := by
  rintro front back heq -
  rw [List.append_nil, ← Bool.not_eq_true, startsConjunction_iff]
  rintro ⟨b, w, b', after, rfl, -, hsame, hb'⟩
  obtain ⟨hne, hletters⟩ := IsKeyword.of_sameLetters (by decide) hsame
  obtain ⟨d, w, rfl⟩ := List.exists_cons_of_ne_nil hne
  -- A letter stands in front of the last blank, so that is not among the ones that are skipped.
  have hskip : text.takeWhile isAsciiBlank ++ skipBlanks text
      = (front ++ [b]) ++ (d :: w ++ b' :: after) := by
    rw [skipBlanks, List.takeWhile_append_dropWhile, heq]
    simp
  have hblanks : ∀ c ∈ text.takeWhile isAsciiBlank, isAsciiBlank c = true := fun _ =>
    List.mem_takeWhile_imp
  rcases List.append_eq_append_iff.mp hskip with ⟨m, -, hm⟩ | ⟨m, hm, htail⟩
  · rw [h b' (by simp [hm])] at hb'
    cases hb'
  · cases m with
    | nil =>
        rw [List.nil_append] at htail
        rw [h b' (by rw [← htail]; simp)] at hb'
        cases hb'
    | cons e m =>
        obtain ⟨rfl, -⟩ := List.cons.inj htail
        have hd := hblanks d (by simp [hm])
        have hletter := hletters d List.mem_cons_self
        rw [isAlpha_of_isBlank (isBlank_of_isAsciiBlank hd)] at hletter
        cases hletter

/-- The first token is the same whatever stands behind a blank that follows it. -/
theorem firstToken?_append_of_mem (h : c ∈ skipBlanks text) (hc : isAsciiBlank c = true)
    (rest : Text) : firstToken? (text ++ rest) = firstToken? text := by
  have hne : ¬ (text.dropWhile isAsciiBlank).isEmpty = true := by
    intro hempty
    rw [skipBlanks, List.isEmpty_iff.mp hempty] at h
    cases h
  have hskip : skipBlanks (text ++ rest) = skipBlanks text ++ rest := by
    rw [skipBlanks, List.dropWhile_append, if_neg hne, skipBlanks]
  have htoken : ¬ ((skipBlanks text).takeWhile (! isAsciiBlank ·)).length
      = (skipBlanks text).length := by
    intro hlength
    have hall := List.takeWhile_eq_self_iff.mp ((List.takeWhile_prefix _).eq_of_length hlength)
    have hcontra := hall c h
    rw [hc] at hcontra
    cases hcontra
  rw [firstToken?, firstToken?, hskip, List.takeWhile_append, if_neg htoken]

/-- A character that is read in front of another text is read on its own, too. -/
theorem scan_of_append {tail : Text} {next : Place} (htail : Stops joinsKeyword tail)
    (h : place.scan before c (text ++ tail) = .character next) :
    place.scan before c text = .character next := by
  obtain ⟨hnext, hparens⟩ := scan_eq_character_iff.mp h
  rw [← List.cons_append, opensRange_append htail] at hnext
  refine scan_eq_character_iff.mpr ⟨hnext, fun hand => hparens ?_⟩
  rw [startsConjunction_append (length_of_startsConjunction hand), hand]

/-- **What follows a clause may be left out**: the scanner passes the clause on its own as it does in
front of another text. -/
theorem Scans.of_append {tail : Text} (h : Scans reader (text ++ tail) pieces reader' rest)
    (hpieces : pieces = []) (hlength : rest.length ≤ tail.length)
    (htail : Stops joinsKeyword tail) : ∃ reader'', Scans reader text [] reader'' [] := by
  generalize hall : text ++ tail = all at h
  induction h generalizing text with
  | nil reader all =>
      rw [← hall, List.length_append] at hlength
      obtain rfl := List.length_eq_zero_iff.mp (show text.length = 0 by omega)
      exact ⟨reader, .nil _ []⟩
  | @character place next before all _ c _ _ hscan _ ih =>
      cases text with
      | nil => exact ⟨_, .nil _ []⟩
      | cons d text =>
          rw [List.cons_append] at hall
          obtain ⟨rfl, rfl⟩ := List.cons.inj hall
          obtain ⟨reader'', hrest⟩ := ih hpieces hlength rfl
          exact ⟨reader'', .character (scan_of_append htail hscan) hrest⟩
  | @rangeAnd place next before all _ c _ _ hscan _ ih =>
      cases text with
      | nil => exact ⟨_, .nil _ []⟩
      | cons d text =>
          rw [List.cons_append] at hall
          obtain ⟨rfl, rfl⟩ := List.cons.inj hall
          obtain ⟨rfl, hand, hnext⟩ := scan_eq_rangeAnd_iff.mp hscan
          by_cases hfour : 4 ≤ text.length
          · have hdrop : text.drop 4 ++ tail = (text ++ tail).drop 4 :=
              (List.drop_append_of_le_length hfour).symm
            rw [startsConjunction_append hfour] at hand
            by_cases hblank : ∃ e ∈ skipBlanks (text.drop 4), isAsciiBlank e = true
            · -- The token behind the `and` ends in the clause, so the range is closed or not as before.
              obtain ⟨e, hmem, he⟩ := hblank
              rw [← hdrop, firstToken?_append_of_mem hmem he] at hnext
              obtain ⟨reader'', hrest⟩ := ih hpieces hlength hdrop
              rw [List.take_append_of_le_length hfour] at hrest
              exact ⟨reader'', .rangeAnd (scan_eq_rangeAnd_iff.mpr ⟨rfl, hand, hnext⟩) hrest⟩
            · have htoken : NoConjunction (text.drop 4) [] := noConjunction_of_token
                fun e hmem => by simpa using fun he => hblank ⟨e, hmem, he⟩
              obtain ⟨reader'', hrest⟩ := exists_scans_of_noConjunction htoken _ _
              exact ⟨reader'', .rangeAnd (scan_eq_rangeAnd_iff.mpr ⟨rfl, hand, rfl⟩) hrest⟩
          · exact exists_scans_of_noConjunction
              (noConjunction_of_length (by rw [List.length_cons]; omega)) _ _
  | conjunction => cases hpieces

end Passage

/-! ## The conditions -/

/-- **A conjunction of the conditions is taken** where the scanner, from the start of a piece, ends
the clause with the piece and is back at the start behind the conjunction. -/
def TakesCondition (piece conjunction rest : Text) : Prop :=
  Scans .start (piece ++ conjunction ++ rest) [piece] .start rest

/-- **No conjunction of the conditions is taken** in a piece that the scanner passes to the end of
the text, from the start of the piece and with no end of a clause. -/
def EndsConditions (piece : Text) : Prop := ∃ reader, Scans .start piece [] reader []

/-- A text that is passed without an end of a clause is one clause. -/
theorem conditionClauses_of_scans {text : Text} {reader : Reader}
    (h : Scans .start text [] reader []) : conditionClauses text = clauseOf text := by
  have hread : reader.current.reverse ++ [] = text := h.read_append rfl
  rw [List.append_nil] at hread
  have hclauses := h.conditionClausesFrom_eq
  rw [conditionClausesFrom, hread] at hclauses
  exact hclauses

/-- **A clause splits into itself** if it is left of a piece through which the scanner passes. -/
theorem conditionClauses_of_mem {piece behind clause : Text} {clauses : List Text} {reader : Reader}
    (hscans : Scans .start (piece ++ behind) [] reader behind)
    (hbehind : Stops joinsKeyword behind) (h : Leaves piece clauses) (hmem : clause ∈ clauses) :
    conditionClauses clause = [clause] := by
  obtain ⟨htrim, hne⟩ := h.trimmed hmem
  cases h with
  | blank => cases hmem
  | @clause before _ after hbefore hafter _ _ =>
      obtain rfl := List.mem_singleton.mp hmem
      have hstops : Stops joinsKeyword (after ++ behind) := Stops.append
        (fun c hc => joinsKeyword_of_isBlank (hafter c (List.mem_of_mem_head? hc))) hbehind
      -- In front of the clause no word goes on: there are blanks, or nothing at all.
      have hhead : ([] : Text).head?.any joinsKeyword
          = (before.reverse ++ ([] : Text)).head?.any joinsKeyword := by
        rw [List.append_nil, List.head?_reverse]
        cases hlast : before.getLast? with
        | none => rfl
        | some b =>
            rw [Option.any_some, joinsKeyword_of_isBlank (hbefore b (List.mem_of_getLast? hlast))]
            rfl
      rw [List.append_assoc, List.append_assoc] at hscans
      have hinner := hscans.drop_blanks hbefore (by simp only [List.length_append]; omega)
      obtain ⟨_, hfresh⟩ := hinner.of_head rfl hhead
      obtain ⟨reader', halone⟩ := hfresh.of_append rfl (by simp) hstops
      rw [conditionClauses_of_scans halone, clauseOf_eq htrim hne]

/-- **From any place on** the clauses of the conditions are those of the pieces, and each of them
splits into itself, where the scanner has come to that place from the start of a piece. -/
theorem division_conditionClausesFrom {reader reader' : Reader} {text rest : Text}
    {pieces : List Text} (h : Scans reader text pieces reader' rest) (hrest : rest = [])
    (hread : Scans .start (reader.current.reverse ++ text) [] reader text) :
    Division TakesCondition EndsConditions (reader.current.reverse ++ text)
        (conditionClausesFrom reader.place reader.current text) ∧
      ∀ clause ∈ conditionClausesFrom reader.place reader.current text,
        conditionClauses clause = [clause] := by
  induction h with
  | nil reader text =>
      subst hrest
      have hleaves := leaves_clauseOf reader.current.reverse
      rw [conditionClausesFrom]
      refine ⟨?_, fun clause hmem => ?_⟩
      · rw [List.append_nil] at hread ⊢
        exact .last hleaves ⟨reader, hread⟩
      · exact conditionClauses_of_mem hread (by simp [Stops]) hleaves hmem
  | @character place next before text _ c _ _ hscan _ ih =>
      have hnext := hread.trans (.character hscan (.nil _ _))
      have htext : (c :: before).reverse ++ text = before.reverse ++ c :: text := by simp
      rw [conditionClausesFrom]
      simp only [hscan]
      rw [← htext] at hnext ⊢
      exact ih hrest hnext
  | @rangeAnd place next before text _ c _ _ hscan _ ih =>
      have hnext := hread.trans (.rangeAnd hscan (.nil _ _))
      have htext : ((text.take 4).reverse ++ c :: before).reverse ++ text.drop 4
          = before.reverse ++ c :: text := by simp
      rw [conditionClausesFrom]
      simp only [hscan]
      rw [← htext] at hnext ⊢
      exact ih hrest hnext
  | @conjunction place before text _ c _ _ hscan _ ih =>
      obtain ⟨-, hand⟩ := scan_eq_conjunction_iff.mp hscan
      obtain ⟨b, w, b', after, heq, hb, -, -⟩ := startsConjunction_iff.mp hand
      obtain ⟨rfl, -⟩ := List.cons.inj heq
      have htext : before.reverse ++ (c :: text.take 4) ++ text.drop 4
          = before.reverse ++ c :: text := by simp
      have htakes := hread.trans (.conjunction hscan (.nil _ _))
      obtain ⟨hdivision, hfinal⟩ := ih hrest (.nil _ _)
      have hleaves := leaves_clauseOf before.reverse
      rw [conditionClausesFrom]
      simp only [hscan]
      refine ⟨?_, fun clause hmem => ?_⟩
      · rw [← htext] at htakes ⊢
        exact .more hleaves (isConjunction_of_startsConjunction hand) htakes hdivision
      · rcases List.mem_append.mp hmem with hmem | hmem
        · have hstops : Stops joinsKeyword (c :: text) :=
            stops_cons.mpr (joinsKeyword_of_isBlank (isBlank_of_isAsciiBlank hb))
          exact conditionClauses_of_mem hread hstops hleaves hmem
        · exact hfinal clause hmem

/-! ## The actions -/

/-- **A conjunction of the actions is taken** where it is the first `and` of a piece that stands
alone. -/
def TakesAction (piece conjunction rest : Text) : Prop :=
  NoAnd piece (conjunction ++ rest) ∧ afterAnd? (conjunction ++ rest) = some rest

/-- **No conjunction of the actions is taken** in a piece at the end of the text in which no `and`
stands alone. -/
def EndsActions (piece : Text) : Prop := NoAnd piece []

theorem noAnd_nil (rest : Text) : NoAnd [] rest := by
  intro front back hnil hback
  obtain ⟨-, rfl⟩ := List.append_eq_nil_iff.mp hnil.symm
  cases hback

/-- A piece goes on by a character behind which no `and` stands alone. -/
theorem NoAnd.concat {text rest : Text} {c : Char} (h : NoAnd text (c :: rest))
    (hc : isAsciiBlank c = true → afterAnd? (c :: rest) = none) : NoAnd (text ++ [c]) rest := by
  intro front back heq hback
  rcases List.append_eq_append_iff.mp heq with ⟨m, rfl, hm⟩ | ⟨m, rfl, rfl⟩
  · cases m with
    | nil =>
        obtain rfl : [c] = back := hm
        exact hc (by simpa [startsBlank] using hback)
    | cons d m =>
        obtain ⟨-, rfl⟩ := List.append_eq_nil_iff.mp (List.cons.inj hm).2.symm
        cases hback
  · cases m with
    | nil => exact hc (by simpa [startsBlank] using hback)
    | cons d m =>
        rw [List.append_assoc]
        exact h front (d :: m) rfl hback

/-- An `and` that stands alone does so in front of any text. -/
theorem exists_afterAnd?_append {text after : Text} (h : afterAnd? text = some after)
    (rest : Text) : ∃ after', afterAnd? (text ++ rest) = some after' := by
  obtain ⟨blanks, w, gap, rfl, hblanks, hsame, hgap, -⟩ := afterAnd?_eq_some_iff.mp h
  have hgap' : IsGap (gap ++ (after ++ rest).takeWhile isAsciiBlank) := by
    refine ⟨List.append_ne_nil_of_left_ne_nil hgap.1 _, fun c hc => ?_⟩
    rcases List.mem_append.mp hc with hc | hc
    · exact hgap.2 c hc
    · exact List.mem_takeWhile_imp hc
  refine ⟨(after ++ rest).dropWhile isAsciiBlank,
    afterAnd?_eq_some_iff.mpr ⟨blanks, w, _, ?_, hblanks, hsame, hgap', stops_dropWhile _⟩⟩
  simp only [List.append_assoc, List.takeWhile_append_dropWhile]

/-- **A clause splits into itself** if it is left of a piece in which no `and` stands alone. -/
theorem actionClauses_of_mem {piece behind clause : Text} {clauses : List Text}
    (hand : NoAnd piece behind) (h : Leaves piece clauses) (hmem : clause ∈ clauses) :
    actionClauses clause = [clause] := by
  obtain ⟨htrim, hne⟩ := h.trimmed hmem
  cases h with
  | blank => cases hmem
  | @clause before _ after _ _ _ _ =>
      obtain rfl := List.mem_singleton.mp hmem
      have hinner : NoAnd clause [] := by
        rintro front back rfl hback
        rw [Option.eq_none_iff_forall_ne_some]
        intro rest hrest
        rw [List.append_nil] at hrest
        obtain ⟨rest', hrest'⟩ := exists_afterAnd?_append hrest (after ++ behind)
        obtain ⟨b, back', rfl, hb⟩ := startsBlank_iff.mp hback
        have hnone := hand (before ++ front) (b :: back' ++ after) (by simp)
          (startsBlank_iff.mpr ⟨b, back' ++ after, rfl, hb⟩)
        rw [List.append_assoc, hrest'] at hnone
        cases hnone
      have hthrough : actionClausesFrom [] (clause ++ []) = actionClausesFrom (clause.reverse ++ []) [] :=
        actionClausesFrom_append hinner
      rw [List.append_nil, List.append_nil, actionClausesFrom, List.reverse_reverse,
        clauseOf_eq htrim hne] at hthrough
      exact hthrough

/-- **From any point on** the clauses of the actions are those of the pieces, and each of them splits
into itself, if no `and` stands alone in what was read of the current piece. -/
theorem division_actionClausesFrom (current text : Text) (hread : NoAnd current.reverse text) :
    Division TakesAction EndsActions (current.reverse ++ text) (actionClausesFrom current text) ∧
      ∀ clause ∈ actionClausesFrom current text, actionClauses clause = [clause] := by
  fun_induction actionClausesFrom current text with
  | case1 current =>
      have hleaves := leaves_clauseOf current.reverse
      rw [List.append_nil]
      exact ⟨.last hleaves hread, fun clause hmem => actionClauses_of_mem hread hleaves hmem⟩
  | case2 current c text hc after hafter ih =>
      obtain ⟨blanks, w, gap, heq, hblanks, hsame, hgap, -⟩ := afterAnd?_eq_some_iff.mp hafter
      have hne : blanks ≠ [] := by
        rintro rfl
        have hstops := stops_isAsciiBlank_keyword (by decide) hsame (gap ++ after)
        rw [List.nil_append] at heq
        rw [← heq, stops_cons, hc] at hstops
        cases hstops
      have htext : c :: text = blanks ++ w ++ gap ++ after := by
        rw [heq]
        simp only [List.append_assoc]
      have hconjunction : IsConjunction (blanks ++ w ++ gap) :=
        ⟨blanks, w, gap, rfl, ⟨hne, hblanks⟩, hsame, hgap⟩
      have hleaves := leaves_clauseOf current.reverse
      obtain ⟨hdivision, hfinal⟩ := ih (noAnd_nil after)
      refine ⟨?_, fun clause hmem => ?_⟩
      · rw [htext] at hread hafter ⊢
        rw [← List.append_assoc]
        exact .more hleaves hconjunction ⟨hread, hafter⟩ hdivision
      · rcases List.mem_append.mp hmem with hmem | hmem
        · exact actionClauses_of_mem hread hleaves hmem
        · exact hfinal clause hmem
  | case3 current c text hc hafter ih =>
      have hnext := hread.concat fun _ => hafter
      rw [← List.reverse_cons] at hnext
      have htext : (c :: current).reverse ++ text = current.reverse ++ c :: text := by simp
      rw [← htext]
      exact ih hnext
  | case4 current c text hc ih =>
      have hnext := hread.concat fun h => absurd h hc
      rw [← List.reverse_cons] at hnext
      have htext : (c :: current).reverse ++ text = current.reverse ++ c :: text := by simp
      rw [← htext]
      exact ih hnext

/-! ## Both halves -/

/-- **The clauses of the conditions** are what the text splits into. -/
theorem splitsInto_conditionClauses (text : Text) :
    SplitsInto TakesCondition EndsConditions conditionClauses text := by
  have hend : Stops (fun c => isAsciiBlank c || c.isAlpha) [] := by simp [Stops]
  obtain ⟨pieces, reader, hscans⟩ := exists_scans .start text hend
  rw [List.append_nil] at hscans
  obtain ⟨hdivision, hfinal⟩ := division_conditionClausesFrom hscans rfl (.nil _ _)
  exact ⟨fun _ => hdivision.trimmed, hdivision, hfinal⟩

/-- **The clauses of the actions** are what the text splits into. -/
theorem splitsInto_actionClauses (text : Text) :
    SplitsInto TakesAction EndsActions actionClauses text := by
  obtain ⟨hdivision, hfinal⟩ := division_actionClausesFrom [] text (noAnd_nil text)
  exact ⟨fun _ => hdivision.trimmed, hdivision, hfinal⟩

/-- **Splitting loses nothing and is final**, for the conditions and for the actions. -/
theorem splitsInto_clauses (text : Text) :
    SplitsInto TakesCondition EndsConditions conditionClauses text ∧
      SplitsInto TakesAction EndsActions actionClauses text :=
  ⟨splitsInto_conditionClauses text, splitsInto_actionClauses text⟩

end RuleTable
