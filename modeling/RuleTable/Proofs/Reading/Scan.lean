import RuleTable.Proofs.Text.Join
import RuleTable.Proofs.Text.Runs
import RuleTable.Reading.Clauses

/-!
# Scanning the conditions

The conditions are scanned for the words `and` between them. The scan goes by what was read of the
clause so far and looks ahead, so nothing can be said of a piece of text on its own; what is said of
it is **where the scan gets through it with the rest of the text behind it**. Then the pieces of a
clause are scanned one after the other, and clauses that lead back to the top may be joined.
-/

set_option autoImplicit false

namespace RuleTable

open Text

/-! ## Keywords at the start of a text -/

/-- A letter joins on to a keyword. -/
theorem joinsKeyword_of_isAlpha {c : Char} (h : c.isAlpha = true) : joinsKeyword c = true := by
  simp [joinsKeyword, Char.isAlphanum, h]

/-- A blank joins on to no keyword. -/
theorem joinsKeyword_of_isBlank {c : Char} (h : isBlank c = true) : joinsKeyword c = false :=
  eq_false_of_isBlank (p := joinsKeyword) (by decide) h

/-- **A text ends a word** if it is empty or starts with an ASCII blank. -/
def EndsWord (rest : Text) : Prop := ∀ c ∈ rest.head?, isAsciiBlank c = true

theorem endsWord_nil : EndsWord [] := by simp [EndsWord]

theorem endsWord_cons {c : Char} (h : isAsciiBlank c = true) (rest : Text) :
    EndsWord (c :: rest) := by
  simpa [EndsWord] using h

theorem EndsWord.stops {rest : Text} (h : EndsWord rest) : Stops joinsKeyword rest :=
  fun c hc => joinsKeyword_of_isBlank (isBlank_of_isAsciiBlank (h c hc))

section Keyword

variable {before text rest : Text}

/-- Dropping a keyword does not depend on what follows the end of the word. -/
theorem dropWord?_append {word : Text} (hrest : Stops joinsKeyword rest) (hw : IsKeyword word) :
    dropWord? word (text ++ rest) = (dropWord? word text).map (· ++ rest) := by
  cases h : dropWord? word (text ++ rest) with
  | none =>
      cases ht : dropWord? word text with
      | none => rfl
      | some after =>
          obtain ⟨w, rfl, hsame⟩ := dropWord?_eq_some_iff.mp ht
          have hsome : dropWord? word (w ++ after ++ rest) = some (after ++ rest) :=
            dropWord?_eq_some_iff.mpr ⟨w, List.append_assoc w after rest, hsame⟩
          rw [h] at hsome
          cases hsome
  | some after =>
      obtain ⟨w, heq, hsame⟩ := dropWord?_eq_some_iff.mp h
      have hletters := (hw.of_sameLetters hsame).2
      obtain ⟨m, rfl, rfl⟩ :=
        exists_of_append_eq hrest (fun c hc => joinsKeyword_of_isAlpha (hletters c hc)) heq
      rw [dropWord?_eq_some_iff.mpr ⟨w, rfl, hsame⟩, Option.map_some]

/-- **Whether a range is opened** does not depend on what follows the end of the word. -/
theorem opensRange_append (hrest : Stops joinsKeyword rest) :
    opensRange before (text ++ rest) = opensRange before text := by
  rw [opensRange, opensRange, dropWord?_append hrest (by decide)]
  cases dropWord? "between".toList text with
  | none => rfl
  | some after =>
      cases after with
      | cons c after => rfl
      | nil =>
          cases rest with
          | nil => rfl
          | cons c rest =>
              have hc := hrest c rfl
              simp [hc]

/-- Whether a range is opened in a text that stands behind `before`. -/
def OpensIn (before text : Text) : Prop :=
  ∃ front back, text = front ++ back ∧ opensRange (front.reverse ++ before) back = true

/-- No range is opened at a character that is no letter. -/
theorem opensRange_of_isAlpha {c : Char} (h : c.isAlpha = false) :
    opensRange before (c :: text) = false := by
  have hdrop : dropWord? "between".toList (c :: text) = none := by
    rw [Option.eq_none_iff_forall_ne_some]
    intro after hafter
    obtain ⟨w, hw, hsame⟩ := dropWord?_eq_some_iff.mp hafter
    obtain ⟨hne, hletters⟩ := IsKeyword.of_sameLetters (by decide) hsame
    obtain ⟨d, w, rfl⟩ := List.exists_cons_of_ne_nil hne
    obtain ⟨rfl, -⟩ := List.cons.inj hw
    rw [hletters c List.mem_cons_self] at h
    cases h
  rw [opensRange, hdrop, Bool.and_false]

/-- **A range is opened in a text** if `between` occurs in it as a word. -/
theorem opensIn_nil_iff :
    OpensIn [] text ↔ Occurs (! joinsKeyword ·) "between".toList text := by
  have hside (side : Option Char) : (! side.any joinsKeyword) = true
      ↔ ∀ c ∈ side, (! joinsKeyword c) = true := by
    cases side <;> simp
  constructor
  · rintro ⟨front, back, rfl, hopens⟩
    rw [opensRange, List.append_nil, List.head?_reverse, Bool.and_eq_true] at hopens
    obtain ⟨hbefore, hword⟩ := hopens
    cases hdrop : dropWord? "between".toList back with
    | none =>
        rw [hdrop] at hword
        cases hword
    | some after =>
        rw [hdrop] at hword
        obtain ⟨w, rfl, hsame⟩ := dropWord?_eq_some_iff.mp hdrop
        exact ⟨front, w, after, by rw [List.append_assoc], hsame, (hside _).mp hbefore,
          (hside _).mp hword⟩
  · rintro ⟨front, w, after, rfl, hsame, hbefore, hafter⟩
    refine ⟨front, w ++ after, by rw [List.append_assoc], ?_⟩
    rw [opensRange, dropWord?_eq_some_iff.mpr ⟨w, rfl, hsame⟩, List.append_nil, List.head?_reverse,
      Bool.and_eq_true]
    exact ⟨(hside _).mpr hbefore, (hside _).mpr hafter⟩

/-- A conjunction is the word `and` between two ASCII blanks. -/
theorem startsConjunction_iff :
    startsConjunction text = true
      ↔ ∃ b₁ w b₂ after, text = b₁ :: w ++ b₂ :: after ∧ isAsciiBlank b₁ = true ∧
        sameLetters w "and".toList = true ∧ isAsciiBlank b₂ = true := by
  constructor
  · intro h
    unfold startsConjunction at h
    split at h
    · next b₁ a n d b₂ after =>
        simp only [Bool.and_eq_true] at h
        exact ⟨b₁, [a, n, d], b₂, after, rfl, h.1.1, h.1.2, h.2⟩
    · cases h
  · rintro ⟨b₁, w, b₂, after, rfl, hb₁, hw, hb₂⟩
    have hlength : w.length = 3 := by
      simpa using congrArg List.length (sameLetters_iff.mp hw)
    obtain ⟨a, n, d, rfl⟩ := List.length_eq_three.mp hlength
    show (isAsciiBlank b₁ && sameLetters [a, n, d] "and".toList && isAsciiBlank b₂) = true
    rw [hb₁, hw, hb₂]
    rfl

theorem not_opensIn_of_no_letters (h : ∀ c ∈ text, c.isAlpha = false) : ¬ OpensIn before text := by
  rintro ⟨front, back, rfl, hopens⟩
  cases back with
  | nil => simp [opensRange, dropWord?] at hopens
  | cons c back =>
      rw [opensRange_of_isAlpha (h c (by simp))] at hopens
      cases hopens

/-- No conjunction starts in a text that stands in front of `rest`. -/
def NoConjunction (text rest : Text) : Prop :=
  ∀ front back, text = front ++ back → back ≠ [] → startsConjunction (back ++ rest) = false

/-- **No conjunction starts in a text without the word `and`** that the end of a word follows. -/
theorem EndsWord.noConjunction (hrest : EndsWord rest)
    (hand : ¬ Occurs isAsciiBlank "and".toList text) : NoConjunction text rest := by
  rintro front back rfl hback
  rw [← Bool.not_eq_true, startsConjunction_iff]
  rintro ⟨b₁, w, b₂, after, heq, hb₁, hsame, hb₂⟩
  obtain ⟨c, back, rfl⟩ := List.exists_cons_of_ne_nil hback
  obtain ⟨rfl, htail⟩ := List.cons.inj heq
  have hletters := (IsKeyword.of_sameLetters (by decide) hsame).2
  obtain ⟨m, rfl, hm⟩ :=
    exists_of_append_eq hrest.stops (fun c hc => joinsKeyword_of_isAlpha (hletters c hc)) htail
  refine hand ⟨front ++ [c], w, m, by simp, hsame, by simpa using hb₁, fun e he => ?_⟩
  cases m with
  | nil => cases he
  | cons d m =>
      obtain rfl : d = e := by simpa using he
      rw [← (List.cons.inj hm).1]
      exact hb₂

end Keyword

/-! ## Places -/

section Scan

variable {place place' place'' : Place} {before text rest : Text} {c : Char}

/-- Inside parentheses a character that is none changes nothing. -/
theorem scan_parens {outer : Nat} (hopen : c ≠ '(') (hclose : c ≠ ')') :
    (Place.parens outer).scan before c text = .character (.parens outer) := by
  simp [Place.scan, hopen, hclose]

/-- In a range a character that starts no conjunction changes nothing. -/
theorem scan_range (hopen : c ≠ '(') (hclose : c ≠ ')') (hand : startsConjunction (c :: text) = false) :
    Place.range.scan before c text = .character .range := by
  simp [Place.scan, hopen, hclose, hand]

/-- At the top a character that starts neither a range nor a conjunction changes nothing. -/
theorem scan_top (hopen : c ≠ '(') (hclose : c ≠ ')') (hrange : opensRange before (c :: text) = false)
    (hand : startsConjunction (c :: text) = false) :
    Place.top.scan before c text = .character .top := by
  simp [Place.scan, hopen, hclose, hrange, hand]

/-- **A piece of a clause leads the scan from a place to a place**, with `before` read of the clause,
nearest character first, and `rest` behind the piece. -/
def Leads (place : Place) (before text rest : Text) (place' : Place) : Prop :=
  conditionClausesFrom place before (text ++ rest)
    = conditionClausesFrom place' (text.reverse ++ before) rest

theorem leads_nil : Leads place before [] rest place := rfl

/-- Where the next character leads, the next piece goes on. -/
theorem Leads.cons (h : place.scan before c (text ++ rest) = .character place')
    (ht : Leads place' (c :: before) text rest place'') :
    Leads place before (c :: text) rest place'' := by
  rw [Leads, List.cons_append, conditionClausesFrom]
  simp only [h]
  rw [ht, List.reverse_cons, List.append_assoc, List.singleton_append]

/-- **The scan of one piece after the other.** -/
theorem Leads.append {a b : Text} (ha : Leads place before a (b ++ rest) place')
    (hb : Leads place' (a.reverse ++ before) b rest place'') :
    Leads place before (a ++ b) rest place'' := by
  rw [Leads, List.append_assoc, ha, hb, List.reverse_append, List.append_assoc]

/-- **Where no character changes the place, a piece does not.** -/
theorem leads_of_forall (h : ∀ front c back, text = front ++ c :: back →
      place.scan (front.reverse ++ before) c (back ++ rest) = .character place) :
    Leads place before text rest place := by
  induction text generalizing before with
  | nil => exact leads_nil
  | cons c text ih =>
      refine Leads.cons (h [] c text rfl) (ih fun front d back heq => ?_)
      have hnext := h (c :: front) d back (by rw [heq, List.cons_append])
      simpa using hnext

/-- Inside parentheses a text without parentheses leads nowhere else. -/
theorem leads_parens {outer : Nat} (h : ∀ c ∈ text, c ≠ '(' ∧ c ≠ ')') :
    Leads (.parens outer) before text rest (.parens outer) := by
  refine leads_of_forall fun front c back heq => ?_
  obtain ⟨hopen, hclose⟩ := h c (by simp [heq])
  exact scan_parens hopen hclose

/-- **In a range** a text with neither parentheses nor conjunctions leads nowhere else. -/
theorem leads_range (h : ∀ c ∈ text, c ≠ '(' ∧ c ≠ ')') (hand : NoConjunction text rest) :
    Leads .range before text rest .range := by
  refine leads_of_forall fun front c back heq => ?_
  obtain ⟨hopen, hclose⟩ := h c (by simp [heq])
  exact scan_range hopen hclose (hand front (c :: back) heq (List.cons_ne_nil c back))

/-- **At the top** a text with neither parentheses nor conjunctions, in which no range is opened,
leads nowhere else. -/
theorem leads_top (h : ∀ c ∈ text, c ≠ '(' ∧ c ≠ ')') (hand : NoConjunction text rest)
    (hrange : ¬ OpensIn before text) (hrest : EndsWord rest) : Leads .top before text rest .top := by
  refine leads_of_forall fun front c back heq => ?_
  obtain ⟨hopen, hclose⟩ := h c (by simp [heq])
  have hshut : opensRange (front.reverse ++ before) (c :: back ++ rest) = false := by
    rw [opensRange_append hrest.stops, ← Bool.not_eq_true]
    exact fun hopens => hrange ⟨front, c :: back, heq, hopens⟩
  exact scan_top hopen hclose hshut (hand front (c :: back) heq (List.cons_ne_nil c back))

/-- **From the top into a range**: that is where a text with neither parentheses nor conjunctions
leads in which a range is opened. -/
theorem leads_top_range (h : ∀ c ∈ text, c ≠ '(' ∧ c ≠ ')') (hand : NoConjunction text rest)
    (hrange : OpensIn before text) (hrest : EndsWord rest) :
    Leads .top before text rest .range := by
  induction text generalizing before with
  | nil =>
      obtain ⟨front, back, hnil, hopens⟩ := hrange
      obtain ⟨rfl, rfl⟩ := List.append_eq_nil_iff.mp hnil.symm
      simp [opensRange, dropWord?] at hopens
  | cons c text ih =>
      obtain ⟨hopen, hclose⟩ := h c List.mem_cons_self
      have htail : ∀ d ∈ text, d ≠ '(' ∧ d ≠ ')' := fun d hd => h d (List.mem_cons_of_mem c hd)
      have handTail : NoConjunction text rest := fun front back heq =>
        hand (c :: front) back (by rw [heq, List.cons_append])
      by_cases hhere : opensRange before (c :: text) = true
      · refine Leads.cons ?_ (leads_range htail handTail)
        have hopens : opensRange before (c :: (text ++ rest)) = true := by
          rw [← List.cons_append, opensRange_append hrest.stops, hhere]
        simp [Place.scan, hopen, hclose, hopens]
      · rw [Bool.not_eq_true] at hhere
        -- The range is opened further on, and the scan gets there at the top.
        have hlater : OpensIn (c :: before) text := by
          obtain ⟨front, back, heq, hopens⟩ := hrange
          cases front with
          | nil =>
              rw [List.nil_append] at heq
              rw [List.reverse_nil, List.nil_append, ← heq, hhere] at hopens
              cases hopens
          | cons d front =>
              obtain ⟨rfl, rfl⟩ := List.cons.inj heq
              exact ⟨front, back, rfl, by simpa using hopens⟩
        have hshut : opensRange before (c :: (text ++ rest)) = false := by
          rw [← List.cons_append, opensRange_append hrest.stops, hhere]
        have hnone : startsConjunction (c :: (text ++ rest)) = false :=
          hand [] (c :: text) rfl (List.cons_ne_nil c text)
        exact Leads.cons (scan_top hopen hclose hshut hnone) (ih htail handTail hlater)

end Scan

/-! ## Conjunctions -/

/-- **The scan passes over a clause** if it is back at the top at the end of the clause. -/
def Passes (clause : Text) : Prop := ∀ rest, EndsWord rest → Leads .top [] clause rest .top

/-- The scan passes over a clause in which nothing changes its place. -/
theorem passes_of_forall {clause : Text} (h : ∀ c ∈ clause, c ≠ '(' ∧ c ≠ ')')
    (hand : ¬ Occurs isAsciiBlank "and".toList clause)
    (hbetween : ¬ Occurs (! joinsKeyword ·) "between".toList clause) : Passes clause :=
  fun _ hrest => leads_top h (hrest.noConjunction hand)
    (fun hopens => hbetween (opensIn_nil_iff.mp hopens)) hrest

theorem endsWord_and (rest : Text) : EndsWord (" and ".toList ++ rest) :=
  endsWord_cons (by decide) _

theorem startsConjunction_and (rest : Text) :
    startsConjunction (' ' :: ("and ".toList ++ rest)) = true := rfl

/-- At the top an `and` ends the clause. -/
theorem conditionClausesFrom_top_and (current rest : Text) :
    conditionClausesFrom .top current (" and ".toList ++ rest)
      = clauseOf current.reverse ++ conditionClausesFrom .top [] rest := by
  have hscan : Place.top.scan current ' ' ("and ".toList ++ rest) = .conjunction := by
    simp only [Place.scan]
    rw [if_neg (by decide), if_neg (by decide), if_neg (by simp [opensRange_of_isAlpha]),
      if_pos (startsConjunction_and rest)]
  show conditionClausesFrom .top current (' ' :: ("and ".toList ++ rest)) = _
  rw [conditionClausesFrom]
  simp only [hscan]
  rfl

/-- In a range an `and` is part of the clause, and closes the range if a numeral follows. -/
theorem conditionClausesFrom_range_and (current rest : Text) :
    conditionClausesFrom .range current (" and ".toList ++ rest)
      = conditionClausesFrom (if (firstToken? rest).any isNumeral then .top else .range)
          (" and ".toList.reverse ++ current) rest := by
  have hscan : Place.range.scan current ' ' ("and ".toList ++ rest)
      = .rangeAnd (if (firstToken? rest).any isNumeral then .top else .range) := by
    simp only [Place.scan]
    rw [if_neg (by decide), if_neg (by decide), if_pos (startsConjunction_and rest)]
    rfl
  show conditionClausesFrom .range current (' ' :: ("and ".toList ++ rest)) = _
  rw [conditionClausesFrom]
  simp only [hscan]
  rfl

theorem clauseOf_eq {clause : Text} (h : trim clause = clause) (hne : clause ≠ []) :
    clauseOf clause = [clause] := by
  rw [clauseOf, h, if_neg (by simpa using hne)]

theorem length_clauseOf_le (text : Text) : (clauseOf text).length ≤ 1 := by
  unfold clauseOf
  split <;> simp

/-- A text that is led through to its end, whatever the place there, is one clause. -/
theorem conditionClausesFrom_of_leads {place place' : Place} {current text : Text}
    (h : Leads place current text [] place') :
    conditionClausesFrom place current text = clauseOf (current.reverse ++ text) := by
  rw [Leads, List.append_nil] at h
  rw [h, conditionClausesFrom, List.reverse_append, List.reverse_reverse]

/-- **Clauses that are joined come apart again**, if the scan passes over all but the last. -/
theorem conditionClauses_join {clauses : List Text} {last : Text}
    (h : ∀ clause ∈ clauses, Passes clause ∧ clauseOf clause = [clause])
    (hlast : conditionClauses last = [last]) :
    conditionClauses (join " and ".toList (clauses ++ [last])) = clauses ++ [last] := by
  induction clauses with
  | nil => simpa [join] using hlast
  | cons clause clauses ih =>
      obtain ⟨hpass, hclause⟩ := h clause List.mem_cons_self
      have hrest := ih fun c hc => h c (List.mem_cons_of_mem clause hc)
      rw [List.cons_append, join_cons _ _ (List.concat_ne_nil last clauses), List.append_assoc,
        conditionClauses, hpass _ (endsWord_and _), List.append_nil, conditionClausesFrom_top_and,
        List.reverse_reverse, hclause, ← conditionClauses, hrest, List.singleton_append]

/-! ## Actions -/

/-- A clause of the actions ends at an `and` that stands alone, and goes on otherwise. -/
theorem actionClausesFrom_cons (current : Text) (c : Char) (text : Text) :
    actionClausesFrom current (c :: text)
      = match if isAsciiBlank c then afterAnd? (c :: text) else none with
        | some after => clauseOf current.reverse ++ actionClausesFrom [] after
        | none => actionClausesFrom (c :: current) text := by
  rw [actionClausesFrom]
  split
  · split
    · next after h => rw [h]
    · next h => rw [h]
  · rfl

/-- **An `and` stands alone** behind any blanks and in front of a gap. -/
theorem afterAnd?_eq_some_iff {text after : Text} :
    afterAnd? text = some after
      ↔ ∃ blanks w gap, text = blanks ++ (w ++ (gap ++ after)) ∧
        (∀ c ∈ blanks, isAsciiBlank c = true) ∧ sameLetters w "and".toList = true ∧ IsGap gap ∧
        Stops isAsciiBlank after := by
  rw [afterAnd?]
  constructor
  · intro h
    cases hdrop : dropWord? "and".toList (skipBlanks text) with
    | none =>
        rw [hdrop] at h
        cases h
    | some rest =>
        simp only [hdrop, Option.ite_none_right_eq_some, Option.some.injEq] at h
        obtain ⟨hblank, rfl⟩ := h
        obtain ⟨w, hw, hsame⟩ := dropWord?_eq_some_iff.mp hdrop
        obtain ⟨gap, hgap, hrest⟩ := exists_gap hblank
        refine ⟨text.takeWhile isAsciiBlank, w, gap, ?_, fun _ => List.mem_takeWhile_imp, hsame,
          hgap, stops_dropWhile _⟩
        rw [← hrest, ← hw, skipBlanks, List.takeWhile_append_dropWhile]
  · rintro ⟨blanks, w, gap, rfl, hblanks, hsame, hgap, hafter⟩
    have hskip : skipBlanks (blanks ++ (w ++ (gap ++ after))) = w ++ (gap ++ after) :=
      dropWhile_append_of_stops hblanks (stops_isAsciiBlank_keyword (by decide) hsame _)
    rw [hskip, dropWord?_eq_some_iff.mpr ⟨w, rfl, hsame⟩]
    simp only [if_pos (hgap.startsBlank_append after), hgap.skipBlanks_append hafter]

/-- No `and` stands alone behind a blank of a text that stands in front of `rest`. -/
def NoAnd (text rest : Text) : Prop :=
  ∀ front back, text = front ++ back → startsBlank back = true → afterAnd? (back ++ rest) = none

/-- **No `and` stands alone in an action without the word**: behind blanks of the action more of it
follows, and that does not start with the word. -/
theorem EndsWord.noAnd {text rest : Text} (hrest : EndsWord rest)
    (hand : ¬ Occurs isAsciiBlank "and".toList text) (hend : EndsInk text) : NoAnd text rest := by
  rintro front back rfl hback
  have hmore : ¬ (back.dropWhile isAsciiBlank).isEmpty = true := by
    intro hempty
    have hall := List.dropWhile_eq_nil_iff.mp (List.isEmpty_iff.mp hempty)
    obtain ⟨b, after, hb, -⟩ := startsBlank_iff.mp hback
    obtain ⟨most, c, hc, hink⟩ :=
      hend.of_suffix (List.suffix_append front back) (by rw [hb]; exact List.cons_ne_nil b after)
    have hblank := hall c (by simp [hc])
    rw [isAsciiBlank_of_isBlank hink] at hblank
    cases hblank
  have hskip : skipBlanks (back ++ rest) = skipBlanks back ++ rest := by
    rw [skipBlanks, List.dropWhile_append, if_neg hmore, skipBlanks]
  rw [afterAnd?, hskip, dropWord?_append hrest.stops (by decide)]
  cases hdrop : dropWord? "and".toList (skipBlanks back) with
  | none => rfl
  | some m =>
      -- Otherwise the word would occur in the action.
      obtain ⟨w, hw, hsame⟩ := dropWord?_eq_some_iff.mp hdrop
      refine if_neg fun hafter => hand
        ⟨front ++ back.takeWhile isAsciiBlank, w, m, ?_, hsame, fun c hc => ?_, fun c hc => ?_⟩
      · rw [List.append_assoc, List.append_assoc, ← hw, skipBlanks,
          List.takeWhile_append_dropWhile]
      · obtain ⟨b, after, rfl, hb⟩ := startsBlank_iff.mp hback
        have hne : (b :: after).takeWhile isAsciiBlank ≠ [] := by
          rw [List.takeWhile_cons_of_pos hb]
          exact List.cons_ne_nil b _
        rw [List.getLast?_append_of_ne_nil _ hne] at hc
        exact List.mem_takeWhile_imp (List.mem_of_getLast? hc)
      · obtain ⟨b, after, hb, hblank⟩ := startsBlank_iff.mp hafter
        cases m with
        | nil => cases hc
        | cons d m =>
            obtain rfl : d = c := Option.some.inj hc
            obtain ⟨rfl, -⟩ := List.cons.inj hb
            exact hblank

/-- **The scan passes over an action** in which no `and` stands alone. -/
theorem actionClausesFrom_append {current text rest : Text} (h : NoAnd text rest) :
    actionClausesFrom current (text ++ rest) = actionClausesFrom (text.reverse ++ current) rest := by
  induction text generalizing current with
  | nil => rfl
  | cons c text ih =>
      have hnone : (if isAsciiBlank c then afterAnd? (c :: (text ++ rest)) else none) = none := by
        by_cases hc : isAsciiBlank c = true
        · rw [if_pos hc]
          exact h [] (c :: text) rfl (by simpa [startsBlank] using hc)
        · rw [if_neg hc]
      have htail : NoAnd text rest := fun front back heq =>
        h (c :: front) back (by rw [heq, List.cons_append])
      rw [List.cons_append, actionClausesFrom_cons]
      simp only [hnone]
      rw [ih htail, List.reverse_cons, List.append_assoc, List.singleton_append]

/-- An `and` ends an action. -/
theorem actionClausesFrom_and {rest : Text} (current : Text) (h : StartsInk rest) :
    actionClausesFrom current (" and ".toList ++ rest)
      = clauseOf current.reverse ++ actionClausesFrom [] rest := by
  have hskip : skipBlanks (' ' :: rest) = rest :=
    (rfl : skipBlanks (' ' :: rest) = skipBlanks rest).trans (skipBlanks_eq_self h)
  have hafter : afterAnd? (' ' :: ("and ".toList ++ rest)) = some rest := by
    show (if startsBlank (' ' :: rest) then some (skipBlanks (' ' :: rest)) else none) = some rest
    rw [hskip]
    rfl
  show actionClausesFrom current (' ' :: ("and ".toList ++ rest)) = _
  rw [actionClausesFrom_cons, if_pos (by decide), hafter]

/-- **Actions that are joined come apart again.** -/
theorem actionClauses_join {clauses : List Text} (hne : clauses ≠ [])
    (h : ∀ clause ∈ clauses, StartsInk clause ∧ EndsInk clause ∧
      ¬ Occurs isAsciiBlank "and".toList clause) :
    actionClauses (join " and ".toList clauses) = clauses := by
  induction clauses with
  | nil => exact absurd rfl hne
  | cons clause clauses ih =>
      obtain ⟨hstart, hend, hand⟩ := h clause List.mem_cons_self
      have hclause : clauseOf clause = [clause] :=
        clauseOf_eq (trim_eq_self hstart hend) hstart.ne_nil
      have hthrough {rest : Text} (hrest : EndsWord rest) :
          actionClausesFrom [] (clause ++ rest) = actionClausesFrom (clause.reverse ++ []) rest :=
        actionClausesFrom_append (hrest.noAnd hand hend)
      by_cases hnil : clauses = []
      · have hlast := hthrough endsWord_nil
        rw [List.append_nil] at hlast
        rw [hnil, join_singleton, actionClauses, hlast, actionClausesFrom, List.append_nil,
          List.reverse_reverse, hclause]
      · have hrest : ∀ c ∈ clauses, StartsInk c ∧ EndsInk c ∧
            ¬ Occurs isAsciiBlank "and".toList c := fun c hc => h c (List.mem_cons_of_mem clause hc)
        have hnext : StartsInk (join " and ".toList clauses) :=
          startsInk_join hnil fun c hc => (hrest c hc).1
        rw [join_cons _ _ hnil, List.append_assoc, actionClauses, hthrough (endsWord_and _),
          List.append_nil, actionClausesFrom_and _ hnext, List.reverse_reverse, hclause,
          ← actionClauses, ih hnil hrest, List.singleton_append]

end RuleTable
