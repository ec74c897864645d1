import Mathlib.Data.List.Basic
import RuleTable.Proofs.Text.Trim
import RuleTable.Proofs.Text.Words
import RuleTable.Reading.Clause

/-!
# The cuts of a clause

What the readers of the shapes have in common: they look for a keyword between blanks, from the
right, until the text left of it is a variable and the text right of it is read. Here the search is
replaced by what it finds. **The cuts are all the places where the keyword stands**, in their
order, and the one that counts is the longest one with a variable and an operand.
-/

set_option autoImplicit false

namespace RuleTable

open Text

/-! ## All cuts -/

/-- **The keyword stands between the two sides of a cut**, with a blank next to it on each. -/
def IsCut (keyword clause : Text) (cut : Cut) : Prop :=
  ∃ w, clause = cut.before.reverse ++ w ++ cut.after ∧ sameLetters w keyword = true ∧
    startsBlank cut.before = true ∧ startsBlank cut.after = true

theorem here?_eq_some_iff {keyword before text : Text} {cut : Cut} :
    Cut.here? keyword before text = some cut
      ↔ cut.before = before ∧ ∃ w, text = w ++ cut.after ∧ sameLetters w keyword = true ∧
        startsBlank cut.before = true ∧ startsBlank cut.after = true := by
  unfold Cut.here?
  constructor
  · intro h
    split at h
    · next hbefore =>
        split at h
        · next after hdrop =>
            split at h
            · next hafter =>
                obtain rfl := Option.some.inj h
                obtain ⟨w, hw, hsame⟩ := dropWord?_eq_some_iff.mp hdrop
                exact ⟨rfl, w, hw, hsame, hbefore, hafter⟩
            · cases h
        · cases h
    · cases h
  · rintro ⟨rfl, w, hw, hsame, hbefore, hafter⟩
    rw [if_pos hbefore, dropWord?_eq_some_iff.mpr ⟨w, hw, hsame⟩]
    simp [hafter]

theorem mem_allFrom_iff {keyword before text : Text} {cut : Cut} :
    cut ∈ Cut.allFrom keyword before text
      ↔ ∃ front w, text = front ++ w ++ cut.after ∧ cut.before = front.reverse ++ before ∧
        sameLetters w keyword = true ∧ startsBlank cut.before = true ∧
        startsBlank cut.after = true := by
  induction text generalizing before with
  | nil =>
      refine ⟨fun h => absurd h List.not_mem_nil, ?_⟩
      rintro ⟨front, w, hnil, -, -, -, hafter⟩
      obtain ⟨c, rest, hc, -⟩ := startsBlank_iff.mp hafter
      simp [hc] at hnil
  | cons c text ih =>
      rw [Cut.allFrom, List.mem_append, Option.mem_toList, ih, here?_eq_some_iff]
      constructor
      · rintro (⟨hbefore, w, hw, h⟩ | ⟨front, w, rfl, hbefore, h⟩)
        · exact ⟨[], w, hw, hbefore, h⟩
        · exact ⟨c :: front, w, rfl, by simpa using hbefore, h⟩
      · rintro ⟨front, w, heq, hbefore, h⟩
        cases front with
        | nil => exact Or.inl ⟨hbefore, w, heq, h⟩
        | cons d front =>
            obtain ⟨rfl, rfl⟩ := List.cons.inj heq
            exact Or.inr ⟨front, w, rfl, by simpa using hbefore, h⟩

/-- **The cuts of a clause** are the places where the keyword stands between blanks. -/
theorem Cut.mem_all_iff {keyword clause : Text} {cut : Cut} :
    cut ∈ Cut.all keyword clause ↔ IsCut keyword clause cut := by
  rw [Cut.all, List.mem_reverse, mem_allFrom_iff]
  constructor
  · rintro ⟨front, w, heq, hbefore, h⟩
    rw [List.append_nil] at hbefore
    exact ⟨w, by rw [heq, hbefore, List.reverse_reverse], h⟩
  · rintro ⟨w, heq, h⟩
    exact ⟨cut.before.reverse, w, heq, by simp, h⟩

/-- The search goes from the longest left side to the shortest. -/
theorem pairwise_all (keyword clause : Text) :
    (Cut.all keyword clause).Pairwise fun a b => b.before.length < a.before.length := by
  rw [Cut.all, List.pairwise_reverse]
  -- The cuts from a place on have what was read before it on their left.
  generalize ([] : Text) = before
  induction clause generalizing before with
  | nil => exact List.Pairwise.nil
  | cons c text ih =>
      rw [Cut.allFrom, List.pairwise_append]
      refine ⟨?_, ih (c :: before), fun a ha b hb => ?_⟩
      · cases Cut.here? keyword before (c :: text) <;> simp
      · obtain ⟨rfl, -⟩ := here?_eq_some_iff.mp (Option.mem_toList.mp ha)
        obtain ⟨front, w, -, hbefore, -⟩ := mem_allFrom_iff.mp hb
        rw [hbefore, List.length_append, List.length_cons]
        omega

/-- Two cuts behind as many characters have the same left side. -/
theorem IsCut.left_congr {keyword clause : Text} {cut other : Cut} (h : IsCut keyword clause cut)
    (ho : IsCut keyword clause other) (hlength : cut.before.length = other.before.length) :
    cut.left = other.left := by
  obtain ⟨w, heq, -⟩ := h
  obtain ⟨w', heq', -⟩ := ho
  rw [heq, List.append_assoc, List.append_assoc] at heq'
  rw [Cut.left, Cut.left, List.append_inj_left heq' (by simpa using hlength)]

/-- **A later cut has a longer left side**, also without the blanks it ends with: the keyword of the
former stands in it. -/
theorem length_left_lt {keyword clause : Text} (hk : IsKeyword keyword) {cut later : Cut}
    (hcut : IsCut keyword clause cut) (hlater : IsCut keyword clause later)
    (hlt : cut.before.length < later.before.length) : cut.left.length < later.left.length := by
  obtain ⟨w, heq, hsame, -, -⟩ := hcut
  obtain ⟨w', heq', -, hblank, -⟩ := hlater
  obtain ⟨hne, hletters⟩ := hk.of_sameLetters hsame
  obtain ⟨b, most, hbefore, hb⟩ := startsBlank_iff.mp hblank
  have hinside : cut.before.reverse ++ w <+: later.before.reverse := by
    rw [heq, List.append_assoc, List.append_assoc] at heq'
    rcases List.append_eq_append_iff.mp heq' with ⟨m, hm, hw⟩ | ⟨m, hm, -⟩
    · rcases List.append_eq_append_iff.mp hw with ⟨k, rfl, -⟩ | ⟨k, rfl, -⟩
      · exact ⟨k, by rw [hm, List.append_assoc]⟩
      · -- The blank in front of the later keyword would be a letter of the former.
        have hmem : b ∈ m := by
          have hlast : b ∈ (m.reverse ++ cut.before).head? := by
            rw [← List.reverse_reverse cut.before, ← List.reverse_append, ← hm,
              List.reverse_reverse, hbefore]
            rfl
          rcases List.eq_nil_or_concat' m with rfl | ⟨m, d, rfl⟩
          · have hlengths := congrArg List.length hm
            simp only [List.length_append, List.length_reverse, List.length_nil] at hlengths
            omega
          · rw [List.reverse_append] at hlast
            obtain rfl : d = b := by simpa using hlast
            simp
        have hletter := hletters b (List.mem_append_left k hmem)
        rw [isAlpha_of_isBlank (isBlank_of_isAsciiBlank hb)] at hletter
        cases hletter
    · have hlengths := congrArg List.length hm
      simp only [List.length_append, List.length_reverse] at hlengths
      omega
  have hink : EndsInk (cut.before.reverse ++ w) :=
    (endsInk_of_forall hne fun c hc => isBlank_of_isAlpha (hletters c hc)).append _
  have hlong := (hink.startsText_trimEnd hinside).length_le
  have hshort := (trimEnd_startsText cut.before.reverse).length_le
  have hword := List.length_pos_of_ne_nil hne
  rw [List.length_append] at hlong
  exact Nat.lt_of_le_of_lt hshort (Nat.lt_of_lt_of_le (by omega) hlong)

/-! ## The cut that counts -/

section ReadCut

variable {α : Type} {keyword clause : Text} {operand? : Text → Option α}

/-- **What is read at a keyword**: the cut with a variable and an operand behind which no other cut
has both. -/
theorem readCut?_eq_some_iff {left : Text} {operand : α} :
    readCut? keyword operand? clause = some (left, operand)
      ↔ ∃ cut, IsCut keyword clause cut ∧ cut.left = left ∧ isVariable left = true ∧
        operand? cut.right = some operand ∧
        ∀ later, IsCut keyword clause later → cut.before.length < later.before.length →
          isVariable later.left = true → operand? later.right = none := by
  constructor
  · intro h
    obtain ⟨longer, cut, shorter, hall, hread, hnone⟩ := List.findSome?_eq_some_iff.mp h
    have hsorted := pairwise_all keyword clause
    rw [hall, List.pairwise_append, List.pairwise_cons] at hsorted
    have hcut : IsCut keyword clause cut := Cut.mem_all_iff.mp (by simp [hall])
    split at hread
    · next hvariable =>
        obtain ⟨operand', ho, heq⟩ := Option.map_eq_some_iff.mp hread
        obtain ⟨rfl, rfl⟩ := Prod.mk.inj heq
        refine ⟨cut, hcut, rfl, hvariable, ho, fun later hlater hlt hv => ?_⟩
        have hmem := Cut.mem_all_iff.mpr hlater
        rw [hall, List.mem_append, List.mem_cons] at hmem
        rcases hmem with hmem | rfl | hmem
        · have hlaterNone := hnone later hmem
          rwa [if_pos hv, Option.map_eq_none_iff] at hlaterNone
        · exact absurd hlt (Nat.lt_irrefl _)
        · exact absurd hlt (Nat.lt_asymm (hsorted.2.1.1 later hmem))
    · cases hread
  · rintro ⟨cut, hcut, rfl, hvariable, ho, hlater⟩
    obtain ⟨longer, shorter, hall⟩ := List.append_of_mem (Cut.mem_all_iff.mpr hcut)
    have hsorted := pairwise_all keyword clause
    rw [hall, List.pairwise_append] at hsorted
    rw [readCut?, hall, List.findSome?_append, Option.or_eq_some_iff]
    refine Or.inr ⟨List.findSome?_eq_none_iff.mpr fun later hmem => ?_, ?_⟩
    · have hlength := hsorted.2.2 later hmem cut List.mem_cons_self
      have hlaterCut : IsCut keyword clause later := Cut.mem_all_iff.mp (by simp [hall, hmem])
      by_cases hv : isVariable later.left = true
      · rw [if_pos hv, hlater later hlaterCut hlength hv, Option.map_none]
      · rw [if_neg hv]
    · rw [List.findSome?_cons, if_pos hvariable, ho, Option.map_some]

/-- What is read at a keyword is read at one of its cuts. -/
theorem exists_cut_of_readCut? {read : Text × α} (h : readCut? keyword operand? clause = some read) :
    ∃ cut, IsCut keyword clause cut ∧ isVariable cut.left = true ∧ read.1 = cut.left ∧
      operand? cut.right = some read.2 := by
  obtain ⟨cut, hcut, hleft, hvariable, ho, -⟩ := readCut?_eq_some_iff.mp h
  rw [← hleft] at hvariable
  exact ⟨cut, hcut, hvariable, hleft.symm, ho⟩

/-- Nothing is read at a keyword if no cut has both a variable and an operand. -/
theorem readCut?_eq_none (h : ∀ cut, IsCut keyword clause cut → isVariable cut.left = true →
      operand? cut.right = none) : readCut? keyword operand? clause = none := by
  rw [Option.eq_none_iff_forall_ne_some]
  intro read hread
  obtain ⟨cut, hcut, hvariable, -, ho⟩ := exists_cut_of_readCut? hread
  rw [h cut hcut hvariable] at ho
  cases ho

/-- **The cut that counts has the longest left side** of those with a variable and an operand, if the
keyword is a word. -/
theorem readCut?_eq_some_iff_of_isKeyword (hk : IsKeyword keyword) {left : Text} {operand : α} :
    readCut? keyword operand? clause = some (left, operand)
      ↔ ∃ cut, IsCut keyword clause cut ∧ cut.left = left ∧ isVariable left = true ∧
        operand? cut.right = some operand ∧
        ∀ other, IsCut keyword clause other → isVariable other.left = true →
          (operand? other.right).isSome = true → other.left.length ≤ left.length := by
  rw [readCut?_eq_some_iff]
  constructor
  · rintro ⟨cut, hcut, rfl, hvariable, ho, hlater⟩
    refine ⟨cut, hcut, rfl, hvariable, ho, fun other hother hv hsome => ?_⟩
    rcases Nat.lt_trichotomy other.before.length cut.before.length with hlt | heq | hlt
    · exact Nat.le_of_lt (length_left_lt hk hother hcut hlt)
    · rw [hother.left_congr hcut heq]
    · rw [hlater other hother hlt hv] at hsome
      cases hsome
  · rintro ⟨cut, hcut, rfl, hvariable, ho, hlongest⟩
    refine ⟨cut, hcut, rfl, hvariable, ho, fun later hlater hlt hv => ?_⟩
    rw [Option.eq_none_iff_forall_ne_some]
    intro operand' ho'
    have hle := hlongest later hlater hv (by rw [ho']; rfl)
    exact absurd (length_left_lt hk hcut hlater hlt) (Nat.not_lt.mpr hle)

end ReadCut

/-! ## Where cuts are -/

theorem of_isVariable {text : Text} (h : isVariable text = true) :
    ∀ c ∈ text, c.isAlphanum = true ∨ c = '_' ∨ isAsciiBlank c = true := by
  cases text with
  | nil => cases h
  | cons d text =>
      rw [isVariable, Bool.and_eq_true, Bool.or_eq_true, beq_iff_eq, List.all_eq_true] at h
      obtain ⟨hfirst, hrest⟩ := h
      intro c hc
      rcases List.mem_cons.mp hc with rfl | hc
      · rcases hfirst with halpha | hline
        · exact Or.inl (by rw [Char.isAlphanum, halpha, Bool.true_or])
        · exact Or.inr (Or.inl hline)
      · simpa [or_assoc] using hrest c hc

/-- **Behind a parenthesis no cut has a variable on its left.** -/
theorem paren_not_mem_before {cut : Cut} (h : isVariable cut.left = true) : '(' ∉ cut.before := by
  intro hmem
  have hleft : '(' ∈ cut.left := mem_trimEnd (List.mem_reverse.mpr hmem) (by decide)
  rcases of_isVariable h _ hleft with h | h | h
  · exact absurd h (by decide)
  · exact absurd h (by decide)
  · exact absurd h (by decide)

section IsCut

variable {keyword clause : Text} {cut : Cut}

/-- A keyword with a blank on each side occurs between blanks. -/
theorem IsCut.occurs (h : IsCut keyword clause cut) : Occurs isAsciiBlank keyword clause := by
  obtain ⟨w, heq, hsame, hbefore, hafter⟩ := h
  obtain ⟨b, before, hb, hblank⟩ := startsBlank_iff.mp hbefore
  obtain ⟨a, after, ha, hblank'⟩ := startsBlank_iff.mp hafter
  refine ⟨cut.before.reverse, w, cut.after, heq, hsame, fun c hc => ?_, fun c hc => ?_⟩
  · rw [hb, List.getLast?_reverse, List.head?_cons, Option.mem_some_iff] at hc
    rwa [← hc]
  · rw [ha, List.head?_cons, Option.mem_some_iff] at hc
    rwa [← hc]

/-- A clause without a keyword is not read at it. -/
theorem readCut?_eq_none_of_not_occurs {α : Type} {operand? : Text → Option α}
    (h : ¬ Occurs isAsciiBlank keyword clause) : readCut? keyword operand? clause = none :=
  readCut?_eq_none fun _ hcut => absurd hcut.occurs h

end IsCut

end RuleTable
