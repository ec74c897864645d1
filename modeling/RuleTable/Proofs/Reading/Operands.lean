import RuleTable.Proofs.Text.Join
import RuleTable.Reading.Clause

/-!
# What an operand may be

Right of its keyword a clause has an operand, and each shape reads its own. Here each of these readers
is replaced by the form of the texts it reads: **which operand is read from a text, and from no
other**. The forms are put together from gaps, words and runs of characters.
-/

set_option autoImplicit false

namespace RuleTable

open Text

variable {text rest : Text}

/-! ## Characters of operands -/

theorem isWordChar_of_isAlpha {c : Char} (h : c.isAlpha = true) : isWordChar c = true := by
  rw [isWordChar, isAlphanumeric, isAlphabetic_of_isAlpha h, Bool.true_or, Bool.true_or]

/-- An ASCII blank is no character of a word. -/
theorem isWordChar_of_isAsciiBlank {c : Char} (h : isAsciiBlank c = true) :
    isWordChar c = false := by
  simp only [isAsciiBlank, Bool.or_eq_true, beq_iff_eq] at h
  rcases h with (((rfl | rfl) | rfl) | rfl) | rfl <;> decide

theorem isBoundChar_of_isAsciiBlank {c : Char} (h : isAsciiBlank c = true) :
    isBoundChar c = false := by
  simp only [isAsciiBlank, Bool.or_eq_true, beq_iff_eq] at h
  rcases h with (((rfl | rfl) | rfl) | rfl) | rfl <;> decide

/-- A word of letters is found up to the gap behind it. -/
theorem takeWhile_isWordChar {keyword w gap : Text} (hk : IsKeyword keyword)
    (hw : sameLetters w keyword = true) (hgap : IsGap gap) (rest : Text) :
    (w ++ (gap ++ rest)).takeWhile isWordChar = w ∧
      (w ++ (gap ++ rest)).dropWhile isWordChar = gap ++ rest := by
  have hword : ∀ c ∈ w, isWordChar c = true := fun c hc =>
    isWordChar_of_isAlpha ((hk.of_sameLetters hw).2 c hc)
  have hstops : Stops isWordChar (gap ++ rest) :=
    hgap.stops_append (fun _ => isWordChar_of_isAsciiBlank) rest
  exact ⟨takeWhile_append_of_stops hword hstops, dropWhile_append_of_stops hword hstops⟩

/-! ## Texts -/

theorem someText?_eq_some_iff {value : Text} :
    someText? text = some value ↔ value = text ∧ value ≠ [] := by
  rw [someText?, Option.ite_none_left_eq_some, List.isEmpty_iff, Option.some.injEq]
  constructor
  · rintro ⟨hne, rfl⟩
    exact ⟨rfl, hne⟩
  · rintro ⟨rfl, hne⟩
    exact ⟨hne, rfl⟩

/-! ## Ranges -/

/-- **A bound**: one or more digits and points. -/
def IsBound (text : Text) : Prop := text ≠ [] ∧ ∀ c ∈ text, isBoundChar c = true

/-- **The bounds of a range** are two bounds with the word `and` between them. -/
theorem rangeBounds?_eq_some_iff {low high : Text} :
    rangeBounds? text = some (low, high)
      ↔ ∃ gap w gap', text = low ++ (gap ++ (w ++ (gap' ++ high))) ∧ IsBound low ∧ IsGap gap ∧
        sameLetters w "and".toList = true ∧ IsGap gap' ∧ IsBound high := by
  simp only [rangeBounds?, Option.ite_none_right_eq_some, Option.some.injEq, Prod.mk.injEq,
    Bool.and_eq_true, Bool.not_eq_true', List.isEmpty_eq_false_iff, List.all_eq_true]
  constructor
  · rintro ⟨⟨⟨⟨⟨⟨hlow, hgap⟩, hword⟩, hgap'⟩, hhigh⟩, hall⟩, rfl, rfl⟩
    obtain ⟨gap, hg, hafterLow⟩ := exists_gap hgap
    obtain ⟨gap', hg', hafterWord⟩ := exists_gap hgap'
    refine ⟨gap, _, gap', ?_, ⟨hlow, fun _ => List.mem_takeWhile_imp⟩, hg, hword, hg', hhigh, hall⟩
    rw [← hafterWord, List.takeWhile_append_dropWhile, ← hafterLow,
      List.takeWhile_append_dropWhile]
  · rintro ⟨gap, w, gap', rfl, hlow, hgap, hword, hgap', hhigh⟩
    have hstops : Stops isBoundChar (gap ++ (w ++ (gap' ++ high))) :=
      hgap.stops_append (fun _ => isBoundChar_of_isAsciiBlank) _
    have hskip : skipBlanks (gap ++ (w ++ (gap' ++ high))) = w ++ (gap' ++ high) :=
      hgap.skipBlanks_append (stops_isAsciiBlank_keyword (by decide) hword _)
    have hskip' : skipBlanks (gap' ++ high) = high := by
      refine hgap'.skipBlanks_append fun c hc => ?_
      rw [← Bool.not_eq_true]
      intro hb
      have hbound := hhigh.2 c (List.mem_of_mem_head? hc)
      rw [isBoundChar_of_isAsciiBlank hb] at hbound
      cases hbound
    obtain ⟨htake, hdrop⟩ := takeWhile_isWordChar (by decide) hword hgap' high
    rw [takeWhile_append_of_stops hlow.2 hstops, dropWhile_append_of_stops hlow.2 hstops, hskip,
      htake, hdrop, hskip']
    exact ⟨⟨⟨⟨⟨⟨hlow.1, hgap.startsBlank_append _⟩, hword⟩, hgap'.startsBlank_append _⟩, hhigh.1⟩,
      hhigh.2⟩, rfl, rfl⟩

/-! ## Lists -/

/-- **The items of a list** are what stands in its parentheses. -/
theorem listItems?_eq_some_iff {items : Text} :
    listItems? text = some items ↔ text = '(' :: (items ++ [')']) ∧ items ≠ [] ∧ ')' ∉ items := by
  unfold listItems?
  split
  · next text =>
      simp only [Option.ite_none_right_eq_some, Option.some.injEq, Bool.and_eq_true,
        Bool.not_eq_true', List.isEmpty_eq_false_iff, beq_iff_eq, List.cons.injEq, true_and]
      constructor
      · rintro ⟨⟨hne, hclose⟩, rfl⟩
        refine ⟨?_, hne, fun hmem => ?_⟩
        · rw [← hclose, List.takeWhile_append_dropWhile]
        · simpa using List.mem_takeWhile_imp hmem
      · rintro ⟨rfl, hne, hclose⟩
        have hitems : ∀ c ∈ items, (c != ')') = true := by
          intro c hc
          rw [bne_iff_ne]
          rintro rfl
          exact hclose hc
        have hstops : Stops (· != ')') [')'] := stops_cons.mpr (by decide)
        rw [takeWhile_append_of_stops hitems hstops, dropWhile_append_of_stops hitems hstops]
        exact ⟨⟨hne, rfl⟩, rfl⟩
  · next hparen =>
      constructor
      · intro h
        cases h
      · rintro ⟨rfl, -⟩
        exact absurd rfl (hparen _)

/-! ## Containments -/

/-- A text says `any` before a value. -/
def SaysAny (text value : Text) : Prop :=
  ∃ w gap, text = w ++ (gap ++ value) ∧ sameLetters w "any".toList = true ∧ IsGap gap ∧
    Stops isAsciiBlank value

/-- **What a column is to contain**: a text without the word `any` it may start with. -/
def IsContained (text value : Text) : Prop :=
  SaysAny text value ∨ (∀ other, ¬ SaysAny text other) ∧ value = text

theorem saysAny_iff {value : Text} :
    SaysAny text value
      ↔ (sameLetters (text.takeWhile isWordChar) "any".toList
          && startsBlank (text.dropWhile isWordChar)) = true ∧
        value = skipBlanks (text.dropWhile isWordChar) := by
  rw [Bool.and_eq_true]
  constructor
  · rintro ⟨w, gap, rfl, hw, hgap, hvalue⟩
    obtain ⟨htake, hdrop⟩ := takeWhile_isWordChar (by decide) hw hgap value
    rw [htake, hdrop, hgap.skipBlanks_append hvalue]
    exact ⟨⟨hw, hgap.startsBlank_append value⟩, rfl⟩
  · rintro ⟨⟨hw, hblank⟩, rfl⟩
    obtain ⟨gap, hgap, hafter⟩ := exists_gap hblank
    refine ⟨_, gap, ?_, hw, hgap, stops_dropWhile _⟩
    rw [← hafter, List.takeWhile_append_dropWhile]

theorem contained?_eq_some_iff {value : Text} :
    contained? text = some value ↔ IsContained text value ∧ value ≠ [] := by
  simp only [contained?]
  split
  · next hany =>
      have hform : ∀ other, SaysAny text other ↔ other = skipBlanks (text.dropWhile isWordChar) :=
        fun other => saysAny_iff.trans (and_iff_right hany)
      rw [someText?_eq_some_iff, IsContained, hform]
      refine and_congr_left fun _ => (or_iff_left ?_).symm
      exact fun h => h.1 _ ((hform _).mpr rfl)
  · next hany =>
      have hform : ∀ other, ¬ SaysAny text other := fun other h => hany (saysAny_iff.mp h).1
      rw [someText?_eq_some_iff, IsContained]
      refine and_congr_left fun _ => ?_
      rw [or_iff_right (hform value), and_iff_right hform]

/-! ## Comparisons -/

/-- **A text starts with a comparison sign**, and with no longer one. -/
def StartsSign (text : Text) (operator : Operator) (rest : Text) : Prop :=
  (operator ≠ .contains ∧ operator ≠ .isIn) ∧ text = operator.token ++ rest ∧
    ∀ longer : Operator, longer ≠ .contains ∧ longer ≠ .isIn → longer.token <+: text →
      longer.token.length ≤ operator.token.length

theorem exists_token_eq {sign : Operator} (h : sign ≠ .contains ∧ sign ≠ .isIn) :
    ∃ c rest, sign.token = c :: rest ∧ isComparisonChar c = true := by
  cases sign with
  | equals => exact ⟨'=', [], rfl, rfl⟩
  | notEquals => exact ⟨'!', ['='], rfl, rfl⟩
  | greaterThan => exact ⟨'>', [], rfl, rfl⟩
  | lessThan => exact ⟨'<', [], rfl, rfl⟩
  | greaterOrEqual => exact ⟨'>', ['='], rfl, rfl⟩
  | lessOrEqual => exact ⟨'<', ['='], rfl, rfl⟩
  | contains => exact absurd rfl h.1
  | isIn => exact absurd rfl h.2

theorem StartsSign.stops {operator : Operator} (h : StartsSign text operator rest) :
    Stops (! isComparisonChar ·) text := by
  obtain ⟨hop, rfl, -⟩ := h
  obtain ⟨c, more, htoken, hc⟩ := exists_token_eq hop
  rw [htoken, List.cons_append, stops_cons, hc, Bool.not_true]

/-- A sign of more than one character goes on with an equality sign. -/
theorem length_token_le {sign : Operator} {c : Char} (h : sign ≠ .contains ∧ sign ≠ .isIn)
    (hstarts : sign.token <+: c :: text) (hone : c ≠ '=' → ∀ rest, text ≠ '=' :: rest) :
    sign.token.length ≤ 1 := by
  obtain ⟨rest, hrest⟩ := hstarts
  cases sign with
  | contains => exact absurd rfl h.1
  | isIn => exact absurd rfl h.2
  | equals => exact Nat.le_refl 1
  | greaterThan => exact Nat.le_refl 1
  | lessThan => exact Nat.le_refl 1
  | notEquals =>
      have hfirst : '!' = c := (List.cons.inj hrest).1
      exact absurd (List.cons.inj hrest).2.symm (hone (by rw [← hfirst]; decide) rest)
  | greaterOrEqual =>
      have hfirst : '>' = c := (List.cons.inj hrest).1
      exact absurd (List.cons.inj hrest).2.symm (hone (by rw [← hfirst]; decide) rest)
  | lessOrEqual =>
      have hfirst : '<' = c := (List.cons.inj hrest).1
      exact absurd (List.cons.inj hrest).2.symm (hone (by rw [← hfirst]; decide) rest)

/-- No sign has more than two characters. -/
theorem length_token_le_two {sign : Operator} (h : sign ≠ .contains ∧ sign ≠ .isIn) :
    sign.token.length ≤ 2 := by
  cases sign with
  | contains => exact absurd rfl h.1
  | isIn => exact absurd rfl h.2
  | _ => decide

/-- Behind a sign that is the longest stands no equality sign that would make it longer. -/
theorem StartsSign.ne_cons {operator longer : Operator} (h : StartsSign text operator rest)
    (hlonger : longer ≠ .contains ∧ longer ≠ .isIn) (htoken : longer.token = operator.token ++ ['=']) :
    ∀ after, rest ≠ '=' :: after := by
  obtain ⟨-, rfl, hlongest⟩ := h
  rintro after rfl
  have hle := hlongest longer hlonger ⟨after, by rw [htoken, List.append_assoc]; rfl⟩
  rw [htoken, List.length_append, List.length_singleton] at hle
  omega

/-- **The sign that is read** is the longest one. -/
theorem comparisonSign?_eq_some_iff {operator : Operator} :
    comparisonSign? text = some (operator, rest) ↔ StartsSign text operator rest := by
  constructor
  · intro h
    unfold comparisonSign? at h
    split at h
    · obtain ⟨rfl, rfl⟩ := Prod.mk.inj (Option.some.inj h)
      exact ⟨by decide, rfl, fun _ hsign _ => length_token_le_two hsign⟩
    · obtain ⟨rfl, rfl⟩ := Prod.mk.inj (Option.some.inj h)
      exact ⟨by decide, rfl, fun _ hsign _ => length_token_le_two hsign⟩
    · obtain ⟨rfl, rfl⟩ := Prod.mk.inj (Option.some.inj h)
      exact ⟨by decide, rfl, fun _ hsign _ => length_token_le_two hsign⟩
    · next hone =>
        obtain ⟨rfl, rfl⟩ := Prod.mk.inj (Option.some.inj h)
        exact ⟨by decide, rfl, fun _ hsign hstarts => length_token_le hsign hstarts fun _ => hone⟩
    · next hone =>
        obtain ⟨rfl, rfl⟩ := Prod.mk.inj (Option.some.inj h)
        exact ⟨by decide, rfl, fun _ hsign hstarts => length_token_le hsign hstarts fun _ => hone⟩
    · obtain ⟨rfl, rfl⟩ := Prod.mk.inj (Option.some.inj h)
      exact ⟨by decide, rfl, fun _ hsign hstarts => length_token_le hsign hstarts (absurd rfl)⟩
    · cases h
  · intro h
    cases operator with
    | contains => exact absurd rfl h.1.1
    | isIn => exact absurd rfl h.1.2
    | greaterThan =>
        have hone : ∀ after, rest ≠ '=' :: after :=
          h.ne_cons (show Operator.greaterOrEqual ≠ _ ∧ _ from by decide) rfl
        obtain ⟨-, rfl, -⟩ := h
        show comparisonSign? ('>' :: rest) = _
        unfold comparisonSign?
        split <;> simp_all
    | lessThan =>
        have hone : ∀ after, rest ≠ '=' :: after :=
          h.ne_cons (show Operator.lessOrEqual ≠ _ ∧ _ from by decide) rfl
        obtain ⟨-, rfl, -⟩ := h
        show comparisonSign? ('<' :: rest) = _
        unfold comparisonSign?
        split <;> simp_all
    | _ =>
        obtain ⟨-, rfl, -⟩ := h
        rfl

end RuleTable
