import Mathlib.Data.List.Basic
import Mathlib.Tactic.ByContra
import RuleTable.Proofs.Text.Runs
import RuleTable.Proofs.Text.Trim

/-!
# Words in a text

A **keyword** is a word of letters, found in a text in any case. What counts as an occurrence
depends on the characters next to it, and the readers of rule text do not all ask for the same:
some want blanks around a keyword, others are content if no letter, digit or `_` touches it.
**`Occurs`** leaves the choice open. All facts about it follow from one: at a space a text falls
into two, and a keyword occurs in the whole exactly if it occurs in one of them.
-/

set_option autoImplicit false

namespace RuleTable.Text

/-! ## Deciding about characters

What is said of the characters of a text is decided by going through the text. There are only
finitely many characters, so Lean could also go through all of them. -/

section Decide

variable {p : Char → Prop} [DecidablePred p]

instance (priority := 2000) decidableForallMem (text : Text) : Decidable (∀ c ∈ text, p c) :=
  List.decidableBAll p text

instance (priority := 2000) decidableForallMemOption (c? : Option Char) :
    Decidable (∀ c ∈ c?, p c) :=
  Option.decidableForallMem c?

instance (priority := 2000) decidableExistsMemOption (c? : Option Char) :
    Decidable (∃ c ∈ c?, p c) :=
  Option.decidableExistsMem c?

end Decide

/-! ## Letter case -/

/-- Texts are the same up to case if they are equal in lower case. -/
theorem sameLetters_iff {a b : Text} :
    sameLetters a b = true ↔ a.map Char.toLower = b.map Char.toLower := beq_iff_eq

/-- The letters of ASCII by their code points. -/
theorem isAlpha_iff {c : Char} : c.isAlpha = true ↔
    (65 ≤ c.toNat ∧ c.toNat ≤ 90) ∨ (97 ≤ c.toNat ∧ c.toNat ≤ 122) := by
  show (decide ('A'.val ≤ c.val ∧ c.val ≤ 'Z'.val) ||
    (decide ('a'.val ≤ c.val) && decide (c.val ≤ 'z'.val))) = true ↔ _
  simp only [Bool.or_eq_true, Bool.and_eq_true, decide_eq_true_eq, UInt32.le_iff_toNat_le]
  exact Iff.rfl

theorem toNat_toLower (c : Char) :
    c.toLower.toNat = if 65 ≤ c.toNat ∧ c.toNat ≤ 90 then c.toNat + 32 else c.toNat := by
  by_cases h : 'A'.val ≤ c.val ∧ c.val ≤ 'Z'.val
  · have hnat : 65 ≤ c.toNat ∧ c.toNat ≤ 90 := h
    have hlower : c.toLower.val = c.val + 32 := congrArg Char.val (dif_pos h)
    have hsum : c.toNat + 32 < 2 ^ 32 := by omega
    rw [if_pos hnat, ← Char.toNat_val, hlower, UInt32.toNat_add, Char.toNat_val]
    exact Nat.mod_eq_of_lt hsum
  · have hnat : ¬ (65 ≤ c.toNat ∧ c.toNat ≤ 90) := h
    have hlower : c.toLower = c := dif_neg h
    rw [if_neg hnat, hlower]

/-- A letter stays one in lower case, and nothing else becomes one. -/
theorem isAlpha_toLower (c : Char) : c.toLower.isAlpha = c.isAlpha := by
  rw [Bool.eq_iff_iff, isAlpha_iff, isAlpha_iff, toNat_toLower]
  split <;> omega

/-- No digit is a letter. -/
theorem isAlpha_of_isDigit {c : Char} (h : c.isDigit = true) : c.isAlpha = false := by
  have hdigit : 48 ≤ c.toNat ∧ c.toNat ≤ 57 := by
    rw [Char.isDigit, Bool.and_eq_true, decide_eq_true_eq, decide_eq_true_eq] at h
    exact h
  rw [← Bool.not_eq_true, isAlpha_iff]
  omega

/-- **A keyword**: one or more letters. -/
def IsKeyword (word : Text) : Prop := word ≠ [] ∧ ∀ c ∈ word, c.isAlpha = true

instance (word : Text) : Decidable (IsKeyword word) :=
  inferInstanceAs (Decidable (word ≠ [] ∧ ∀ c ∈ word, c.isAlpha = true))

/-- A keyword in another case is one, too. -/
theorem IsKeyword.of_sameLetters {word w : Text} (h : IsKeyword word)
    (hw : sameLetters w word = true) : IsKeyword w := by
  have hmap := sameLetters_iff.mp hw
  constructor
  · rintro rfl
    exact h.1 (List.map_eq_nil_iff.mp hmap.symm)
  · intro c hc
    have hmem : c.toLower ∈ word.map Char.toLower := hmap ▸ List.mem_map_of_mem hc
    obtain ⟨d, hd, hdc⟩ := List.mem_map.mp hmem
    rw [← isAlpha_toLower, ← hdc, isAlpha_toLower]
    exact h.2 d hd

/-- **A word is dropped from the start of a text** in any case. -/
theorem dropWord?_eq_some_iff {word text after : Text} :
    dropWord? word text = some after ↔ ∃ w, text = w ++ after ∧ sameLetters w word = true := by
  induction word generalizing text with
  | nil =>
      constructor
      · intro h
        obtain rfl : text = after := by simpa [dropWord?] using h
        exact ⟨[], rfl, rfl⟩
      · rintro ⟨w, rfl, hw⟩
        obtain rfl : w = [] := List.map_eq_nil_iff.mp (sameLetters_iff.mp hw)
        rfl
  | cons d word ih =>
      cases text with
      | nil =>
          constructor
          · intro h
            simp [dropWord?] at h
          · rintro ⟨w, hnil, hw⟩
            obtain ⟨rfl, -⟩ := List.append_eq_nil_iff.mp hnil.symm
            simp [sameLetters] at hw
      | cons c text =>
          rw [dropWord?]
          by_cases hdc : d.toLower = c.toLower
          · rw [if_pos (beq_iff_eq.mpr hdc), ih]
            constructor
            · rintro ⟨w, rfl, hw⟩
              refine ⟨c :: w, rfl, sameLetters_iff.mpr ?_⟩
              rw [List.map_cons, List.map_cons, sameLetters_iff.mp hw, hdc]
            · rintro ⟨w, heq, hw⟩
              cases w with
              | nil => simp [sameLetters] at hw
              | cons e w =>
                  obtain ⟨rfl, rfl⟩ := List.cons.inj heq
                  exact ⟨w, rfl, sameLetters_iff.mpr (List.cons.inj (sameLetters_iff.mp hw)).2⟩
          · rw [if_neg (by simpa using hdc)]
            constructor
            · intro h
              cases h
            · rintro ⟨w, heq, hw⟩
              cases w with
              | nil => simp [sameLetters] at hw
              | cons e w =>
                  obtain ⟨rfl, -⟩ := List.cons.inj heq
                  exact absurd (List.cons.inj (sameLetters_iff.mp hw)).1.symm hdc

/-- A keyword stops the blanks before it. -/
theorem stops_isAsciiBlank_keyword {word w : Text} (h : IsKeyword word)
    (hw : sameLetters w word = true) (rest : Text) : Stops isAsciiBlank (w ++ rest) := by
  obtain ⟨hne, hletters⟩ := h.of_sameLetters hw
  refine stops_append_of_forall hne (fun c hc => ?_) rest
  rw [← Bool.not_eq_true]
  intro hb
  have hletter := hletters c hc
  rw [isAlpha_of_isBlank (isBlank_of_isAsciiBlank hb)] at hletter
  cases hletter

/-! ## Gaps -/

/-- Ink is no blank. -/
theorem StartsInk.stops_isAsciiBlank {text : Text} (h : StartsInk text) :
    Stops isAsciiBlank text := by
  obtain ⟨c, rest, rfl, hc⟩ := h
  exact stops_cons.mpr (isAsciiBlank_of_isBlank hc)

/-- **A gap**: one or more ASCII blanks. -/
def IsGap (text : Text) : Prop := text ≠ [] ∧ ∀ c ∈ text, isAsciiBlank c = true

theorem isGap_space : IsGap [' '] := ⟨List.cons_ne_nil ' ' [], List.forall_mem_singleton.mpr rfl⟩

/-- A text that starts with a blank starts with a gap. -/
theorem exists_gap {text : Text} (h : startsBlank text = true) :
    ∃ gap, IsGap gap ∧ text = gap ++ skipBlanks text := by
  obtain ⟨b, rest, rfl, hb⟩ := startsBlank_iff.mp h
  refine ⟨(b :: rest).takeWhile isAsciiBlank, ⟨?_, fun c hc => List.mem_takeWhile_imp hc⟩, ?_⟩
  · rw [List.takeWhile_cons_of_pos hb]
    exact List.cons_ne_nil b _
  · rw [skipBlanks, List.takeWhile_append_dropWhile]

namespace IsGap

variable {gap rest : Text}

theorem startsBlank_append (h : IsGap gap) (rest : Text) : startsBlank (gap ++ rest) = true := by
  obtain ⟨b, gap, rfl⟩ := List.exists_cons_of_ne_nil h.1
  exact startsBlank_iff.mpr ⟨b, gap ++ rest, rfl, h.2 b List.mem_cons_self⟩

theorem skipBlanks_append (h : IsGap gap) (hrest : Stops isAsciiBlank rest) :
    skipBlanks (gap ++ rest) = rest := dropWhile_append_of_stops h.2 hrest

/-- A gap stops every class that has no blanks. -/
theorem stops_append {p : Char → Bool} (h : IsGap gap)
    (hp : ∀ c, isAsciiBlank c = true → p c = false) (rest : Text) : Stops p (gap ++ rest) :=
  stops_append_of_forall h.1 (fun c hc => hp c (h.2 c hc)) rest

end IsGap

/-! ## Occurrences -/

/-- A word without the character `s` stands behind an `s` of the text or in front of it. -/
theorem append_cons_eq_append {s : Char} {a b before w after : Text} (hne : w ≠ []) (hs : s ∉ w)
    (h : a ++ s :: b = before ++ w ++ after) :
    (∃ m, before = a ++ s :: m ∧ b = m ++ w ++ after) ∨
      ∃ m, after = m ++ s :: b ∧ a = before ++ w ++ m := by
  obtain ⟨c, w', rfl⟩ := List.exists_cons_of_ne_nil hne
  rw [List.append_assoc] at h
  rcases List.append_eq_append_iff.mp h with ⟨m, rfl, hm⟩ | ⟨m, rfl, hm⟩
  · cases m with
    | nil =>
        obtain ⟨rfl, -⟩ := List.cons.inj hm
        exact absurd List.mem_cons_self hs
    | cons d m =>
        obtain ⟨rfl, rfl⟩ := List.cons.inj hm
        exact Or.inl ⟨m, rfl, (List.append_assoc m _ _).symm⟩
  · rcases List.append_eq_append_iff.mp hm with ⟨k, rfl, hk⟩ | ⟨k, hwk, hk⟩
    · exact Or.inr ⟨k, hk, (List.append_assoc before _ _).symm⟩
    · cases k with
      | nil =>
          rw [List.append_nil] at hwk
          exact Or.inr ⟨[], hk.symm, by rw [hwk, List.append_nil]⟩
      | cons d k =>
          obtain ⟨rfl, -⟩ := List.cons.inj hk
          exact absurd (by simp [hwk]) hs

/-- **A word occurs in a text**, in any case, with an `edge` or an end of the text on both of its
sides. -/
def Occurs (edge : Char → Bool) (word text : Text) : Prop :=
  ∃ before w after, text = before ++ w ++ after ∧ sameLetters w word = true ∧
    (∀ c ∈ before.getLast?, edge c = true) ∧ ∀ c ∈ after.head?, edge c = true

section Occurs

variable {edge : Char → Bool} {word : Text}

/-- The places of a text can be tried one after the other. -/
theorem occurs_iff_exists_take {text : Text} :
    Occurs edge word text ↔ ∃ i ∈ List.range (text.length + 1),
      ∃ after ∈ dropWord? word (text.drop i),
        (∀ c ∈ (text.take i).getLast?, edge c = true) ∧ ∀ c ∈ after.head?, edge c = true := by
  constructor
  · rintro ⟨before, w, after, rfl, hsame, hedges⟩
    have hlt : before.length < (before ++ w ++ after).length + 1 := by
      rw [List.length_append, List.length_append]
      omega
    refine ⟨before.length, List.mem_range.mpr hlt, after, ?_, ?_⟩
    · rw [List.append_assoc, List.drop_left]
      exact dropWord?_eq_some_iff.mpr ⟨w, rfl, hsame⟩
    · rw [List.append_assoc, List.take_left]
      exact hedges
  · rintro ⟨i, -, after, hdrop, hedges⟩
    obtain ⟨w, hw, hsame⟩ := dropWord?_eq_some_iff.mp hdrop
    have htext : text = text.take i ++ w ++ after := by
      rw [List.append_assoc, ← hw, List.take_append_drop]
    exact ⟨text.take i, w, after, htext, hsame, hedges⟩

instance (text : Text) : Decidable (Occurs edge word text) :=
  decidable_of_iff _ occurs_iff_exists_take.symm

/-- A word with a narrower edge on each side has a wider one there. -/
theorem Occurs.mono {edge' : Char → Bool} {text : Text} (h : Occurs edge word text)
    (hedge : ∀ c, edge c = true → edge' c = true) : Occurs edge' word text := by
  obtain ⟨before, w, after, htext, hsame, hbefore, hafter⟩ := h
  exact ⟨before, w, after, htext, hsame, fun c hc => hedge c (hbefore c hc),
    fun c hc => hedge c (hafter c hc)⟩

/-- A keyword does not occur in a text without letters. -/
theorem not_occurs_of_no_letters {text : Text} (hw : IsKeyword word)
    (h : ∀ c ∈ text, c.isAlpha = false) : ¬ Occurs edge word text := by
  rintro ⟨before, w, after, rfl, hsame, -, -⟩
  obtain ⟨hne, hletters⟩ := hw.of_sameLetters hsame
  obtain ⟨c, w', rfl⟩ := List.exists_cons_of_ne_nil hne
  have hc := h c (by simp)
  rw [hletters c List.mem_cons_self] at hc
  cases hc

/-- **At an edge a text falls into two**, and a keyword occurs in the whole if it occurs in one of
the parts. -/
theorem occurs_append_cons {s : Char} {a b : Text} (hw : IsKeyword word) (hs : edge s = true)
    (hl : s.isAlpha = false) :
    Occurs edge word (a ++ s :: b) ↔ Occurs edge word a ∨ Occurs edge word b := by
  constructor
  · rintro ⟨before, w, after, heq, hsame, hbefore, hafter⟩
    obtain ⟨hne, hletters⟩ := hw.of_sameLetters hsame
    have hsw : s ∉ w := by
      intro h
      rw [hletters s h] at hl
      cases hl
    -- The word holds no `s`, so it stands on one side of it.
    rcases append_cons_eq_append hne hsw heq with ⟨m, rfl, hb⟩ | ⟨m, rfl, ha⟩
    · refine Or.inr ⟨m, w, after, hb, hsame, fun e he => ?_, hafter⟩
      have hlast : m.getLast? = some e := he
      exact hbefore e (by simp [List.getLast?_append, List.getLast?_cons, hlast])
    · refine Or.inl ⟨before, w, m, ha, hsame, hbefore, fun e he => ?_⟩
      have hhead : m.head? = some e := he
      exact hafter e (by simp [List.head?_append, hhead])
  · rintro (⟨before, w, after, rfl, hsame, hbefore, hafter⟩ |
      ⟨before, w, after, rfl, hsame, hbefore, hafter⟩)
    · refine ⟨before, w, after ++ s :: b, by simp, hsame, hbefore, fun e he => ?_⟩
      cases after with
      | nil =>
          obtain rfl : s = e := by simpa using he
          exact hs
      | cons d after => exact hafter e (by simpa using he)
    · refine ⟨a ++ s :: before, w, after, by simp, hsame, fun e he => ?_, hafter⟩
      cases hlast : before.getLast? with
      | none =>
          obtain rfl : s = e := by simpa [List.getLast?_append, List.getLast?_cons, hlast] using he
          exact hs
      | some d =>
          obtain rfl : d = e := by simpa [List.getLast?_append, List.getLast?_cons, hlast] using he
          exact hbefore d hlast

/-- A character that is neither an edge nor a letter makes no keyword at the end of a text. -/
theorem not_occurs_concat {text : Text} {c : Char} (hw : IsKeyword word) (hc : edge c = false)
    (hl : c.isAlpha = false) (h : ¬ Occurs edge word text) : ¬ Occurs edge word (text ++ [c]) := by
  rintro ⟨before, w, after, heq, hsame, hbefore, hafter⟩
  obtain ⟨hne, hletters⟩ := hw.of_sameLetters hsame
  have hcw : c ∉ w := fun hmem => by
    rw [hletters c hmem] at hl
    cases hl
  rcases append_cons_eq_append hne hcw heq with ⟨m, -, hnil⟩ | ⟨m, rfl, rfl⟩
  · simp [hne] at hnil
  · cases m with
    | nil =>
        have hedge := hafter c (by simp)
        rw [hc] at hedge
        cases hedge
    | cons d m => exact h ⟨before, w, d :: m, rfl, hsame, hbefore, hafter⟩

/-- **In a text without edges a keyword occurs** if it is the text. -/
theorem occurs_iff_sameLetters {text : Text}
    (h : ∀ c ∈ text, edge c = false) : Occurs edge word text ↔ sameLetters text word = true := by
  constructor
  · rintro ⟨before, w, after, rfl, hsame, hbefore, hafter⟩
    -- An edge on one of the sides would be a character of the text.
    have hnil : before = [] := by
      by_contra hne
      have hlast := List.getLast_mem hne
      have hedge := hbefore _ (List.getLast?_eq_some_getLast hne)
      rw [h _ (by simp [hlast])] at hedge
      cases hedge
    have hnil' : after = [] := by
      cases after with
      | nil => rfl
      | cons c after =>
          have hedge := hafter c rfl
          rw [h c (by simp)] at hedge
          cases hedge
    subst hnil hnil'
    simpa using hsame
  · intro hsame
    exact ⟨[], text, [], by simp, hsame, by simp, by simp⟩

end Occurs

end RuleTable.Text
