import RuleTable.Proofs.Text.Join
import RuleTable.Rule.ColumnName
import RuleTable.Text.Letter
import RuleTable.Text.Numeral

/-!
# The case of letters

Texts that differ only in the case of ASCII letters become equal when they are **folded**, that is
put into lower case letter by letter. An operation on texts is blind to case if it makes no
difference whether a text is folded before the operation or its result afterwards. Here this is shown
for trimming, splitting, dropping words and the other operations that the readers of rule text are
made of. It all comes down to the classes of characters they go by: a class that has all letters or
none is blind.
-/

set_option autoImplicit false

namespace RuleTable.Text

/-! ## Characters -/

/-- What is no letter of ASCII stays as it is. -/
theorem toLower_eq_self {c : Char} (h : c.isAlpha = false) : c.toLower = c := by
  rw [← Bool.not_eq_true, isAlpha_iff] at h
  refine Char.toNat_inj.mp ?_
  rw [toNat_toLower, if_neg (by omega)]

theorem toLower_toLower (c : Char) : c.toLower.toLower = c.toLower := by
  refine Char.toNat_inj.mp ?_
  rw [toNat_toLower c.toLower, toNat_toLower c]
  split
  · exact if_neg (by omega)
  · rfl

/-- A letter becomes no mark. -/
theorem toLower_eq_iff {c mark : Char} (hm : mark.isAlpha = false) :
    c.toLower = mark ↔ c = mark := by
  constructor
  · rintro rfl
    rw [isAlpha_toLower] at hm
    exact (toLower_eq_self hm).symm
  · rintro rfl
    exact toLower_eq_self hm

theorem beq_toLower {mark : Char} (hm : mark.isAlpha = false) (c : Char) :
    (c.toLower == mark) = (c == mark) := by
  rw [Bool.eq_iff_iff, beq_iff_eq, beq_iff_eq, toLower_eq_iff hm]

/-- **A class of characters is blind to case** if with a letter it has the letter in lower case,
and the other way round. -/
def Blind (p : Char → Bool) : Prop := ∀ c, p c.toLower = p c

/-- A class that has all letters or none is blind to case. -/
theorem blind_of_letters {p : Char → Bool} (b : Bool) (h : ∀ c, c.isAlpha = true → p c = b) :
    Blind p := by
  intro c
  by_cases hc : c.isAlpha = true
  · rw [h c hc, h _ ((isAlpha_toLower c).trans hc)]
  · rw [toLower_eq_self (by simpa using hc)]

theorem isDigit_of_isAlpha {c : Char} (h : c.isAlpha = true) : c.isDigit = false := by
  rw [← Bool.not_eq_true]
  intro hd
  rw [isAlpha_of_isDigit hd] at h
  cases h

theorem blind_isBlank : Blind isBlank := blind_of_letters false fun _ => isBlank_of_isAlpha

theorem blind_isAsciiBlank : Blind isAsciiBlank :=
  blind_of_letters false fun _ h => isAsciiBlank_of_isBlank (isBlank_of_isAlpha h)

theorem blind_isDigit : Blind Char.isDigit := blind_of_letters false fun _ => isDigit_of_isAlpha

theorem blind_isAlpha : Blind Char.isAlpha := isAlpha_toLower

theorem blind_isAlphanum : Blind Char.isAlphanum :=
  blind_of_letters true fun c h => by rw [Char.isAlphanum, h, Bool.true_or]

theorem blind_isWordChar : Blind isWordChar :=
  blind_of_letters true fun c h => by
    rw [isWordChar, isAlphanumeric, isAlphabetic_of_isAlpha h, Bool.true_or, Bool.true_or]

theorem blind_beq {mark : Char} (hm : mark.isAlpha = false) : Blind (· == mark) :=
  fun c => beq_toLower hm c

theorem Blind.not {p : Char → Bool} (h : Blind p) : Blind (! p ·) := fun c => by
  show (! p c.toLower) = ! p c
  rw [h c]

theorem Blind.or {p q : Char → Bool} (hp : Blind p) (hq : Blind q) : Blind fun c => p c || q c :=
  fun c => by
    show (p c.toLower || q c.toLower) = (p c || q c)
    rw [hp c, hq c]

/-! ## Folding -/

/-- **A text folded**: each letter of ASCII in lower case. -/
def folded (text : Text) : Text := text.map Char.toLower

section Folded

variable {p : Char → Bool} {text : Text}

@[simp] theorem folded_nil : folded [] = [] := rfl

@[simp] theorem folded_cons (c : Char) (text : Text) :
    folded (c :: text) = c.toLower :: folded text := rfl

@[simp] theorem folded_append (a b : Text) : folded (a ++ b) = folded a ++ folded b :=
  List.map_append

@[simp] theorem folded_reverse (text : Text) : folded text.reverse = (folded text).reverse :=
  List.map_reverse

@[simp] theorem isEmpty_folded (text : Text) : (folded text).isEmpty = text.isEmpty :=
  List.isEmpty_map

@[simp] theorem folded_folded (text : Text) : folded (folded text) = folded text := by
  rw [folded, folded, List.map_map]
  exact List.map_congr_left fun c _ => toLower_toLower c

/-- Texts have the same letters if they are equal when folded. -/
theorem sameLetters_iff_folded {a b : Text} : sameLetters a b = true ↔ folded a = folded b :=
  sameLetters_iff

@[simp] theorem sameLetters_folded (text word : Text) :
    sameLetters (folded text) word = sameLetters text word := by
  rw [Bool.eq_iff_iff, sameLetters_iff_folded, sameLetters_iff_folded, folded_folded]

/-- What starts with a mark when folded starts with it before. -/
theorem exists_of_folded_eq_cons {mark : Char} (hm : mark.isAlpha = false) {text rest : Text}
    (h : folded text = mark :: rest) : ∃ after, text = mark :: after ∧ rest = folded after := by
  cases text with
  | nil => cases h
  | cons c text =>
      obtain ⟨hc, rfl⟩ := List.cons.inj h
      obtain rfl := (toLower_eq_iff hm).mp hc
      exact ⟨text, rfl, rfl⟩

/-- What does not start with a mark does not start with it when folded. -/
theorem folded_ne_cons {mark : Char} (hm : mark.isAlpha = false) {text : Text}
    (h : ∀ after, text = mark :: after → False) (rest : Text) :
    folded text = mark :: rest → False := by
  intro hfolded
  obtain ⟨after, rfl, -⟩ := exists_of_folded_eq_cons hm hfolded
  exact h after rfl

theorem takeWhile_folded (hp : Blind p) :
    (folded text).takeWhile p = folded (text.takeWhile p) := by
  have hcomp : p ∘ Char.toLower = p := funext hp
  rw [folded, List.takeWhile_map, hcomp, folded]

theorem dropWhile_folded (hp : Blind p) :
    (folded text).dropWhile p = folded (text.dropWhile p) := by
  have hcomp : p ∘ Char.toLower = p := funext hp
  rw [folded, List.dropWhile_map, hcomp, folded]

theorem all_folded (hp : Blind p) : (folded text).all p = text.all p := by
  have hcomp : p ∘ Char.toLower = p := funext hp
  rw [folded, List.all_map, hcomp]

theorem any_head?_folded (hp : Blind p) : (folded text).head?.any p = text.head?.any p := by
  cases text with
  | nil => rfl
  | cons c text => exact hp c

@[simp] theorem startsBlank_folded (text : Text) : startsBlank (folded text) = startsBlank text :=
  any_head?_folded blind_isAsciiBlank

@[simp] theorem skipBlanks_folded (text : Text) :
    skipBlanks (folded text) = folded (skipBlanks text) :=
  dropWhile_folded blind_isAsciiBlank

@[simp] theorem trimStart_folded (text : Text) :
    trimStart (folded text) = folded (trimStart text) :=
  dropWhile_folded blind_isBlank

@[simp] theorem trimEnd_folded (text : Text) : trimEnd (folded text) = folded (trimEnd text) := by
  rw [trimEnd_eq, trimEnd_eq, ← folded_reverse, trimStart_folded, folded_reverse]

@[simp] theorem trim_folded (text : Text) : trim (folded text) = folded (trim text) := by
  rw [trim, trim, trimStart_folded, trimEnd_folded]

theorem firstToken?_folded (text : Text) :
    firstToken? (folded text) = (firstToken? text).map folded := by
  rw [firstToken?, firstToken?, skipBlanks_folded, takeWhile_folded blind_isAsciiBlank.not]
  cases (skipBlanks text).takeWhile (! isAsciiBlank ·) <;> rfl

theorem dropWord?_folded (word text : Text) :
    dropWord? word (folded text) = (dropWord? word text).map folded := by
  induction word generalizing text with
  | nil => rfl
  | cons w word ih =>
      cases text with
      | nil => rfl
      | cons c text =>
          rw [folded_cons, dropWord?, dropWord?, toLower_toLower, ih]
          split <;> rfl

/-! ## Pieces -/

theorem splitOn_folded {separator : Char} (hs : separator.isAlpha = false) (text : Text) :
    splitOn separator (folded text) = (splitOn separator text).map folded := by
  induction text with
  | nil => rfl
  | cons c text ih =>
      rw [folded_cons, splitOn, splitOn, ih]
      by_cases hc : c = separator
      · rw [if_pos hc, if_pos ((toLower_eq_iff hs).mpr hc)]
        rfl
      · rw [if_neg hc, if_neg fun h => hc ((toLower_eq_iff hs).mp h)]
        obtain ⟨piece, pieces, hp⟩ := List.exists_cons_of_ne_nil (splitOn_ne_nil separator text)
        rw [hp]
        rfl

theorem folded_join (separator : Text) (pieces : List Text) :
    folded (join separator pieces) = join (folded separator) (pieces.map folded) := by
  induction pieces with
  | nil => rfl
  | cons piece pieces ih =>
      by_cases hnil : pieces = []
      · rw [hnil, List.map_singleton, join_singleton, join_singleton]
      · rw [List.map_cons, join_cons _ _ hnil, join_cons _ _ (by simpa using hnil), folded_append,
          folded_append, ih]

/-! ## Numerals -/

theorem dropSign_folded (text : Text) : dropSign (folded text) = folded (dropSign text) := by
  cases text with
  | nil => rfl
  | cons c text =>
      rw [folded_cons, dropSign, dropSign, beq_toLower (by decide), beq_toLower (by decide)]
      split <;> rfl

theorem isDigits_folded (text : Text) : isDigits (folded text) = isDigits text := by
  rw [isDigits, isDigits, isEmpty_folded, all_folded blind_isDigit]

theorem isExponent_folded (text : Text) : isExponent (folded text) = isExponent text := by
  cases text with
  | nil => rfl
  | cons c text =>
      rw [folded_cons, isExponent, isExponent, toLower_toLower, dropSign_folded, isDigits_folded]

theorem isUnsignedDecimal_folded (text : Text) :
    isUnsignedDecimal (folded text) = isUnsignedDecimal text := by
  simp only [isUnsignedDecimal]
  rw [takeWhile_folded blind_isDigit, dropWhile_folded blind_isDigit, isEmpty_folded]
  cases hrest : text.dropWhile Char.isDigit with
  | nil => rfl
  | cons c rest =>
      by_cases hc : c = '.'
      · rw [hc, folded_cons, (toLower_eq_iff (by decide)).mpr rfl]
        show (! ((text.takeWhile Char.isDigit).isEmpty
            && ((folded rest).takeWhile Char.isDigit).isEmpty)
          && isExponent ((folded rest).dropWhile Char.isDigit)) = _
        rw [takeWhile_folded blind_isDigit, dropWhile_folded blind_isDigit, isEmpty_folded,
          isExponent_folded]
        rfl
      · have hc' : c.toLower ≠ '.' := fun h => hc ((toLower_eq_iff (by decide)).mp h)
        have hexp := isExponent_folded (c :: rest)
        rw [folded_cons] at hexp ⊢
        split
        · next h => exact absurd (List.cons.inj h).1 hc'
        · split
          · next h => exact absurd (List.cons.inj h).1 hc
          · rw [hexp]

/-- **A numeral is one in any case.** -/
theorem isNumeral_folded (text : Text) : isNumeral (folded text) = isNumeral text := by
  cases text with
  | nil => rfl
  | cons c text =>
      have hwhole := isUnsignedDecimal_folded (c :: text)
      rw [folded_cons] at hwhole ⊢
      rw [isNumeral, isNumeral, beq_toLower (by decide), beq_toLower (by decide),
        beq_toLower (by decide), blind_isDigit c, hwhole, isUnsignedDecimal_folded, isNumberWord,
        isNumberWord, sameLetters_folded, sameLetters_folded, sameLetters_folded]

end Folded

end RuleTable.Text

namespace RuleTable

open Text

/-! ## Column names -/

/-- The lower-case form of a letter is that of the letter in lower case. -/
theorem lowerCase_toLower (c : Char) : lowerCase c.toLower = lowerCase c := by
  by_cases hc : c.isAlpha = true
  · have hcode := toNat_lt_of_isAlpha hc
    have hcode' := toNat_lt_of_isAlpha ((isAlpha_toLower c).trans hc)
    rw [lowerCase, if_pos hcode', lowerCase, if_pos hcode, toLower_toLower]
  · rw [toLower_eq_self (by simpa using hc)]

theorem squeeze_folded (inBlank : Bool) (text : Text) :
    ColumnName.squeeze inBlank (folded text) = ColumnName.squeeze inBlank text := by
  induction text generalizing inBlank with
  | nil => rfl
  | cons c text ih =>
      rw [folded_cons, ColumnName.squeeze, ColumnName.squeeze, blind_isBlank c, lowerCase_toLower,
        ih true, ih false]

/-- **A variable has the same column name in any case.** -/
theorem ofText_folded (written : Text) :
    ColumnName.ofText (folded written) = ColumnName.ofText written := by
  simp only [ColumnName.ofText, trim_folded, squeeze_folded]

end RuleTable
