import RuleTable.Proofs.Text.Words
import RuleTable.Text.Numeral

/-!
# The form of numerals

The reader of numerals goes by runs of digits and by single characters. Here it is replaced by the
form of the texts that it accepts. **A decimal number** has a mantissa, and may have a sign before
and an exponent behind it. A numeral is a decimal number, or it is a sign with a word for infinity
or for an undefined value behind it. The two forms have no text in common.
-/

set_option autoImplicit false

namespace RuleTable.Text

/-! ## Decimal numbers -/

/-- A sign, or nothing. -/
def IsSign (sign : Text) : Prop := sign = [] ∨ sign = ['+'] ∨ sign = ['-']

/-- **A mantissa**: digits with at most one point among them, and at least one digit. -/
inductive IsMantissa : Text → Prop
  | whole {digits : Text} (hne : digits ≠ []) (hdigits : ∀ c ∈ digits, c.isDigit = true) :
      IsMantissa digits
  | pointed {whole fraction : Text} (hwhole : ∀ c ∈ whole, c.isDigit = true)
      (hfraction : ∀ c ∈ fraction, c.isDigit = true) (hne : whole ≠ [] ∨ fraction ≠ []) :
      IsMantissa (whole ++ '.' :: fraction)

/-- **An exponent**, or nothing: the letter e in either case, a sign or none, and digits. -/
inductive IsExponentPart : Text → Prop
  | absent : IsExponentPart []
  | present {e : Char} {sign digits : Text} (he : e = 'e' ∨ e = 'E') (hsign : IsSign sign)
      (hne : digits ≠ []) (hdigits : ∀ c ∈ digits, c.isDigit = true) :
      IsExponentPart (e :: (sign ++ digits))

/-- **A decimal number without a sign.** -/
def IsMagnitude (text : Text) : Prop :=
  ∃ mantissa exponent, text = mantissa ++ exponent ∧ IsMantissa mantissa ∧ IsExponentPart exponent

/-- **A decimal number.** -/
def IsDecimal (text : Text) : Prop :=
  ∃ sign magnitude, text = sign ++ magnitude ∧ IsSign sign ∧ IsMagnitude magnitude

/-! ## Digits and signs -/

theorem isDigits_iff {text : Text} :
    isDigits text = true ↔ text ≠ [] ∧ ∀ c ∈ text, c.isDigit = true := by
  simp [isDigits]

/-- Whether a character is a sign. -/
def isSignChar (c : Char) : Bool := c == '+' || c == '-'

/-- A character of a class without the signs is no sign. -/
theorem isSignChar_eq_false {p : Char → Bool} {c : Char} (hp : p '+' = false ∧ p '-' = false)
    (h : p c = true) : isSignChar c = false := by
  rw [← Bool.not_eq_true, isSignChar, Bool.or_eq_true, beq_iff_eq, beq_iff_eq]
  rintro (rfl | rfl)
  · rw [hp.1] at h
    cases h
  · rw [hp.2] at h
    cases h

/-- A text falls into a sign, or nothing, and what is left without it. -/
theorem exists_sign (text : Text) : ∃ sign, IsSign sign ∧ text = sign ++ dropSign text := by
  cases text with
  | nil => exact ⟨[], Or.inl rfl, rfl⟩
  | cons c text =>
      by_cases hplus : c = '+'
      · exact ⟨['+'], Or.inr (Or.inl rfl), by simp [dropSign, hplus]⟩
      by_cases hminus : c = '-'
      · exact ⟨['-'], Or.inr (Or.inr rfl), by simp [dropSign, hminus]⟩
      exact ⟨[], Or.inl rfl, by simp [dropSign, hplus, hminus]⟩

/-- The sign is dropped from a text that has no other behind it. -/
theorem dropSign_append {sign rest : Text} (hs : IsSign sign) (hr : Stops isSignChar rest) :
    dropSign (sign ++ rest) = rest := by
  rcases hs with rfl | rfl | rfl
  · cases rest with
    | nil => rfl
    | cons c rest =>
        have hc : (c == '+' || c == '-') = false := stops_cons.mp hr
        rw [List.nil_append, dropSign, hc, if_neg Bool.false_ne_true]
  · rfl
  · rfl

/-- The letter e in lower case is the letter e in either case. -/
theorem toLower_eq_e_iff {c : Char} : c.toLower = 'e' ↔ c = 'e' ∨ c = 'E' := by
  have hcodes : 'e'.toNat = 101 ∧ 'E'.toNat = 69 := by decide
  simp only [← Char.toNat_inj, toNat_toLower, hcodes]
  split <;> omega

/-! ## The reader -/

theorem isExponent_iff {text : Text} : isExponent text = true ↔ IsExponentPart text := by
  cases text with
  | nil => exact ⟨fun _ => .absent, fun _ => rfl⟩
  | cons e text =>
      rw [isExponent, Bool.and_eq_true, beq_iff_eq, toLower_eq_e_iff, isDigits_iff]
      constructor
      · rintro ⟨he, hne, hdigits⟩
        obtain ⟨sign, hsign, htext⟩ := exists_sign text
        rw [htext]
        exact .present he hsign hne hdigits
      · intro h
        cases h with
        | @present _ sign digits he hsign hne hdigits =>
            have hstops : Stops isSignChar digits := fun c hc =>
              isSignChar_eq_false (p := Char.isDigit) (by decide) (hdigits c (List.mem_of_mem_head? hc))
            rw [dropSign_append hsign hstops]
            exact ⟨he, hne, hdigits⟩

/-- An exponent ends the digits before it, and it does not start with a point. -/
theorem IsExponentPart.stops {exponent : Text} (h : IsExponentPart exponent) :
    Stops Char.isDigit exponent ∧ ∀ rest, exponent ≠ '.' :: rest := by
  cases h with
  | absent => exact ⟨(fun c hc => by cases hc), (fun rest heq => by cases heq)⟩
  | present he =>
      rcases he with rfl | rfl
      · exact ⟨stops_cons.mpr (by decide), fun rest heq => by cases heq⟩
      · exact ⟨stops_cons.mpr (by decide), fun rest heq => by cases heq⟩

/-- **What is read without a sign.** -/
theorem isUnsignedDecimal_iff {text : Text} : isUnsignedDecimal text = true ↔ IsMagnitude text := by
  have hall : ∀ text : Text, ∀ c ∈ text.takeWhile Char.isDigit, c.isDigit = true :=
    fun _ _ => List.mem_takeWhile_imp
  constructor
  · intro h
    simp only [isUnsignedDecimal] at h
    split at h
    · next rest hrest =>
        -- Behind the point stand the digits of the fraction, and then the exponent.
        simp only [Bool.and_eq_true, Bool.not_eq_true', Bool.and_eq_false_iff,
          List.isEmpty_eq_false_iff] at h
        refine ⟨text.takeWhile Char.isDigit ++ '.' :: rest.takeWhile Char.isDigit,
          rest.dropWhile Char.isDigit, ?_, .pointed (hall text) (hall rest) h.1,
          isExponent_iff.mp h.2⟩
        rw [List.append_assoc, List.cons_append, List.takeWhile_append_dropWhile, ← hrest,
          List.takeWhile_append_dropWhile]
    · simp only [Bool.and_eq_true, Bool.not_eq_true', List.isEmpty_eq_false_iff] at h
      exact ⟨text.takeWhile Char.isDigit, text.dropWhile Char.isDigit,
        List.takeWhile_append_dropWhile.symm, .whole h.1 (hall text), isExponent_iff.mp h.2⟩
  · rintro ⟨mantissa, exponent, rfl, hmantissa, hexponent⟩
    obtain ⟨hstops, hpoint⟩ := hexponent.stops
    have hread := isExponent_iff.mpr hexponent
    cases hmantissa with
    | whole hne hdigits =>
        rw [isUnsignedDecimal, takeWhile_append_of_stops hdigits hstops,
          dropWhile_append_of_stops hdigits hstops]
        split
        · next rest => exact absurd rfl (hpoint rest)
        · simp [hne, hread]
    | @pointed whole fraction hwhole hfraction hne =>
        have hshut : Stops Char.isDigit ('.' :: (fraction ++ exponent)) :=
          stops_cons.mpr (by decide)
        rw [isUnsignedDecimal, List.append_assoc, List.cons_append,
          takeWhile_append_of_stops hwhole hshut, dropWhile_append_of_stops hwhole hshut]
        simp only [takeWhile_append_of_stops hfraction hstops,
          dropWhile_append_of_stops hfraction hstops, hread]
        rcases hne with hne | hne
        · simp [hne]
        · simp [hne]

/-! ## Numerals -/

/-- **A word for no number**: one for infinity or for an undefined value, with a sign before it or
without. -/
def IsNotFinite (text : Text) : Prop :=
  ∃ sign word, text = sign ++ word ∧ IsSign sign ∧ isNumberWord word = true

/-- **A signed word**: a sign, and a word for infinity or for an undefined value behind it. -/
def IsSignedWord (text : Text) : Prop :=
  ∃ sign word, text = sign :: word ∧ (sign = '+' ∨ sign = '-') ∧ isNumberWord word = true

/-- A decimal number without a sign starts with a digit or with a point. -/
theorem IsMagnitude.exists_cons {text : Text} (h : IsMagnitude text) :
    ∃ c rest, text = c :: rest ∧ (c.isDigit || c == '.') = true := by
  obtain ⟨mantissa, exponent, rfl, hmantissa, -⟩ := h
  cases hmantissa with
  | whole hne hdigits =>
      obtain ⟨c, digits, rfl⟩ := List.exists_cons_of_ne_nil hne
      exact ⟨c, digits ++ exponent, rfl, by rw [hdigits c List.mem_cons_self, Bool.true_or]⟩
  | @pointed whole fraction hwhole =>
      cases whole with
      | nil => exact ⟨'.', fraction ++ exponent, rfl, by decide⟩
      | cons c whole =>
          exact ⟨c, whole ++ '.' :: fraction ++ exponent, rfl,
            by rw [hwhole c List.mem_cons_self, Bool.true_or]⟩

/-- A word for no number starts with a letter. -/
theorem exists_cons_of_isNumberWord {word : Text} (h : isNumberWord word = true) :
    ∃ c rest, word = c :: rest ∧ c.isAlpha = true := by
  have hletter : ∀ keyword : Text, IsKeyword keyword → sameLetters word keyword = true →
      ∃ c rest, word = c :: rest ∧ c.isAlpha = true := by
    intro keyword hkeyword hsame
    obtain ⟨hne, hletters⟩ := hkeyword.of_sameLetters hsame
    obtain ⟨c, rest, rfl⟩ := List.exists_cons_of_ne_nil hne
    exact ⟨c, rest, rfl, hletters c List.mem_cons_self⟩
  rw [isNumberWord, Bool.or_eq_true, Bool.or_eq_true] at h
  rcases h with (hinf | hinfinity) | hnan
  · exact hletter _ (by decide) hinf
  · exact hletter _ (by decide) hinfinity
  · exact hletter _ (by decide) hnan

/-- **No word is a decimal number without a sign.** -/
theorem not_isMagnitude_of_isNumberWord {word : Text} (h : isNumberWord word = true) :
    ¬ IsMagnitude word := by
  intro hmagnitude
  obtain ⟨c, rest, rfl, hc⟩ := exists_cons_of_isNumberWord h
  obtain ⟨d, rest', heq, hd⟩ := hmagnitude.exists_cons
  obtain ⟨rfl, -⟩ := List.cons.inj heq
  rw [Bool.or_eq_true, beq_iff_eq] at hd
  rcases hd with hdigit | rfl
  · rw [isAlpha_of_isDigit hdigit] at hc
    cases hc
  · cases hc

theorem stops_isSignChar_of_isNumberWord {word : Text} (h : isNumberWord word = true) :
    Stops isSignChar word := by
  obtain ⟨c, rest, rfl, hc⟩ := exists_cons_of_isNumberWord h
  exact stops_cons.mpr (isSignChar_eq_false (p := Char.isAlpha) (by decide) hc)

theorem IsMagnitude.stops_isSignChar {text : Text} (h : IsMagnitude text) :
    Stops isSignChar text := by
  obtain ⟨c, rest, rfl, hc⟩ := h.exists_cons
  exact stops_cons.mpr
    (isSignChar_eq_false (p := fun c => c.isDigit || c == '.') (by decide) hc)

/-- **A numeral is a decimal number or a signed word**, and nothing else. -/
theorem isNumeral_iff {text : Text} : isNumeral text = true ↔ IsDecimal text ∨ IsSignedWord text := by
  constructor
  · intro h
    cases text with
    | nil => cases h
    | cons c text =>
        rw [isNumeral] at h
        split at h
        · next hsign =>
            rw [Bool.or_eq_true, beq_iff_eq, beq_iff_eq] at hsign
            rw [Bool.or_eq_true, isUnsignedDecimal_iff] at h
            refine h.imp (fun hmagnitude => ⟨[c], text, rfl, ?_, hmagnitude⟩)
              fun hword => ⟨c, text, rfl, hsign, hword⟩
            rcases hsign with rfl | rfl
            · exact Or.inr (Or.inl rfl)
            · exact Or.inr (Or.inr rfl)
        · rw [Bool.and_eq_true, isUnsignedDecimal_iff] at h
          exact Or.inl ⟨[], c :: text, rfl, Or.inl rfl, h.2⟩
  · rintro (⟨sign, magnitude, rfl, hsign, hmagnitude⟩ | ⟨sign, word, rfl, hsign, hword⟩)
    · have hread := isUnsignedDecimal_iff.mpr hmagnitude
      rcases hsign with rfl | rfl | rfl
      · have hstops := hmagnitude.stops_isSignChar
        obtain ⟨c, rest, rfl, hc⟩ := hmagnitude.exists_cons
        have hshut : (c == '+' || c == '-') = false := stops_cons.mp hstops
        rw [List.nil_append, isNumeral, hshut, if_neg Bool.false_ne_true, hc, hread,
          Bool.true_and]
      · simp [isNumeral, hread]
      · simp [isNumeral, hread]
    · rcases hsign with rfl | rfl
      · simp [isNumeral, hword]
      · simp [isNumeral, hword]

/-- **No decimal number is a word for no number**, with a sign or without. -/
theorem IsNotFinite.not_isDecimal {text : Text} (h : IsNotFinite text) : ¬ IsDecimal text := by
  obtain ⟨sign, word, rfl, hsign, hword⟩ := h
  rintro ⟨sign', magnitude, heq, hsign', hmagnitude⟩
  -- Without their signs the two would be the same text.
  have hdrop := congrArg dropSign heq
  rw [dropSign_append hsign (stops_isSignChar_of_isNumberWord hword),
    dropSign_append hsign' hmagnitude.stops_isSignChar] at hdrop
  rw [hdrop] at hword
  exact not_isMagnitude_of_isNumberWord hword hmagnitude

theorem IsSignedWord.isNotFinite {text : Text} (h : IsSignedWord text) : IsNotFinite text := by
  obtain ⟨sign, word, rfl, hsign, hword⟩ := h
  refine ⟨[sign], word, rfl, ?_, hword⟩
  rcases hsign with rfl | rfl
  · exact Or.inr (Or.inl rfl)
  · exact Or.inr (Or.inr rfl)

end RuleTable.Text
