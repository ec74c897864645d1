import RuleTable.Proofs.Reading.Cuts
import RuleTable.Proofs.Reading.Operands
import RuleTable.Reading.Clauses

/-!
# Phrases

What the parts of a clause are made of. **A phrase** is words with single spaces between them. A
variable is a phrase of letters, digits and `_`; a plain value may hold anything that a line is not
cut at. Neither has a keyword among its words, and since a phrase has no blanks but the single
spaces, **a keyword occurs in it only if it is one of the words**.
-/

set_option autoImplicit false

namespace RuleTable

open Text

/-! ## Words with spaces between them -/

/-- **A phrase**: one or more words without blanks. -/
structure Phrase where
  words : List Text
  words_ne_nil : words ≠ []
  isWord : ∀ word ∈ words, word ≠ [] ∧ ∀ c ∈ word, isBlank c = false

namespace Phrase

/-- The words with single spaces between them. -/
def text (phrase : Phrase) : Text := join [' '] phrase.words

/-- No word of the phrase is `keyword`, in any case. -/
def Avoids (phrase : Phrase) (keyword : Text) : Prop :=
  ∀ word ∈ phrase.words, sameLetters word keyword = false

instance (phrase : Phrase) (keyword : Text) : Decidable (phrase.Avoids keyword) :=
  inferInstanceAs (Decidable (∀ word ∈ phrase.words, _))

variable (phrase : Phrase)

theorem startsInk : StartsInk phrase.text :=
  startsInk_join phrase.words_ne_nil fun word hword =>
    startsInk_of_forall (phrase.isWord word hword).1 (phrase.isWord word hword).2

theorem endsInk : EndsInk phrase.text :=
  endsInk_join phrase.words_ne_nil fun word hword =>
    endsInk_of_forall (phrase.isWord word hword).1 (phrase.isWord word hword).2

theorem text_ne_nil : phrase.text ≠ [] := phrase.startsInk.ne_nil

/-- **A keyword that no word of a phrase is** does not occur in the phrase. -/
theorem not_occurs {keyword : Text} (hk : IsKeyword keyword) (h : phrase.Avoids keyword) :
    ¬ Occurs isAsciiBlank keyword phrase.text := by
  rw [text, occurs_join_iff hk (by decide)]
  · rintro ⟨word, hword, hsame⟩
    rw [h word hword] at hsame
    cases hsame
  · intro word hword c hc
    exact isAsciiBlank_of_isBlank ((phrase.isWord word hword).2 c hc)

/-- The characters of a phrase are spaces and those of its words. -/
theorem mem_text {c : Char} (h : c ∈ phrase.text) : c = ' ' ∨ ∃ word ∈ phrase.words, c ∈ word := by
  rcases mem_join h with h | h
  · exact Or.inl (List.mem_singleton.mp h)
  · exact Or.inr h

end Phrase

/-! ## Variables -/

/-- The keywords that clauses are told apart by and joined with. -/
def clauseKeywords : List Text :=
  ["and".toList, "between".toList, "in".toList, "contains".toList, "is".toList]

theorem isKeyword_of_mem {keyword : Text} (h : keyword ∈ clauseKeywords) : IsKeyword keyword := by
  revert keyword
  decide

/-- **A variable as rule text has it**: a phrase of ASCII letters, digits and `_` that does not start
with a digit and has no keyword among its words. -/
structure Variable extends Phrase where
  joins : ∀ word ∈ words, ∀ c ∈ word, joinsKeyword c = true
  starts : ∃ c ∈ toPhrase.text.head?, (c.isAlpha || c == '_') = true
  avoids : ∀ keyword ∈ clauseKeywords, toPhrase.Avoids keyword

namespace Variable

variable (variableName : Variable) {rest : Text}

theorem mem_text {c : Char} (h : c ∈ variableName.text) : c = ' ' ∨ joinsKeyword c = true := by
  rcases variableName.toPhrase.mem_text h with rfl | ⟨word, hword, hc⟩
  · exact Or.inl rfl
  · exact Or.inr (variableName.joins word hword c hc)

/-- A character that is neither a space nor part of a word is not in a variable. -/
theorem ne_of_mem_text {c d : Char} (h : c ∈ variableName.text) (hspace : d ≠ ' ')
    (hd : joinsKeyword d = false) : c ≠ d := by
  rintro rfl
  rcases variableName.mem_text h with rfl | hc
  · exact hspace rfl
  · rw [hd] at hc
    cases hc

theorem flat : ∀ c ∈ variableName.text, c ≠ ',' ∧ c ≠ '(' ∧ c ≠ ')' := fun _ hc =>
  ⟨variableName.ne_of_mem_text hc (by decide) (by decide),
    variableName.ne_of_mem_text hc (by decide) (by decide),
    variableName.ne_of_mem_text hc (by decide) (by decide)⟩

theorem isComparisonChar_of_mem {c : Char} (h : c ∈ variableName.text) :
    isComparisonChar c = false := by
  rw [← Bool.not_eq_true]
  intro hc
  simp only [isComparisonChar, Bool.or_eq_true, beq_iff_eq] at hc
  rcases hc with ((rfl | rfl) | rfl) | rfl
  all_goals exact variableName.ne_of_mem_text h (by decide) (by decide) rfl

/-- **A variable can be the name of a variable.** -/
theorem isVariable_text : isVariable variableName.text = true := by
  obtain ⟨c, hc, hletter⟩ := variableName.starts
  have hall : ∀ d ∈ variableName.text, (d.isAlphanum || d == '_' || isAsciiBlank d) = true := by
    intro d hd
    rcases variableName.mem_text hd with rfl | hjoins
    · decide
    · rw [joinsKeyword] at hjoins
      rw [hjoins, Bool.true_or]
  cases htext : variableName.text with
  | nil => exact absurd htext variableName.text_ne_nil
  | cons d text =>
      rw [htext] at hc hall
      obtain rfl : d = c := Option.some.inj hc
      rw [isVariable, hletter, Bool.true_and, List.all_eq_true]
      exact fun e he => hall e (List.mem_cons_of_mem d he)

/-- **No keyword occurs in a variable**, so one that occurs behind it occurs in what follows. -/
theorem occurs_append_iff {keyword : Text} (hk : keyword ∈ clauseKeywords) :
    Occurs isAsciiBlank keyword (variableName.text ++ ' ' :: rest)
      ↔ Occurs isAsciiBlank keyword rest := by
  have hkeyword := isKeyword_of_mem hk
  rw [occurs_append_cons hkeyword (by decide) (by decide)]
  exact or_iff_right (variableName.not_occurs hkeyword (variableName.avoids keyword hk))

/-- No range is opened in a variable: its words are words for the scan, too. -/
theorem occurs_between_append_iff :
    Occurs (! joinsKeyword ·) "between".toList (variableName.text ++ ' ' :: rest)
      ↔ Occurs (! joinsKeyword ·) "between".toList rest := by
  have hwords : ∀ word ∈ variableName.words, ∀ c ∈ word, (! joinsKeyword c) = false :=
    fun word hword c hc => by rw [variableName.joins word hword c hc, Bool.not_true]
  rw [occurs_append_cons (by decide) (by decide) (by decide)]
  apply or_iff_right
  rw [Phrase.text, occurs_join_iff (by decide) (by decide) hwords]
  rintro ⟨word, hword, hsame⟩
  rw [variableName.avoids _ (by decide) word hword] at hsame
  cases hsame

/-! ### Variables in front of a keyword -/

variable {keyword operand : Text}

/-- The cut behind a variable, at a keyword with single spaces around it. -/
def cut (operand : Text) : Cut := ⟨' ' :: variableName.text.reverse, ' ' :: operand⟩

theorem isCut (keyword operand : Text) :
    IsCut keyword (variableName.text ++ ' ' :: (keyword ++ ' ' :: operand))
      (variableName.cut operand) := by
  refine ⟨keyword, ?_, sameLetters_iff.mpr rfl, rfl, rfl⟩
  simp [cut]

theorem left_cut (operand : Text) : (variableName.cut operand).left = variableName.text := by
  have hreverse : (variableName.cut operand).before.reverse = variableName.text ++ [' '] := by
    simp [cut]
  rw [Cut.left, hreverse]
  exact trimEnd_append_of_endsInk variableName.endsInk (by decide)

theorem right_cut (h : StartsInk operand) : (variableName.cut operand).right = operand := by
  obtain ⟨c, rest, rfl, hc⟩ := h
  show trimStart (' ' :: c :: rest) = _
  rw [trimStart, List.dropWhile_cons_of_pos (by decide), List.dropWhile_cons_of_neg (by simp [hc])]

/-- **A later cut lies in the operand.** -/
theorem exists_of_later_cut (hk : IsKeyword keyword) {later : Cut}
    (h : IsCut keyword (variableName.text ++ ' ' :: (keyword ++ ' ' :: operand)) later)
    (hlater : (variableName.cut operand).before.length < later.before.length) :
    ∃ m w, later.before.reverse = variableName.text ++ ' ' :: (keyword ++ ' ' :: m) ∧
      operand = m ++ w ++ later.after ∧ sameLetters w keyword = true ∧
      startsBlank later.before = true ∧ startsBlank later.after = true := by
  obtain ⟨w, heq, hsame, hblanks⟩ := h
  obtain ⟨hne, hletters⟩ := hk.of_sameLetters hsame
  have hspace : ' ' ∉ w := fun hmem => absurd (hletters ' ' hmem) (by decide)
  have hlength : w.length = keyword.length := by
    simpa using congrArg List.length (sameLetters_iff.mp hsame)
  rw [← List.cons_append, ← List.append_assoc] at heq
  rcases append_cons_eq_append hne hspace heq with ⟨m, hbefore, hoperand⟩ | ⟨m, -, hfront⟩
  · exact ⟨m, w, by simpa using hbefore, hoperand, hsame, hblanks⟩
  · -- The cut would not start behind the one at the variable.
    have hlengths := congrArg List.length hfront
    simp only [cut, List.length_append, List.length_cons, List.length_reverse] at hlengths hlater
    omega

theorem not_occurs_append {sign : Text} (hk : keyword ∈ clauseKeywords)
    (hsign : ¬ Occurs isAsciiBlank keyword sign) (hoperand : ¬ Occurs isAsciiBlank keyword operand) :
    ¬ Occurs isAsciiBlank keyword (variableName.text ++ ' ' :: (sign ++ ' ' :: operand)) := by
  rw [variableName.occurs_append_iff hk,
    occurs_append_cons (isKeyword_of_mem hk) (by decide) (by decide), not_or]
  exact ⟨hsign, hoperand⟩

/-- **What is read at the keyword behind a variable**, if the keyword does not come again where the
variable could be longer. -/
theorem readCut?_append {α : Type} {operand? : Text → Option α} {result : α} (hk : IsKeyword keyword)
    (hstart : StartsInk operand) (hread : operand? operand = some result)
    (hagain : ¬ Occurs isAsciiBlank keyword operand ∨ operand.head? = some '(') :
    readCut? keyword operand? (variableName.text ++ ' ' :: (keyword ++ ' ' :: operand))
      = some (variableName.text, result) := by
  refine readCut?_eq_some_iff.mpr ⟨_, variableName.isCut keyword operand, variableName.left_cut operand,
    variableName.isVariable_text, by rw [variableName.right_cut hstart]; exact hread,
    fun later hcut hlength hvariable => ?_⟩
  obtain ⟨m, w, hbefore, hoperand, hsame, hblank, hafter⟩ :=
    variableName.exists_of_later_cut hk hcut hlength
  -- A later cut finds the keyword in the operand, or behind its parenthesis.
  rcases hagain with hagain | hparen
  · refine absurd ⟨m, w, later.after, hoperand, hsame, fun c hc => ?_, fun c hc => ?_⟩ hagain
    · obtain ⟨b, before, hb, hbb⟩ := startsBlank_iff.mp hblank
      have hlast := congrArg List.getLast? hbefore
      have hm : m.getLast? = some c := hc
      simp only [hb, List.getLast?_reverse, List.head?_cons, List.getLast?_append,
        List.getLast?_cons, hm, Option.getD_some, Option.some_or, Option.some.injEq] at hlast
      rwa [← hlast]
    · obtain ⟨a, after, ha, hab⟩ := startsBlank_iff.mp hafter
      rw [ha, List.head?_cons, Option.mem_some_iff] at hc
      rwa [← hc]
  · -- The cut lies behind the parenthesis, which is no letter of the keyword.
    have hmem : '(' ∈ m := by
      cases m with
      | nil =>
          obtain ⟨hne, hletters⟩ := hk.of_sameLetters hsame
          obtain ⟨d, w, rfl⟩ := List.exists_cons_of_ne_nil hne
          rw [hoperand] at hparen
          obtain rfl : d = '(' := Option.some.inj hparen
          exact absurd (hletters _ List.mem_cons_self) (by decide)
      | cons d m =>
          rw [hoperand] at hparen
          obtain rfl : d = '(' := Option.some.inj hparen
          exact List.mem_cons_self
    refine absurd ?_ (paren_not_mem_before hvariable)
    rw [← List.mem_reverse, hbefore]
    simp [hmem]

end Variable

/-! ## Plain values -/

/-- **A plain value**: a phrase without commas and parentheses, with no keyword among its words, and
without the letters of `between` in any of them. -/
structure PlainValue extends Phrase where
  isFlat : ∀ word ∈ words, ∀ c ∈ word, c ≠ ',' ∧ c ≠ '(' ∧ c ≠ ')'
  avoids : ∀ keyword ∈ "any".toList :: clauseKeywords, toPhrase.Avoids keyword
  noBetween : ¬ Occurs (fun _ => true) "between".toList toPhrase.text

namespace PlainValue

variable (value : PlainValue)

theorem flat : ∀ c ∈ value.text, c ≠ ',' ∧ c ≠ '(' ∧ c ≠ ')' := by
  intro c hc
  rcases value.mem_text hc with rfl | ⟨word, hword, hc⟩
  · decide
  · exact value.isFlat word hword c hc

theorem not_occurs {keyword : Text} (hk : keyword ∈ clauseKeywords) :
    ¬ Occurs isAsciiBlank keyword value.text :=
  value.toPhrase.not_occurs (isKeyword_of_mem hk)
    (value.avoids keyword (List.mem_cons_of_mem _ hk))

theorem not_occurs_between {edge : Char → Bool} : ¬ Occurs edge "between".toList value.text :=
  fun h => value.noBetween (h.mono fun _ _ => rfl)

/-- A plain value is contained as it stands: it does not start with the word `any`. -/
theorem contained?_text : contained? value.text = some value.text := by
  have hnone : ∀ other, ¬ SaysAny value.text other := by
    rintro other ⟨w, gap, heq, hw, hgap, -⟩
    obtain ⟨b, after, hb, hblank⟩ := startsBlank_iff.mp (hgap.startsBlank_append other)
    refine value.toPhrase.not_occurs (by decide) (value.avoids _ List.mem_cons_self)
      ⟨[], w, gap ++ other, heq, hw, by simp, ?_⟩
    simpa [hb] using hblank
  exact contained?_eq_some_iff.mpr ⟨Or.inr ⟨hnone, rfl⟩, value.text_ne_nil⟩

end PlainValue

/-! ## Decimals -/

/-- **A bound of a range**: digits, with a fraction or without. -/
structure Decimal where
  whole : Text
  fraction : Option Text
  whole_isDigits : isDigits whole = true
  fraction_isDigits : ∀ digits ∈ fraction, isDigits digits = true

namespace Decimal

/-- The digits, with a point before the fraction. -/
def text (decimal : Decimal) : Text :=
  decimal.whole ++ (decimal.fraction.map fun digits => '.' :: digits).getD []

theorem of_isDigits {text : Text} (h : isDigits text = true) :
    text ≠ [] ∧ ∀ c ∈ text, c.isDigit = true := by
  simpa [isDigits] using h

variable (decimal : Decimal)

theorem isBoundChar_of_mem {c : Char} (h : c ∈ decimal.text) : isBoundChar c = true := by
  rw [text, List.mem_append] at h
  rcases h with h | h
  · rw [isBoundChar, (of_isDigits decimal.whole_isDigits).2 c h, Bool.true_or]
  · cases hf : decimal.fraction with
    | none => simp [hf] at h
    | some digits =>
        simp only [hf, Option.map_some, Option.getD_some, List.mem_cons] at h
        rcases h with rfl | h
        · decide
        · rw [isBoundChar, (of_isDigits (decimal.fraction_isDigits digits hf)).2 c h, Bool.true_or]

/-- A decimal starts with a digit. -/
theorem exists_digit : ∃ c rest, decimal.text = c :: rest ∧ c.isDigit = true := by
  obtain ⟨hne, hdigits⟩ := of_isDigits decimal.whole_isDigits
  obtain ⟨c, rest, hwhole⟩ := List.exists_cons_of_ne_nil hne
  rw [text, hwhole, List.cons_append]
  exact ⟨c, _, rfl, hdigits c (by simp [hwhole])⟩

theorem text_ne_nil : decimal.text ≠ [] := by
  obtain ⟨c, rest, htext, -⟩ := decimal.exists_digit
  rw [htext]
  exact List.cons_ne_nil c rest

theorem isAlpha_of_mem {c : Char} (h : c ∈ decimal.text) : c.isAlpha = false := by
  have hbound := decimal.isBoundChar_of_mem h
  rw [isBoundChar, Bool.or_eq_true, beq_iff_eq] at hbound
  rcases hbound with hdigit | rfl
  · exact isAlpha_of_isDigit hdigit
  · rfl

theorem flat : ∀ c ∈ decimal.text, c ≠ ',' ∧ c ≠ '(' ∧ c ≠ ')' := by
  intro c hc
  have hbound := decimal.isBoundChar_of_mem hc
  refine ⟨?_, ?_, ?_⟩
  all_goals
    rintro rfl
    exact absurd hbound (by decide)

theorem isBlank_eq_false_of_mem {c : Char} (h : c ∈ decimal.text) : isBlank c = false :=
  isBlank_eq_false (p := isBoundChar) (by decide) (decimal.isBoundChar_of_mem h)

theorem startsInk : StartsInk decimal.text :=
  startsInk_of_forall decimal.text_ne_nil fun _ => decimal.isBlank_eq_false_of_mem

theorem endsInk : EndsInk decimal.text :=
  endsInk_of_forall decimal.text_ne_nil fun _ => decimal.isBlank_eq_false_of_mem

/-- **A decimal is a numeral.** -/
theorem isNumeral_text : isNumeral decimal.text = true := by
  obtain ⟨hne, hwhole⟩ := of_isDigits decimal.whole_isDigits
  have hunsigned : isUnsignedDecimal decimal.text = true := by
    have hempty : decimal.whole.isEmpty = false := by simpa using hne
    rw [isUnsignedDecimal, text, List.takeWhile_append_of_pos hwhole,
      List.dropWhile_append_of_pos hwhole]
    cases hf : decimal.fraction with
    | none => simp [hempty, isExponent]
    | some digits =>
        obtain ⟨-, hdigits⟩ := of_isDigits (decimal.fraction_isDigits digits hf)
        have hall : digits.dropWhile Char.isDigit = [] := List.dropWhile_eq_nil_iff.mpr hdigits
        have hpoint : Char.isDigit '.' = false := by decide
        simp [hempty, hall, hpoint, isExponent]
  obtain ⟨c, rest, htext, hc⟩ := decimal.exists_digit
  have hplus : c ≠ '+' := by
    rintro rfl
    exact absurd hc (by decide)
  have hminus : c ≠ '-' := by
    rintro rfl
    exact absurd hc (by decide)
  rw [htext] at hunsigned ⊢
  simp [isNumeral, hplus, hminus, hc, hunsigned]

end Decimal

/-! ## Items of a list -/

/-- **The items of a list**: trimmed texts without commas and parentheses. A single item is not
empty. -/
structure Items where
  items : List Text
  items_ne_nil : items ≠ []
  items_ne_blank : items ≠ [[]]
  isTrimmed : ∀ item ∈ items, trim item = item
  isFlat : ∀ item ∈ items, ∀ c ∈ item, c ≠ ',' ∧ c ≠ '(' ∧ c ≠ ')'

namespace Items

/-- The items between parentheses. -/
def text (list : Items) : Text := '(' :: join ", ".toList list.items ++ [')']

/-- The items as an expression. -/
def quoted (list : Items) : Text :=
  ['['] ++ join ", ".toList (list.items.map fun item => ['"'] ++ item ++ ['"']) ++ [']']

variable (list : Items)

theorem ne_paren_of_mem {c : Char} (h : c ∈ join ", ".toList list.items) : c ≠ '(' ∧ c ≠ ')' := by
  have hcomma : ∀ d ∈ ", ".toList, d ≠ '(' ∧ d ≠ ')' := by decide
  rcases mem_join h with h | ⟨item, hitem, hc⟩
  · exact hcomma c h
  · exact (list.isFlat item hitem c hc).2

theorem join_ne_nil : join ", ".toList list.items ≠ [] := by
  obtain ⟨first, rest, hitems⟩ := List.exists_cons_of_ne_nil list.items_ne_nil
  by_cases hrest : rest = []
  · have hfirst : first ≠ [] := by
      rintro rfl
      exact list.items_ne_blank (by rw [hitems, hrest])
    rwa [hitems, hrest, join_singleton]
  · rw [hitems, join_cons _ _ hrest]
    simp

theorem listItems?_text : listItems? list.text = some (join ", ".toList list.items) :=
  listItems?_eq_some_iff.mpr ⟨rfl, list.join_ne_nil, fun hmem => (list.ne_paren_of_mem hmem).2 rfl⟩

/-- **The items come apart at the commas.** -/
theorem map_trim_splitOn {items : List Text} (hne : items ≠ [])
    (h : ∀ item ∈ items, ',' ∉ item ∧ trim item = item) :
    (splitOn ',' (join ", ".toList items)).map trim = items := by
  induction items with
  | nil => exact absurd rfl hne
  | cons item items ih =>
      obtain ⟨hcomma, htrim⟩ := h item List.mem_cons_self
      by_cases hnil : items = []
      · rw [hnil, join_singleton, splitOn_of_not_mem hcomma, List.map_singleton, htrim]
      · have hspace (text : Text) :
            (splitOn ',' (' ' :: text)).map trim = (splitOn ',' text).map trim := by
          obtain ⟨piece, pieces, hsplit⟩ := List.exists_cons_of_ne_nil (splitOn_ne_nil ',' text)
          rw [splitOn, if_neg (by decide), hsplit]
          rfl
        have hjoin : join ", ".toList (item :: items)
            = item ++ ',' :: (' ' :: join ", ".toList items) := by
          rw [join_cons _ _ hnil, List.append_assoc]
          rfl
        rw [hjoin, splitOn_append_cons hcomma, List.map_cons, htrim, hspace,
          ih hnil fun i hi => h i (List.mem_cons_of_mem item hi)]

theorem quotedList_join : quotedList (join ", ".toList list.items) = list.quoted := by
  have hsplit : (splitOn ',' (join ", ".toList list.items)).map trim = list.items :=
    map_trim_splitOn list.items_ne_nil fun item hitem =>
      ⟨fun hmem => (list.isFlat item hitem _ hmem).1 rfl, list.isTrimmed item hitem⟩
  rw [quotedList, quoted]
  conv_rhs => rw [← hsplit, List.map_map]
  rfl

end Items

end RuleTable
